import Rulebook.Session.Basic

/-!
# The journal of a session

Opening the journal and setting its level.
-/

namespace Rulebook
namespace Session

/-- A level, by its name or by its rank. -/
inductive LevelRequest where
  | named (name : String)
  | ranked (rank : Int)

def LevelRequest.rank? : LevelRequest → Option Int
  | .named name => Journal.rankOfName? name
  | .ranked rank => some rank

/-- Opens the journal anew and sets its level.  An unknown name leaves the level as it is. -/
def openJournal (level : LevelRequest) : SessionM Int := do
  modify fun session => { session with journal := session.journal.reopen }
  match level.rank? with
  | some rank =>
    modify fun session => { session with journal := { session.journal with level := rank } }
    pure rank
  | none => throw .unknownChoice

def journalLevel : SessionM Int := do
  pure (← get).journal.level

def applyLevel (settings : List (Scalar × Term)) : SessionM Int := do
  let settings ← accept (Settings.ofEntries settings)
  modify fun session =>
    { session with journal := { session.journal with level := settings.logLevel.rank } }
  journalLevel

end Session
end Rulebook
