import Rulebook.Event
import Rulebook.Fault
import Rulebook.Rule.Application

/-!
# The journal

The journal writes events as lines, from a level on.  A journal at level zero leaves the decision
to those around it, who want warnings and worse.
-/

namespace Rulebook

namespace Event

def level : Event → LogLevel
  | .conflictWarned _ => .warning
  | .conflictReported _ => .error
  | _ => .debug

def source : Event → String
  | .bootstrapped _ => "backend.finrules.logic.primitives"
  | .closureCreated _ | .frameEntered _ => "backend.finrules.logic.procedures"
  | .hostApplied .. => "backend.finrules.logic.evaluator"
  | _ => "backend.finrules.logic.rules"

/-- What an event says.  Frames have no names that a reader could use and are written `#`. -/
def text : Event → String
  | .bootstrapped count =>
    "Bootstrapped root environment with " ++ toString count ++ " primitive(s)"
  | .closureCreated params =>
    "Procedure created: params=" ++ Text.parenthesized (params.map Text.quoted) ++
      " def_env_id=#"
  | .frameEntered params =>
    "Call frame env_id=# extends def_env_id=# with " ++
      Text.bracketed (params.map Text.quoted)
  | .hostApplied _ arguments =>
    "Applying host callable to " ++ toString arguments.length ++ " argument(s)"
  | .ruleFired rule => "Rule " ++ rule ++ " fired"
  | .rulePassed rule => "Rule " ++ rule ++ " did not fire"
  | .conflictWarned rules => conflictWarning rules
  | .conflictReported rules => Fault.conflictText rules

def line (event : Event) : String :=
  Text.hideFrameNumbers (event.level.name ++ " " ++ event.source ++ ": " ++ event.text)

end Event

/-- What a journal lets through, and what it has received since it was opened. -/
structure Journal where
  level : Int := 0
  /-- The lines received; there are none before the journal is opened. -/
  lines : Option (List String) := none
deriving Inhabited

namespace Journal

/-- The level that counts: at level zero it is that of warnings. -/
def threshold (journal : Journal) : Int :=
  if journal.level = 0 then LogLevel.warning.rank else journal.level

def receive (journal : Journal) (events : List Event) : Journal :=
  let seen := events.filter fun event => journal.threshold ≤ event.level.rank
  { journal with lines := journal.lines.map (· ++ seen.map Event.line) }

/-- The names that a level can be set by, beside those of the levels themselves. -/
def levelAliases : List (String × LogLevel) :=
  [("FATAL", .critical), ("WARN", .warning)]

def rankOfName? (name : String) : Option Int :=
  match LogLevel.ofName? name with
  | some level => some level.rank
  | none =>
    (levelAliases.lookup (String.ofList (name.toList.map LogLevel.capital))).map LogLevel.rank

/-- Opens a journal anew: earlier lines are given up. -/
def reopen (journal : Journal) : Journal :=
  { journal with lines := some [] }

end Journal

end Rulebook
