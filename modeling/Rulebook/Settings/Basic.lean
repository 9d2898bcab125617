import Rulebook.Document.Value

/-!
# Settings of an engine

How an engine chooses among rules, what it does about conflicts, how much it logs, and how deep
its evaluator may go.  Settings remember which of their fields were given explicitly.
-/

namespace Rulebook

/-- How many rules may fire. -/
inductive MatchStrategy where
  | firstMatch
  | priority
  | allMatch
deriving DecidableEq, Inhabited

def MatchStrategy.name : MatchStrategy → String
  | .firstMatch => "first_match"
  | .priority => "priority"
  | .allMatch => "all_match"

def MatchStrategy.all : List MatchStrategy :=
  [.firstMatch, .priority, .allMatch]

/-- What to do when rules fire with different results. -/
inductive ConflictResolution where
  | firstWins
  | warn
  | error
deriving DecidableEq, Inhabited

def ConflictResolution.name : ConflictResolution → String
  | .firstWins => "first_wins"
  | .warn => "warn"
  | .error => "error"

def ConflictResolution.all : List ConflictResolution :=
  [.firstWins, .warn, .error]

/-- How important an event has to be to be logged. -/
inductive LogLevel where
  | critical
  | error
  | warning
  | info
  | debug
  | notset
deriving DecidableEq, Inhabited

def LogLevel.name : LogLevel → String
  | .critical => "CRITICAL"
  | .error => "ERROR"
  | .warning => "WARNING"
  | .info => "INFO"
  | .debug => "DEBUG"
  | .notset => "NOTSET"

def LogLevel.all : List LogLevel :=
  [.critical, .error, .warning, .info, .debug, .notset]

def LogLevel.rank : LogLevel → Int
  | .critical => 50
  | .error => 40
  | .warning => 30
  | .info => 20
  | .debug => 10
  | .notset => 0

/-- A letter in upper case, as far as the names of levels go: two letters above ASCII have a
capital in ASCII. -/
def LogLevel.capital (c : Char) : Char :=
  if c = 'ı' then 'I' else if c = 'ſ' then 'S' else c.toUpper

/-- The level with a name, in any case. -/
def LogLevel.ofName? (name : String) : Option LogLevel :=
  let capitals := String.ofList (name.toList.map LogLevel.capital)
  LogLevel.all.find? fun level => level.name = capitals

inductive SettingField where
  | matchStrategy
  | conflictResolution
  | logLevel
  | maxDepth
deriving DecidableEq, Inhabited

def SettingField.key : SettingField → String
  | .matchStrategy => "match_strategy"
  | .conflictResolution => "conflict_resolution"
  | .logLevel => "log_level"
  | .maxDepth => "max_depth"

def SettingField.all : List SettingField :=
  [.matchStrategy, .conflictResolution, .logLevel, .maxDepth]

/-- The settings of an engine. -/
structure Settings where
  matchStrategy : MatchStrategy := .firstMatch
  conflictResolution : ConflictResolution := .firstWins
  logLevel : LogLevel := .warning
  /-- The nesting limit of the evaluator. -/
  maxDepth : Option Int := none
  /-- The fields that were given explicitly. -/
  given : List SettingField := []
deriving DecidableEq, Inhabited

namespace Settings

def checkLevel (term : Term) : Check LogLevel :=
  match Check.text term with
  | .ok name => match LogLevel.ofName? name with
    | some level => .ok level
    | none => Check.issue (.rejected ("Unknown log level: " ++ name))
  | .error issues => .error issues

def field (entries : List (Scalar × Term)) (which : SettingField) (default : α)
    (check : Term → Check α) : Check α :=
  (Field.named which.key).optional entries default check

/-- Checks the entries of settings.  Keys that are no fields are ignored. -/
def ofEntries (entries : List (Scalar × Term)) : Check Settings :=
  let strategy := field entries .matchStrategy .firstMatch
    (Check.choice MatchStrategy.all MatchStrategy.name)
  let resolution := field entries .conflictResolution .firstWins
    (Check.choice ConflictResolution.all ConflictResolution.name)
  let level := field entries .logLevel .warning checkLevel
  let depth := field entries .maxDepth none Check.positiveOrNull
  (strategy.both (resolution.both (level.both depth))).map
    fun (strategy, resolution, level, depth) =>
      { matchStrategy := strategy
        conflictResolution := resolution
        logLevel := level
        maxDepth := depth
        given := SettingField.all.filter fun f => (Field.named f.key).isGiven entries }

def ofTerm (term : Term) : Check Settings :=
  match Check.entries term with
  | .ok entries => ofEntries entries
  | .error issues => .error issues

def toTerm (settings : Settings) : Term :=
  .mapping
    [(.str SettingField.matchStrategy.key, .str settings.matchStrategy.name),
     (.str SettingField.conflictResolution.key, .str settings.conflictResolution.name),
     (.str SettingField.logLevel.key, .str settings.logLevel.name),
     (.str SettingField.maxDepth.key, (settings.maxDepth.map Term.int).getD .null)]

end Settings

end Rulebook
