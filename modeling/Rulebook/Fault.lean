import Rulebook.Term.Display
import Rulebook.Text.FrameNumber

/-!
# Faults

Why an evaluation stops without a value.  The first group are faults of the rule language, which
have a name and a message; the second are refusals by the operation that was called.
-/

namespace Rulebook

/-- Why an evaluation stops without a value. -/
inductive Fault where
  /-- A name is looked up or assigned that no frame in reach binds. -/
  | unbound (name : String)
  | unknownKind (node : Term)
  /-- Names and values differ in number; `callee` are the parameters of the closure, if one was
  called. -/
  | arity (expected received : Nat) (callee : Option (List String))
  /-- An operator can not be called; `shown` is how it is shown, if messages can show it. -/
  | notApplicable (shown : Option String)
  | tooDeep (limit : Int)
  | conflict (rules : List String)
  /-- Operands, or their number, do not fit the operation. -/
  | unfit
  | divisionByZero
  /-- A whole number is too large for a double, or a count is too large. -/
  | tooLarge
  | outOfMemory
  | noKey
  | noAttribute
  | unknownRule (rule : String)
deriving Inhabited

namespace Fault

/-- The name of a fault of the rule language. -/
def name? : Fault → Option String
  | .unbound _ => some "UnboundVariableError"
  | .unknownKind _ => some "UnknownExpressionKindError"
  | .arity .. => some "ArityMismatchError"
  | .notApplicable _ => some "NotApplicableError"
  | .tooDeep _ => some "EvaluationDepthError"
  | .conflict _ => some "RuleConflictError"
  | _ => none

def ruleList (rules : List String) : String :=
  Text.bracketed (rules.map Text.quoted)

def conflictText (rules : List String) : String :=
  "Conflicting rules matched: " ++ ruleList rules ++
    ". Use conflict_resolution='first_wins' or 'warn' to resolve."

def text? : Fault → Option String
  | .unbound name => some ("Unbound variable: " ++ name)
  | .unknownKind node => some ("Unknown expression kind: " ++ node.typeName)
  | .arity expected received callee =>
    some ("Arity mismatch" ++ (match callee with
        | some params => " for " ++ Text.closure params
        | none => "") ++
      ": expected " ++ toString expected ++ " argument(s), got " ++ toString received)
  | .notApplicable shown => shown.map ("Cannot apply non-procedure value: " ++ ·)
  | .tooDeep limit =>
    some ("Maximum evaluation depth of " ++ toString limit ++ " exceeded")
  | .conflict rules => some (conflictText rules)
  | _ => none

/-- The message of a fault; most refusals have none. -/
def message? : Fault → Option String
  | .unknownRule rule => some ("Unknown rule: " ++ rule)
  | fault => fault.text?.map Text.hideFrameNumbers

end Fault

end Rulebook
