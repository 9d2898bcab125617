import Rulebook.Term.Callable
import Rulebook.Term.Moment

/-!
# Terms

Programs and the values that they compute are one type.  A term is either a *node*, which has to
be evaluated, or data, which evaluates to itself; data may hold nodes (a quoted program) and nodes
may hold data (a literal).  Closures refer to their frame, and primitives to their meaning, by
name, so that every term is finite first-order data.
-/

namespace Rulebook

/-- Data without parts. -/
inductive Scalar where
  | null
  | bool (b : Bool)
  | int (n : Int)
  | float (x : Float)
  | str (s : String)
  | moment (moment : Moment)
deriving DecidableEq, Inhabited

/-- The kinds of nodes that have a meaning. -/
inductive NodeKind where
  | variable
  | application
  | lambda
  | conditional
  | assignment
  | definition
  | sequence
  | quoted
deriving DecidableEq, Inhabited

namespace NodeKind

def word : NodeKind → String
  | .variable => "variable"
  | .application => "application"
  | .lambda => "lambda"
  | .conditional => "if"
  | .assignment => "assignment"
  | .definition => "definition"
  | .sequence => "sequence"
  | .quoted => "quoted"

/-- The name of a kind, which is its word in capitals. -/
def name (kind : NodeKind) : String :=
  String.ofList (kind.word.toList.map Char.toUpper)

end NodeKind

/-- A type of records. -/
structure RecordType where
  name : String
  /-- The name that a shown record starts with. -/
  label : String
  /-- Records of a frozen type can be used as keys, if their fields can. -/
  frozen : Bool
deriving DecidableEq, Inhabited

/-- An object with attributes and nothing else. -/
def RecordType.plain : RecordType where
  name := "SimpleNamespace"
  label := "namespace"
  frozen := false

/-- Programs and values. -/
inductive Term where
  | scalar (value : Scalar)
  | list (items : List Term)
  /-- A list that is part of a node; it differs from every other list. -/
  | tuple (items : List Term)
  | mapping (entries : List (Scalar × Term))
  | record (type : RecordType) (fields : List (Scalar × Term))
  | primitive (callable : Primitive)
  /-- The kind of a node; it counts as its word, but is shown differently. -/
  | kind (kind : NodeKind)
  | scope (frame : FrameId)
  | evaluator (id : EvaluatorId)
  /-- A lambda together with the frame it was evaluated in, and with the evaluator that did so. -/
  | closure (id : Nat) (params : List String) (body : Term) (home : FrameId)
      (owner : Option EvaluatorId)
  | variable (name : String)
  | application (operator : Term) (operands : List Term)
  | lambda (params : List String) (body : Term)
  /-- A missing alternative is `null`, which evaluates to itself. -/
  | conditional (predicate consequent alternative : Term)
  /-- Rebinds a name where it is bound. -/
  | assignment (target : String) (value : Term)
  /-- Binds a name in the current frame. -/
  | definition (target : String) (value : Term)
  | sequence (items : List Term)
  /-- Stands for its content, which is not evaluated. -/
  | quoted (value : Term)
  /-- A node of a kind that has no meaning. -/
  | mystery
deriving Inhabited

namespace Term

@[match_pattern] abbrev null : Term := .scalar .null

@[match_pattern] abbrev bool (b : Bool) : Term := .scalar (.bool b)

@[match_pattern] abbrev int (n : Int) : Term := .scalar (.int n)

@[match_pattern] abbrev float (x : Float) : Term := .scalar (.float x)

@[match_pattern] abbrev str (s : String) : Term := .scalar (.str s)

def isNode : Term → Bool
  | .variable _ | .application .. | .lambda .. | .conditional .. | .assignment ..
  | .definition .. | .sequence _ | .quoted _ | .mystery => true
  | _ => false

def kind? : Term → Option NodeKind
  | .variable _ => some .variable
  | .application .. => some .application
  | .lambda .. => some .lambda
  | .conditional .. => some .conditional
  | .assignment .. => some .assignment
  | .definition .. => some .definition
  | .sequence _ => some .sequence
  | .quoted _ => some .quoted
  | _ => none

/-- Only `false` and `null` are false; zero and everything empty are true. -/
def isTruthy : Term → Bool
  | .null | .bool false => false
  | _ => true

/-- The word that a kind counts as; any other term is itself. -/
def worded : Term → Term
  | .kind k => .str k.word
  | term => term

/-- The text that a term is or counts as. -/
def text? : Term → Option String
  | .str text => some text
  | .kind k => some k.word
  | _ => none

/-- What can be gone through item by item: the items of a list, the characters of a text, the keys of a
mapping. -/
def items? : Term → Option (List Term)
  | .list items => some items
  | .tuple items => some items
  | .mapping entries => some (entries.map fun entry => .scalar entry.1)
  | term => term.text?.map fun text => text.toList.map fun c => .str (String.singleton c)

def isCallable : Term → Bool
  | .primitive _ | .closure .. => true
  | _ => false

/-- The name that a target stands for: a text, or a variable. -/
def targetName? : Term → Option String
  | .str name => some name
  | .variable name => some name
  | _ => none

def call (operator : String) (operands : List Term) : Term :=
  .application (.variable operator) operands

end Term

end Rulebook
