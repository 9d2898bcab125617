import Rulebook.Double.Display
import Rulebook.Term.Basic
import Rulebook.Text.Quoted

/-!
# Terms as text

How messages show a term: scalars by their words, texts quoted, lists in square brackets,
mappings in braces, and nodes by their kind with named parts.  The frame of a closure has no name
that a reader could use and is written `#`.  What would be shown by its place in memory has no shown
form at all.
-/

namespace Rulebook

def Scalar.display : Scalar → String
  | .null => "None"
  | .bool true => "True"
  | .bool false => "False"
  | .int n => toString n
  | .float x => Double.display x
  | .str s => Text.quoted s
  | .moment m => m.display

/-- Items between parentheses; a single one is followed by a comma. -/
def Text.parenthesized (items : List String) : String :=
  match items with
  | [item] => "(" ++ item ++ ",)"
  | _ => "(" ++ ", ".intercalate items ++ ")"

def Text.bracketed (items : List String) : String :=
  "[" ++ ", ".intercalate items ++ "]"

def Text.braced (items : List String) : String :=
  "\x7b" ++ ", ".intercalate items ++ "\x7d"

/-- A closure shows its parameters, bare. -/
def Text.closure (params : List String) : String :=
  "<Procedure params=(" ++ ", ".intercalate params ++ ") def_env_id=#>"

/-- A field name without quotes. -/
def Scalar.label : Scalar → String
  | .str s => s
  | s => s.display

/-- A kind shows its name and its word. -/
def NodeKind.display (kind : NodeKind) : String :=
  "<ExpressionKind." ++ kind.name ++ ": " ++ Text.quoted kind.word ++ ">"

def Method.display (scopes : FrameId → String) : Method → String
  | .scope method frame =>
    "<bound method Environment." ++ method.name ++ " of " ++ scopes frame ++ ">"
  | .evaluator method _ => "<bound method ExpressionEvaluator." ++ method.name ++ ">"
  | .bind _ params _ => "<bound method Procedure.bind_arguments of " ++ Text.closure params ++ ">"

/-- A callable that has a name of its own shows that. -/
def Primitive.display (scopes : FrameId → String) : Primitive → String
  | .core operation => "<built-in function " ++ operation.shownName?.getD "" ++ ">"
  | .host name => "<function " ++ name ++ ">"
  | .method m => m.display scopes

mutual

/-- A term as messages show it, environments being shown as texts say. -/
def Term.displayWith (scopes : FrameId → String) : Term → String
  | .scalar s => s.display
  | .list xs => Text.bracketed (Term.displayAll scopes xs)
  | .tuple xs => Text.parenthesized (Term.displayAll scopes xs)
  | .mapping es => Text.braced (Term.displayEntries scopes es)
  | .record t es => t.label ++ "(" ++ ", ".intercalate (Term.displayFields scopes es) ++ ")"
  | .primitive callable => callable.display scopes
  | .kind k => k.display
  | .scope frame => scopes frame
  | .evaluator _ => "<ExpressionEvaluator>"
  | .closure _ params _ _ _ => Text.closure params
  | .variable name => "Variable(name=" ++ Text.quoted name ++ ")"
  | .application f xs =>
    "Application(operator=" ++ f.displayWith scopes ++ ", operands=" ++
      Text.parenthesized (Term.displayAll scopes xs) ++ ")"
  | .lambda params body =>
    "Lambda(params=" ++ Text.parenthesized (params.map Text.quoted) ++ ", body=" ++
      body.displayWith scopes ++ ")"
  | .conditional p c a =>
    "If(predicate=" ++ p.displayWith scopes ++ ", consequent=" ++ c.displayWith scopes ++
      ", alternative=" ++ a.displayWith scopes ++ ")"
  | .assignment name value =>
    "Assignment(target_name=" ++ Text.quoted name ++ ", value=" ++ value.displayWith scopes ++ ")"
  | .definition name value =>
    "Definition(target_name=" ++ Text.quoted name ++ ", value=" ++ value.displayWith scopes ++ ")"
  | .sequence xs =>
    "Sequence(expressions=" ++ Text.parenthesized (Term.displayAll scopes xs) ++ ")"
  | .quoted value => "Quoted(value=" ++ value.displayWith scopes ++ ")"
  | .mystery => "Mystery()"
termination_by structural t => t

def Term.displayAll (scopes : FrameId → String) : List Term → List String
  | [] => []
  | x :: xs => x.displayWith scopes :: Term.displayAll scopes xs
termination_by structural ts => ts

def Term.displayEntries (scopes : FrameId → String) : List (Scalar × Term) → List String
  | [] => []
  | (k, v) :: rest =>
    (k.display ++ ": " ++ v.displayWith scopes) :: Term.displayEntries scopes rest
termination_by structural es => es

def Term.displayFields (scopes : FrameId → String) : List (Scalar × Term) → List String
  | [] => []
  | (k, v) :: rest =>
    (k.label ++ "=" ++ v.displayWith scopes) :: Term.displayFields scopes rest
termination_by structural es => es

end

/-- A term without environments as messages show it. -/
def Term.display (term : Term) : String :=
  term.displayWith fun _ => "<Environment>"

/-- Whether messages can show a callable.  Functions without a name and evaluators would be shown by
their place in memory, which says nothing. -/
def Primitive.isShown : Primitive → Bool
  | .core operation => operation.shownName?.isSome
  | .host _ => false
  | .method (.evaluator ..) => false
  | .method _ => true

mutual

/-- Whether messages can show a term and everything inside it. -/
def Term.isShown : Term → Bool
  | .list xs => Term.areShown xs
  | .tuple xs => Term.areShown xs
  | .mapping es => Term.areShownEntries es
  | .record _ es => Term.areShownEntries es
  | .primitive callable => callable.isShown
  | .evaluator _ => false
  | .application f xs => f.isShown && Term.areShown xs
  | .lambda _ body => body.isShown
  | .conditional p c a => p.isShown && c.isShown && a.isShown
  | .assignment _ value => value.isShown
  | .definition _ value => value.isShown
  | .sequence xs => Term.areShown xs
  | .quoted value => value.isShown
  | _ => true
termination_by structural t => t

def Term.areShown : List Term → Bool
  | [] => true
  | x :: xs => x.isShown && Term.areShown xs
termination_by structural ts => ts

def Term.areShownEntries : List (Scalar × Term) → Bool
  | [] => true
  | (_, v) :: rest => v.isShown && Term.areShownEntries rest
termination_by structural es => es

end

def Term.typeName : Term → String
  | .null => "NoneType"
  | .bool _ => "bool"
  | .int _ => "int"
  | .float _ => "float"
  | .str _ => "str"
  | .scalar (.moment m) => m.typeName
  | .list _ => "list"
  | .tuple _ => "tuple"
  | .mapping _ => "dict"
  | .record t _ => t.name
  | .primitive _ => "function"
  | .kind _ => "ExpressionKind"
  | .scope _ => "Environment"
  | .evaluator _ => "ExpressionEvaluator"
  | .closure .. => "Procedure"
  | .variable _ => "Variable"
  | .application .. => "Application"
  | .lambda .. => "Lambda"
  | .conditional .. => "If"
  | .assignment .. => "Assignment"
  | .definition .. => "Definition"
  | .sequence _ => "Sequence"
  | .quoted _ => "Quoted"
  | .mystery => "Mystery"

end Rulebook
