import Rulebook.Term.Equality

/-!
# Keys and properties

Which terms can be looked up in a mapping, and what the properties of a term are: the entries of
a mapping, the fields of a record, the parts of a node or closure.
-/

namespace Rulebook

mutual

/-- Whether a term can be a key.  Lists and mappings cannot, nor can anything built from them. -/
def Term.isKey : Term → Bool
  | .list _ | .mapping _ => false
  | .tuple xs => Term.areKeys xs
  | .record t es => t.frozen && Term.areKeyEntries es
  | .application f xs => f.isKey && Term.areKeys xs
  | .lambda _ body => body.isKey
  | .conditional p c a => p.isKey && c.isKey && a.isKey
  | .assignment _ v => v.isKey
  | .definition _ v => v.isKey
  | .sequence xs => Term.areKeys xs
  | .quoted v => v.isKey
  | _ => true
termination_by structural t => t

def Term.areKeys : List Term → Bool
  | [] => true
  | x :: xs => x.isKey && Term.areKeys xs
termination_by structural ts => ts

def Term.areKeyEntries : List (Scalar × Term) → Bool
  | [] => true
  | (_, v) :: rest => v.isKey && Term.areKeyEntries rest
termination_by structural es => es

end

namespace Term

def entry? (entries : List (Scalar × Term)) (key : Term) : Except Fault (Option Term) :=
  if key.isKey then
    .ok (match key.worded with
      | .scalar s => Entries.find? s entries
      | _ => none)
  else .error .unfit

def parts : Term → List (String × Term)
  | .variable name => [("name", .str name)]
  | .application operator operands => [("operator", operator), ("operands", .tuple operands)]
  | .lambda params body => [("params", .tuple (params.map Term.str)), ("body", body)]
  | .conditional p c a => [("predicate", p), ("consequent", c), ("alternative", a)]
  | .assignment name value => [("target_name", .str name), ("value", value)]
  | .definition name value => [("target_name", .str name), ("value", value)]
  | .sequence items => [("expressions", .tuple items)]
  | .quoted value => [("value", value)]
  | _ => []

/-- What can be asked of a closure, by name. -/
def closureAttributes (id : Nat) (params : List String) (body : Term) (home : FrameId)
    (owner : Option EvaluatorId) : List (String × Term) :=
  [("params", .tuple (params.map Term.str)), ("body", body), ("env", .scope home),
   ("evaluator", (owner.map Term.evaluator).getD .null), ("arity", .int params.length),
   ("bind_arguments", .primitive (.method (.bind id params home)))]

def fieldsOf (attributes : List (String × Term)) : List (Scalar × Term) :=
  attributes.map fun (name, value) => (.str name, value)

/-- What can be asked of a term that is not a mapping, by name.  What environments and evaluators can be
asked depends on their state. -/
def attributes : Term → List (Scalar × Term)
  | .record _ fields => fields
  | .closure id params body home owner => fieldsOf (closureAttributes id params body home owner)
  | .kind k => fieldsOf [("name", .str k.name), ("value", .str k.word)]
  | term => fieldsOf (term.parts ++ (term.kind?.map fun k => ("kind", .kind k)).toList)

/-- The property of a term under a key, if it has one; `null` has none. -/
def property? (term key : Term) : Except Fault (Option Term) :=
  match term with
  | .null => .ok none
  | .mapping entries => entry? entries key
  | other => match key.text? with
    | some name => .ok (Entries.find? (.str name) other.attributes)
    | none => .error .unfit

end Term

end Rulebook
