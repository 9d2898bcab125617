import Rulebook.Condition.Reader
import Rulebook.Form.Tag

/-!
# Reading expressions from data

A mapping whose single key is a tag is read as the node that the tag names; every other mapping is
a literal.  A list is a literal too, unless it holds a node: then it is a call of `list`, so that
its items are evaluated.  A node inside data is taken as it is.
-/

namespace Rulebook
namespace Form

/-- A list of terms as an expression: a call of `list` as soon as one of them is a node. -/
def ofItems (items : List Term) : Term :=
  if items.any Term.isNode then .call "list" items else .list items

/-- A lambda, whose parameters have to differ. -/
def lambda? (params : List String) (body : Term) : Except Malformed Term :=
  if params.Nodup then .ok (.lambda params body) else .error (.duplicateParameter params)

/-- A sequence, which needs an item. -/
def sequence? (items : List Term) : Except Malformed Term :=
  if items.isEmpty then .error .emptySequence else .ok (.sequence items)

def names? (items : List Term) : Option (List String) :=
  items.mapM Term.text?

/-- An operator.  A text names a variable, and a quoted text is a literal; anything else is read
as an expression. -/
def ofOperator (operator : Term) (expression : Except Malformed Term) : Except Malformed Term :=
  match operator.text? with
  | some name => .ok (.variable name)
  | none => match operator with
    | .mapping [(.str key, payload)] =>
      if Tag.ofKey? key = some .quote && payload.text?.isSome then .ok payload else expression
    | _ => expression

mutual

def read : Term → Except Malformed Term
  | .list items => do
    let items ← readAll items
    .ok (ofItems items)
  | .mapping [(.str key, payload)] =>
    match Tag.ofKey? key with
    | none => .ok (.mapping [(.str key, payload)])
    | some .var => match payload.text? with
      | some name => .ok (.variable name)
      | none => .error (.nameExpected payload)
    | some .quote => .ok (.quoted payload)
    | some .when => Condition.ofTerm payload
    | some .apply => match payload with
      | .list [operator, operands] => match operands with
        | .list operands => do
          let operator ← ofOperator operator (read operator)
          let operands ← readAll operands
          .ok (.application operator operands)
        | other => .error (.operandsExpected other)
      | other => .error (.itemsExpected key [2] other)
    | some .lambda => match payload with
      | .list [params, body] => match params with
        | .list params => match names? params with
          | some names => do
            let body ← read body
            lambda? names body
          | none => .error (.parametersExpected (.list params))
        | other => .error (.parametersExpected other)
      | other => .error (.itemsExpected key [2] other)
    | some .cond => match payload with
      | .list [p, c] => do
        let p ← read p
        let c ← read c
        .ok (.conditional p c .null)
      | .list [p, c, a] => do
        let p ← read p
        let c ← read c
        let a ← read a
        .ok (.conditional p c a)
      | other => .error (.itemsExpected key [2, 3] other)
    | some .set => match payload with
      | .list [target, value] => match target.text? with
        | some name => do
          let value ← read value
          .ok (.assignment name value)
        | none => .error (.targetExpected key target)
      | other => .error (.itemsExpected key [2] other)
    | some .define => match payload with
      | .list [target, value] => match target.text? with
        | some name => do
          let value ← read value
          .ok (.definition name value)
        | none => .error (.targetExpected key target)
      | other => .error (.itemsExpected key [2] other)
    | some .begin => match payload with
      | .list items => do
        let items ← readAll items
        sequence? items
      | other => .error (.sequenceExpected other)
  | other => .ok other
termination_by structural t => t

/-- Reads each item, the first that fails deciding. -/
def readAll : List Term → Except Malformed (List Term)
  | [] => .ok []
  | item :: rest => do
    let item ← read item
    let rest ← readAll rest
    .ok (item :: rest)
termination_by structural ts => ts

end

end Form
end Rulebook
