import Rulebook.Form.Tag
import Rulebook.Term.Basic

/-!
# Writing expressions as data

The reverse of reading.  A literal that would be read as an expression is written under `quote`.
-/

namespace Rulebook
namespace Form

/-- The mapping with a tag as its only key. -/
def tagged (tag : Tag) (payload : Term) : Term :=
  .mapping [(.str tag.key, payload)]

def isTagged : List (Scalar × Term) → Bool
  | [(.str key, _)] => (Tag.ofKey? key).isSome
  | _ => false

/-- The data of an operator.  A variable is written by its name alone, and so a literal text has
to be quoted. -/
def operatorData (operator data : Term) : Term :=
  match operator with
  | .variable name => .str name
  | .str text => tagged .quote (.str text)
  | .kind k => tagged .quote (.kind k)
  | _ => data

/-- The items of a conditional; a `null` alternative is left out. -/
def conditionalItems (predicate consequent alternative : Term) : List Term :=
  match alternative with
  | .null => [predicate, consequent]
  | _ => [predicate, consequent, alternative]

mutual

/-- An expression as data. -/
def write : Term → Term
  | .variable name => tagged .var (.str name)
  | .quoted value => tagged .quote value
  | .application operator operands =>
    tagged .apply (.list [operatorData operator (write operator), .list (writeAll operands)])
  | .lambda params body => tagged .lambda (.list [.list (params.map Term.str), write body])
  | .conditional p c a => tagged .cond (.list (conditionalItems (write p) (write c) (write a)))
  | .assignment name value => tagged .set (.list [.str name, write value])
  | .definition name value => tagged .define (.list [.str name, write value])
  | .sequence items => tagged .begin (.list (writeAll items))
  | .list items => .list (writeAll items)
  | .mapping entries =>
    if isTagged entries then tagged .quote (.mapping entries) else .mapping entries
  | other => other
termination_by structural t => t

def writeAll : List Term → List Term
  | [] => []
  | item :: rest => write item :: writeAll rest
termination_by structural ts => ts

end

end Form
end Rulebook
