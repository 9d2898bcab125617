/-!
# Tags of the data form

An expression is written as data by a mapping with a single key, its tag.
-/

namespace Rulebook
namespace Form

/-- The tags of the data form. -/
inductive Tag where
  | var
  | apply
  | lambda
  | cond
  | set
  | define
  | begin
  | quote
  /-- The text of a condition. -/
  | when
deriving DecidableEq

def Tag.key : Tag → String
  | .var => "var"
  | .apply => "apply"
  | .lambda => "lambda"
  | .cond => "if"
  | .set => "set"
  | .define => "define"
  | .begin => "begin"
  | .quote => "quote"
  | .when => "when"

def Tag.all : List Tag :=
  [.var, .apply, .lambda, .cond, .set, .define, .begin, .quote, .when]

def Tag.ofKey? (key : String) : Option Tag :=
  Tag.all.find? fun tag => tag.key = key

@[simp] theorem Tag.ofKey?_key (tag : Tag) : Tag.ofKey? tag.key = some tag := by
  cases tag <;> decide

end Form
end Rulebook
