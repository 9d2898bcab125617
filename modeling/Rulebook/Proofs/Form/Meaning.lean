import Rulebook.Primitive.Registry
import Rulebook.Proofs.Evaluation.Recoded

/-!
# What written expressions mean

An expression that is written and read again means the same, although its literals may have become
calls of `list` and quoted mappings: where `list` is the core operation, both evaluations end with
the same fault or with alike values and leave the same frames, up to the bodies of new closures,
which are recoded as the expression is.  There is one way to notice it, which is to ask such a
closure for its body.
-/

namespace Rulebook

/-- The recoding of an expression that is evaluated in a store. -/
noncomputable def Store.recoding (store : Store) (expression : Term) : Recoding where
  limit := store.closures
  room := sizeOf expression

/-- Asks the body of a new closure for a property. -/
def askingProgram (body : Term) : Term :=
  .call "has-property" [.call "get-property" [.lambda [] body, .str "body"], .str "var"]

def plainMachine : Machine where
  host := callbackLibrary
  limit _ := none

def coreStore : Store :=
  (Registry.core.bootstrap [] {}).2

/-- Defines a procedure whose body is a list with a mapping that has a tag, keeps what it gives, and
then applies a text, which cannot be applied. -/
def pairProgram (pair operator : Term) : Term :=
  .sequence [.definition "pair" (.lambda ["y"] pair),
    .definition "made" (.application (.variable "pair") [.null]), .application operator []]

end Rulebook
