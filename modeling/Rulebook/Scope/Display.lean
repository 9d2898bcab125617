import Rulebook.Scope.Store
import Rulebook.Term.Display
import Rulebook.Text.Sorted

/-!
# Environments as text

An environment shows the names that it binds itself, sorted, and its depth.
-/

namespace Rulebook
namespace Store

/-- An environment as messages show it. -/
def displayScope (store : Store) (frame : FrameId) : String :=
  let names := Text.sorted (store.bindings frame).names
  "<Environment names=" ++ Text.bracketed (names.map Text.quoted) ++ " depth=" ++
    toString (store.depth frame) ++ ">"

/-- A term as messages show it, if they can. -/
def display? (store : Store) (term : Term) : Option String :=
  if term.isShown then some (term.displayWith store.displayScope) else none

end Store
end Rulebook
