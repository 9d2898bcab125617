import Rulebook.Term.Arithmetic
import Rulebook.Term.Order
import Rulebook.Term.Property

/-!
# Core primitives

The operations that every rule program has.  Operands are values already, so the logical ones do
not stop early.  Comparisons take any number of operands and compare neighbours, up to the first
pair that fails.
-/

namespace Rulebook
namespace CorePrimitive

/-- All core primitives, in the order in which they are registered. -/
def all : List CorePrimitive :=
  [.and, .or, .not, .equal, .notEqual, .less, .greater, .atMost, .atLeast, .plus, .minus, .times,
   .divide, .same, .add, .subtract, .multiply, .hasProperty, .getProperty, .list]

def name : CorePrimitive → String
  | .and => "and"
  | .or => "or"
  | .not => "not"
  | .equal => "="
  | .notEqual => "!="
  | .less => "<"
  | .greater => ">"
  | .atMost => "<="
  | .atLeast => ">="
  | .plus => "+"
  | .minus => "-"
  | .times => "*"
  | .divide => "/"
  | .same => "equal?"
  | .add => "add"
  | .subtract => "subtract"
  | .multiply => "multiply"
  | .hasProperty => "has-property"
  | .getProperty => "get-property"
  | .list => "list"

/-- Whether a relation holds between all neighbours; the first pair that fails decides. -/
def neighbours (related : Term → Term → Except Fault Bool) : List Term → Except Fault Bool
  | a :: b :: rest => do
    if ← related a b then neighbours related (b :: rest) else .ok false
  | _ => .ok true

def compare (comparison : Comparison) (a b : Term) : Except Fault Bool :=
  match a.compare? comparison b with
  | some holds => .ok holds
  | none => .error .unfit

def chained (related : Term → Term → Except Fault Bool) (operands : List Term) :
    Except Fault Term :=
  (neighbours related operands).map Term.bool

/-- Combines operands from the left, beginning with the first. -/
def folded (operation : Term → Term → Except Fault Term) (alone : Term → Except Fault Term) :
    List Term → Except Fault Term
  | [] => .error .unfit
  | [first] => alone first
  | first :: rest => rest.foldlM operation first

def binary (operation : Term → Term → Except Fault Term) : List Term → Except Fault Term
  | [a, b] => operation a b
  | _ => .error .unfit

/-- The value of a core primitive at operands. -/
def apply : CorePrimitive → List Term → Except Fault Term
  | .and, operands => .ok (.bool (operands.all Term.isTruthy))
  | .or, operands => .ok (.bool (operands.any Term.isTruthy))
  | .not, [operand] => .ok (.bool !operand.isTruthy)
  | .not, _ => .error .unfit
  | .equal, operands => chained (fun a b => .ok (a.equal b)) operands
  | .notEqual, operands => binary (fun a b => .ok (.bool !a.equal b)) operands
  | .less, operands => chained (compare .less) operands
  | .greater, operands => chained (compare .greater) operands
  | .atMost, operands => chained (compare .atMost) operands
  | .atLeast, operands => chained (compare .atLeast) operands
  | .plus, [] => .ok (.int 0)
  | .plus, first :: rest => rest.foldlM Term.add first
  | .minus, operands => folded Term.subtract Term.negate operands
  | .times, operands => operands.foldlM Term.multiply (.int 1)
  | .divide, operands => folded Term.divide (Term.divide (.int 1)) operands
  | .same, operands => binary (fun a b => .ok (.bool (a.equal b))) operands
  | .add, operands => binary Term.add operands
  | .subtract, operands => binary Term.subtract operands
  | .multiply, operands => binary Term.multiply operands
  | .hasProperty, [term, key] => (term.property? key).map fun value => .bool value.isSome
  | .hasProperty, _ => .error .unfit
  | .getProperty, [term, key] => (term.property? key).map (·.getD .null)
  | .getProperty, [term, key, default] => (term.property? key).map (·.getD default)
  | .getProperty, _ => .error .unfit
  | .list, operands => .ok (.list operands)

end CorePrimitive
end Rulebook
