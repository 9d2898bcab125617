import Rulebook.Term.Equality

/-!
# Order of terms

Numbers are ordered among themselves by exact value, texts by code points, and lists and tuples by
the first pair of unequal items.  Nothing else can be ordered.
-/

namespace Rulebook

/-- The four ways to compare by an order. -/
inductive Comparison where
  | less
  | greater
  | atMost
  | atLeast
deriving DecidableEq

/-- What a comparison means for a strict order. -/
def Comparison.holds (comparison : Comparison) (lt : α → α → Bool) (a b : α) : Bool :=
  match comparison with
  | .less => lt a b
  | .greater => lt b a
  | .atMost => !lt b a
  | .atLeast => !lt a b

/-- Compares two scalars, if they can be compared.  Every comparison with a NaN is false. -/
def Scalar.compare? (comparison : Comparison) : Scalar → Scalar → Option Bool
  | .str a, .str b => some (comparison.holds (fun s t => decide (s < t)) a b)
  | a, b => match Number.ofScalar? a, Number.ofScalar? b with
    | some m, some n => match m.magnitude?, n.magnitude? with
      | some x, some y => some (comparison.holds Double.Magnitude.lt x y)
      | _, _ => some false
    | _, _ => none

mutual

def Term.compare? (comparison : Comparison) : Term → Term → Option Bool
  | .scalar a, .scalar b => a.compare? comparison b
  | .list xs, .list ys => Term.compareAll? comparison xs ys
  | .tuple xs, .tuple ys => Term.compareAll? comparison xs ys
  | .kind k, .kind l => Scalar.compare? comparison (.str k.word) (.str l.word)
  | .kind k, .scalar b => Scalar.compare? comparison (.str k.word) b
  | .scalar a, .kind l => Scalar.compare? comparison a (.str l.word)
  | _, _ => none
termination_by structural t => t

/-- Compares two lists by their first unequal items, or else by their lengths. -/
def Term.compareAll? (comparison : Comparison) : List Term → List Term → Option Bool
  | x :: xs, y :: ys =>
    -- Equal items are passed over even if they cannot be ordered.
    if x.equal y then Term.compareAll? comparison xs ys else x.compare? comparison y
  | [], ys => some (comparison.holds (fun m n : Nat => decide (m < n)) 0 ys.length)
  | xs, [] => some (comparison.holds (fun m n : Nat => decide (m < n)) xs.length 0)
termination_by structural ts => ts

end

end Rulebook
