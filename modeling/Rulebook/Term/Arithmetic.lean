import Rulebook.Term.Numeric

/-!
# Arithmetic on terms

Addition also joins two texts, two lists or two tuples, and multiplication by a whole number, on
either side, repeats them.
-/

namespace Rulebook

/-- The whole number that a term stands for, truth values included. -/
def Term.whole? (term : Term) : Option Int :=
  match Number.ofTerm? term with
  | some (.whole n) => some n
  | _ => none

def Term.onNumbers (operation : Number → Number → Except Fault Number) (a b : Term) :
    Except Fault Term :=
  match Number.ofTerm? a, Number.ofTerm? b with
  | some m, some n => (operation m n).map Number.toTerm
  | _, _ => .error .unfit

/-- The number of lengths that there are; they are those that a signed word holds. -/
def lengths : Int :=
  9223372036854775808

/-- The length from which on nothing fits in memory. -/
def memory : Int :=
  4294967296

/-- A list repeated.  A count that no signed word holds is too large, whatever its sign; a length that
none holds is met by a fault of its own kind. -/
def repeated (items : List α) (count : Int) (overlong : Fault) : Except Fault (List α) :=
  let length := items.length * count
  if count < -lengths || lengths ≤ count then .error .tooLarge
  else if lengths ≤ length then .error overlong
  else if memory ≤ length then .error .outOfMemory
  -- An empty list stays empty, and no large count has to be gone through for it.
  else if items.isEmpty then .ok []
  else .ok (List.replicate count.toNat items).flatten

namespace Term

def add (a b : Term) : Except Fault Term :=
  match a.worded, b.worded with
  | .str s, .str t => .ok (.str (s ++ t))
  | .list xs, .list ys => .ok (.list (xs ++ ys))
  | .tuple xs, .tuple ys => .ok (.tuple (xs ++ ys))
  | x, y => onNumbers (Number.combine (· + ·) (· + ·)) x y

def subtract (a b : Term) : Except Fault Term :=
  onNumbers (Number.combine (· - ·) (· - ·)) a b

/-- A text, a list or a tuple repeated.  Texts have a limit of their own; lists of that length do not
fit in memory. -/
def repeat? (term : Term) (count : Int) : Except Fault Term :=
  match term.worded with
  | .str s => (repeated s.toList count .tooLarge).map fun cs => .str (String.ofList cs)
  | .list items => (repeated items count .outOfMemory).map Term.list
  | .tuple items => (repeated items count .outOfMemory).map Term.tuple
  | _ => .error .unfit

def multiply (a b : Term) : Except Fault Term :=
  match Number.ofTerm? a, Number.ofTerm? b with
  | some _, some _ => onNumbers (Number.combine (· * ·) (· * ·)) a b
  | _, _ => match a.whole?, b.whole? with
    | _, some n => a.repeat? n
    | some n, _ => b.repeat? n
    | _, _ => .error .unfit

def divide (a b : Term) : Except Fault Term :=
  onNumbers Number.divide a b

def negate (term : Term) : Except Fault Term :=
  match Number.ofTerm? term with
  | some n => .ok n.negate.toTerm
  | none => .error .unfit

end Term

end Rulebook
