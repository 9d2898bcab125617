import Rulebook.Term.Numeric

/-!
# Equality of terms

Numbers are equal when their exact values are, whatever their kind, and a NaN equals nothing.
Lists and nodes are equal part by part, mappings and records up to order.  The kind of a node equals
its word.  A closure, an environment or an evaluator equals only itself.
-/

namespace Rulebook

/-- The exact value of a scalar that is a number. -/
def Scalar.magnitude? (s : Scalar) : Option Double.Magnitude :=
  (Number.ofScalar? s).bind Number.magnitude?

/-- Equality of scalars, by exact value for numbers. -/
def Scalar.equal : Scalar → Scalar → Bool
  | .null, .null => true
  | .str a, .str b => a == b
  | .moment a, .moment b => a == b
  | a, b => match a.magnitude?, b.magnitude? with
    | some x, some y => x == y
    | _, _ => false

namespace Entries

def find? (key : Scalar) (entries : List (Scalar × Term)) : Option Term :=
  (entries.find? fun entry => entry.1.equal key).map Prod.snd

def contains (key : Scalar) (entries : List (Scalar × Term)) : Bool :=
  entries.any fun entry => entry.1.equal key

/-- Sets the value under a key; a new key goes to the end. -/
def insert (key : Scalar) (value : Term) : List (Scalar × Term) → List (Scalar × Term)
  | [] => [(key, value)]
  | (k, v) :: rest => if k.equal key then (k, value) :: rest else (k, v) :: insert key value rest

/-- The entries of a list of pairs: a key keeps its first place and its last value. -/
def ofList (pairs : List (Scalar × Term)) : List (Scalar × Term) :=
  pairs.foldl (fun entries pair => insert pair.1 pair.2 entries) []

end Entries

mutual

def Term.equal : Term → Term → Bool
  | .scalar a, .scalar b => a.equal b
  | .list xs, .list ys => Term.equalAll xs ys
  | .tuple xs, .tuple ys => Term.equalAll xs ys
  | .mapping es, .mapping fs => es.length == fs.length && Term.equalEntries es fs
  | .record s es, .record t fs => s == t && es.length == fs.length && Term.equalEntries es fs
  | .primitive p, .primitive q => p == q
  | .kind k, .kind l => k == l
  | .kind k, .scalar (.str s) => k.word == s
  | .scalar (.str s), .kind k => s == k.word
  | .scope f, .scope g => f == g
  | .evaluator e, .evaluator f => e == f
  | .closure i .., .closure j .. => i == j
  | .variable a, .variable b => a == b
  | .application f xs, .application g ys => f.equal g && Term.equalAll xs ys
  | .lambda ps b, .lambda qs c => ps == qs && b.equal c
  | .conditional p c a, .conditional q d b => p.equal q && c.equal d && a.equal b
  | .assignment a v, .assignment b w => a == b && v.equal w
  | .definition a v, .definition b w => a == b && v.equal w
  | .sequence xs, .sequence ys => Term.equalAll xs ys
  | .quoted v, .quoted w => v.equal w
  | .mystery, .mystery => true
  | _, _ => false
termination_by structural t => t

def Term.equalAll : List Term → List Term → Bool
  | [], [] => true
  | x :: xs, y :: ys => x.equal y && Term.equalAll xs ys
  | _, _ => false
termination_by structural ts => ts

/-- Whether every entry on the left has an equal one under its key on the right. -/
def Term.equalEntries : List (Scalar × Term) → List (Scalar × Term) → Bool
  | [], _ => true
  | (k, v) :: rest, others =>
    (match Entries.find? k others with
      | some w => v.equal w
      | none => false) && Term.equalEntries rest others
termination_by structural es => es

end

end Rulebook
