import Rulebook.Term.Basic

/-!
# Bindings

Names with their values, in the order in which the names were first bound.
-/

namespace Rulebook

abbrev Bindings := List (String × Term)

namespace Bindings

def binds (bindings : Bindings) (name : String) : Bool :=
  bindings.any fun binding => binding.1 = name

def value? (bindings : Bindings) (name : String) : Option Term :=
  bindings.lookup name

/-- Binds a name; a name that is bound already keeps its place. -/
def insert (name : String) (value : Term) : Bindings → Bindings
  | [] => [(name, value)]
  | (n, v) :: rest => if n = name then (n, value) :: rest else (n, v) :: insert name value rest

def insertAll (bindings pairs : Bindings) : Bindings :=
  pairs.foldl (fun bindings pair => insert pair.1 pair.2 bindings) bindings

def names (bindings : Bindings) : List String :=
  bindings.map Prod.fst

@[simp] theorem value?_insert_self (name : String) (value : Term) (bindings : Bindings) :
    (insert name value bindings).value? name = some value := by
  induction bindings with
  | nil => simp [insert, value?]
  | cons binding rest ih =>
    obtain ⟨n, v⟩ := binding
    by_cases h : n = name
    · simp [insert, value?, h]
    · have hne : (name == n) = false := beq_eq_false_iff_ne.2 (Ne.symm h)
      simpa [insert, value?, h, List.lookup_cons, hne] using ih

theorem value?_insert_of_ne {name other : String} (h : other ≠ name) (value : Term)
    (bindings : Bindings) :
    (insert name value bindings).value? other = bindings.value? other := by
  have hne : (other == name) = false := beq_eq_false_iff_ne.2 h
  induction bindings with
  | nil => simp [insert, value?, List.lookup_cons, hne]
  | cons binding rest ih =>
    obtain ⟨n, v⟩ := binding
    by_cases hn : n = name
    · subst hn
      simp [insert, value?, List.lookup_cons, hne]
    · simp only [value?] at ih
      simp [insert, value?, hn, List.lookup_cons, ih]

end Bindings

end Rulebook
