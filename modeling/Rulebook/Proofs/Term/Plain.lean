import Rulebook.Proofs.Term.Equality

/-!
# Plain data

What a document holds: scalars, lists and mappings, nested in each other.  No key of a mapping is
there twice, and no number is a NaN, which would not even equal itself.
-/

namespace Rulebook

def Scalar.isNaN : Scalar → Bool
  | .float x => (Double.magnitude? x).isNone
  | _ => false

/-- Scalars, lists and mappings, and nothing else inside of them. -/
inductive PlainData : Term → Prop where
  | scalar {value : Scalar} (hvalue : value.isNaN = false) : PlainData (.scalar value)
  | list {items : List Term} (hitems : ∀ item ∈ items, PlainData item) : PlainData (.list items)
  | mapping {entries : List (Scalar × Term)} (hdistinct : Entries.Distinct entries)
      (hkeys : ∀ entry ∈ entries, entry.1.isNaN = false)
      (hvalues : ∀ entry ∈ entries, PlainData entry.2) : PlainData (.mapping entries)

namespace PlainData

theorem scalar_iff {value : Scalar} :
    PlainData (.scalar value) ↔ value.isNaN = false := by
  refine ⟨fun hscalar => ?_, .scalar⟩
  cases hscalar with
  | scalar hvalue => exact hvalue

theorem list_iff {items : List Term} :
    PlainData (.list items) ↔ ∀ item ∈ items, PlainData item := by
  refine ⟨fun hlist => ?_, .list⟩
  cases hlist with
  | list hitems => exact hitems

theorem mapping_iff {entries : List (Scalar × Term)} :
    PlainData (.mapping entries) ↔ Entries.Distinct entries ∧
      (∀ entry ∈ entries, entry.1.isNaN = false) ∧ ∀ entry ∈ entries, PlainData entry.2 := by
  constructor
  · intro hmapping
    cases hmapping with
    | mapping hdistinct hkeys hvalues => exact ⟨hdistinct, hkeys, hvalues⟩
  · rintro ⟨hdistinct, hkeys, hvalues⟩
    exact .mapping hdistinct hkeys hvalues

theorem str (text : String) : PlainData (.str text) :=
  .scalar rfl

theorem strs (texts : List String) : PlainData (.list (texts.map Term.str)) :=
  .list (List.forall_mem_map.mpr fun text _ => str text)

theorem singleton (key : String) {value : Term} (hvalue : PlainData value) :
    PlainData (.mapping [(.str key, value)]) :=
  .mapping (List.pairwise_singleton _ _) (by simp [Scalar.isNaN]) (by simpa using hvalue)

theorem of_singleton {key : Scalar} {value : Term}
    (hmapping : PlainData (.mapping [(key, value)])) : PlainData value :=
  (mapping_iff.mp hmapping).2.2 _ (List.mem_singleton.mpr rfl)

theorem throughout_not_isNode {term : Term} (hterm : PlainData term) :
    Term.Throughout (fun part => part.isNode = false) term := by
  induction hterm with
  | scalar hvalue => exact .intro rfl fun part hpart => absurd hpart List.not_mem_nil
  | list hitems ih => exact .intro rfl ih
  | mapping hdistinct hkeys hvalues ih => exact .intro rfl (List.forall_mem_map.mpr ih)

/-- Plain data counts as a text only if it is one. -/
theorem eq_str {term : Term} {text : String} (hterm : PlainData term)
    (htext : term.text? = some text) : term = .str text := by
  cases hterm with
  | @scalar value hvalue =>
      cases value with
      | str text =>
          cases htext
          rfl
      | _ => cases htext
  | list hitems => cases htext
  | mapping hdistinct hkeys hvalues => cases htext

end PlainData

end Rulebook
