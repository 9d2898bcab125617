import Mathlib

/-!
# Accepted or rejected

Readers accept what they are given or say why not.  They go on with what was accepted, and read lists
item by item, so that the first item that is rejected decides.
-/

namespace Rulebook

section Outcomes

variable {ε α β : Type}

theorem exists_of_bind_eq_ok {result : Except ε α} {next : α → Except ε β} {value : β}
    (hvalue : result >>= next = .ok value) :
    ∃ first, result = .ok first ∧ next first = .ok value := by
  cases result with
  | error problem => cases hvalue
  | ok first => exact ⟨first, rfl, hvalue⟩

theorem bind_eq_error {result : Except ε α} {next : α → Except ε β} {problem : ε}
    (hproblem : result >>= next = .error problem) :
    result = .error problem ∨ ∃ first, result = .ok first ∧ next first = .error problem := by
  cases result with
  | error first =>
      cases hproblem
      exact .inl rfl
  | ok first => exact .inr ⟨first, rfl, hproblem⟩

theorem exists_of_map_eq_ok {result : Except ε α} {f : α → β} {value : β}
    (hvalue : result.map f = .ok value) : ∃ first, result = .ok first ∧ f first = value := by
  cases result with
  | error problem => cases hvalue
  | ok first =>
      cases hvalue
      exact ⟨first, rfl, rfl⟩

/-! ## Items -/

theorem mapM_eq_ok {γ : Type} {read : β → Except ε γ} {text : α → β} {term : α → γ}
    {items : List α} (hitems : ∀ item ∈ items, read (text item) = .ok (term item)) :
    (items.map text).mapM read = .ok (items.map term) := by
  induction items with
  | nil => rfl
  | cons item rest ih =>
      have hrest := ih fun other hother => hitems other (List.mem_cons_of_mem item hother)
      rw [List.map_cons, List.mapM_cons, hitems item List.mem_cons_self, hrest]
      rfl

theorem mapM_congr {m : Type → Type} [Monad m] [LawfulMonad m] {first second : α → m β}
    {items : List α} (hitems : ∀ item ∈ items, first item = second item) :
    items.mapM first = items.mapM second := by
  induction items with
  | nil => rfl
  | cons item rest ih =>
      rw [List.mapM_cons, List.mapM_cons, hitems item List.mem_cons_self,
        ih fun other hother => hitems other (List.mem_cons_of_mem item hother)]

theorem forall₂_of_mapM {read : α → Except ε β} {items : List α} {values : List β}
    (hvalues : items.mapM read = .ok values) :
    List.Forall₂ (fun item value => read item = .ok value) items values := by
  induction items generalizing values with
  | nil =>
      cases hvalues
      exact .nil
  | cons item rest ih =>
      rw [List.mapM_cons] at hvalues
      obtain ⟨first, hfirst, hrest⟩ := exists_of_bind_eq_ok hvalues
      obtain ⟨others, hothers, hall⟩ := exists_of_bind_eq_ok hrest
      cases hall
      exact .cons hfirst (ih hothers)

theorem exists_of_mem_right {related : α → β → Prop} {items : List α} {values : List β}
    (hrelated : List.Forall₂ related items values) {value : β} (hvalue : value ∈ values) :
    ∃ item ∈ items, related item value := by
  induction hrelated with
  | nil => cases hvalue
  | cons hhead _ ih =>
      rcases List.mem_cons.mp hvalue with rfl | hvalue
      · exact ⟨_, List.mem_cons_self, hhead⟩
      · obtain ⟨item, hitem, hother⟩ := ih hvalue
        exact ⟨item, List.mem_cons_of_mem _ hitem, hother⟩

theorem forall_mem_of_mapM {p : β → Prop} {read : α → Except ε β} {items : List α}
    {values : List β} (hread : ∀ item ∈ items, ∀ value, read item = .ok value → p value)
    (hvalues : items.mapM read = .ok values) : ∀ value ∈ values, p value := by
  intro value hvalue
  obtain ⟨item, hitem, hvalue⟩ := exists_of_mem_right (forall₂_of_mapM hvalues) hvalue
  exact hread item hitem value hvalue

/-- Of several items that are rejected the first decides. -/
theorem exists_of_mapM_eq_error {read : α → Except ε β} {items : List α} {problem : ε}
    (hproblem : items.mapM read = .error problem) :
    ∃ before item after, items = before ++ item :: after ∧
      (∀ other ∈ before, ∃ value, read other = .ok value) ∧ read item = .error problem := by
  induction items with
  | nil => cases hproblem
  | cons item rest ih =>
      rw [List.mapM_cons] at hproblem
      rcases bind_eq_error hproblem with hitem | ⟨value, hvalue, hrest⟩
      · exact ⟨[], item, rest, rfl, fun _ hother => absurd hother List.not_mem_nil, hitem⟩
      · rcases bind_eq_error hrest with hothers | ⟨values, -, hpure⟩
        · obtain ⟨before, failed, after, rfl, hbefore, hfailed⟩ := ih hothers
          exact ⟨item :: before, failed, after, rfl,
            List.forall_mem_cons.mpr ⟨⟨value, hvalue⟩, hbefore⟩, hfailed⟩
        · cases hpure

/-! ## Acceptance alone -/

theorem eq_ok_of_toOption {result : Except ε α} {value : α}
    (haccepted : result.toOption = some value) : result = .ok value := by
  cases result with
  | error problem => cases haccepted
  | ok other => exact congrArg Except.ok (Option.some.inj haccepted)

theorem toOption_map (f : α → β) (result : Except ε α) :
    (result.map f).toOption = result.toOption.map f := by
  cases result <;> rfl

theorem toOption_bind (result : Except ε α) (next : α → Except ε β) :
    (result >>= next).toOption = result.toOption.bind fun value => (next value).toOption := by
  cases result <;> rfl

theorem toOption_mapM (read : α → Except ε β) (items : List α) :
    (items.mapM read).toOption = items.mapM fun item => (read item).toOption := by
  induction items with
  | nil => rfl
  | cons item rest ih =>
      rw [List.mapM_cons, List.mapM_cons, toOption_bind, Option.bind_eq_bind]
      congr 1
      funext value
      rw [toOption_bind, ih]
      rfl

end Outcomes

end Rulebook
