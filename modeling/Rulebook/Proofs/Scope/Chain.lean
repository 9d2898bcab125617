import Rulebook.Proofs.Scope.Growth
import Rulebook.Scope.Display

/-!
# Chains of frames

What is found along a chain depends on the frames of the chain only.  So two stores with the same
parents give the same answers from a frame wherever their bindings agree along its chain.
-/

namespace Rulebook

namespace Bindings

theorem binds_eq_isSome_value? (bindings : Bindings) (name : String) :
    bindings.binds name = (bindings.value? name).isSome := by
  induction bindings with
  | nil => rfl
  | cons binding rest ih =>
      obtain ⟨n, v⟩ := binding
      by_cases hname : n = name
      · simp [binds, value?, hname]
      · have hne : (name == n) = false := beq_eq_false_iff_ne.2 (Ne.symm hname)
        simp only [binds, value?] at ih
        simp [binds, value?, List.lookup_cons, hname, hne, ih]

theorem mem_of_value? {bindings : Bindings} {name : String} {value : Term}
    (hvalue : bindings.value? name = some value) : (name, value) ∈ bindings := by
  induction bindings with
  | nil => cases hvalue
  | cons binding rest ih =>
      obtain ⟨n, v⟩ := binding
      simp only [value?, List.lookup_cons] at hvalue ih
      by_cases hname : name = n
      · subst hname
        simp only [beq_self_eq_true, Option.some.injEq] at hvalue
        subst hvalue
        exact List.mem_cons_self
      · rw [beq_eq_false_iff_ne.2 hname] at hvalue
        exact List.mem_cons_of_mem _ (ih hvalue)

/-- What is bound after a name is bound was bound before, or is the new value. -/
theorem mem_insert {name : String} {value : Term} {bindings : Bindings} {binding : String × Term}
    (hbinding : binding ∈ insert name value bindings) :
    binding ∈ bindings ∨ binding.2 = value := by
  induction bindings with
  | nil =>
      rw [insert, List.mem_singleton] at hbinding
      exact Or.inr (congrArg Prod.snd hbinding)
  | cons first rest ih =>
      obtain ⟨n, v⟩ := first
      by_cases hname : n = name
      · simp only [insert, if_pos hname, List.mem_cons] at hbinding
        rcases hbinding with rfl | hrest
        · exact Or.inr rfl
        · exact Or.inl (List.mem_cons_of_mem _ hrest)
      · simp only [insert, if_neg hname, List.mem_cons] at hbinding
        rcases hbinding with rfl | hrest
        · exact Or.inl List.mem_cons_self
        · exact (ih hrest).imp_left (List.mem_cons_of_mem _)

theorem forall_insert {good : Term → Prop} {bindings : Bindings} {value : Term}
    (hbindings : ∀ binding ∈ bindings, good binding.2) (hvalue : good value) (name : String) :
    ∀ binding ∈ insert name value bindings, good binding.2 := by
  intro binding hbinding
  rcases mem_insert hbinding with hold | hnew
  · exact hbindings binding hold
  · rwa [hnew]

theorem forall_insertAll {good : Term → Prop} {bindings pairs : Bindings}
    (hbindings : ∀ binding ∈ bindings, good binding.2) (hpairs : ∀ pair ∈ pairs, good pair.2) :
    ∀ binding ∈ bindings.insertAll pairs, good binding.2 := by
  induction pairs generalizing bindings with
  | nil => exact hbindings
  | cons pair rest ih =>
      rw [insertAll, List.foldl_cons]
      apply ih
      · exact forall_insert hbindings (hpairs pair List.mem_cons_self) pair.1
      · exact fun other hother => hpairs other (List.mem_cons_of_mem pair hother)

end Bindings

namespace Store

theorem isBound_eq_isSome_find? (store : Store) (id : FrameId) (name : String) :
    store.isBound id name = (store.find? id name).isSome := by
  rw [isBound, find?, Bool.eq_iff_iff, List.find?_isSome, List.any_eq_true]

section Congruence

variable {first second : Store}

theorem chain_congr (hparent : ∀ id, first.parent? id = second.parent? id) (id : FrameId) :
    first.chain id = second.chain id := by
  have hwithin : ∀ bound id, first.chainWithin bound id = second.chainWithin bound id := by
    intro bound
    induction bound with
    | zero => exact fun _ => rfl
    | succ bound ih =>
        intro id
        rw [chainWithin, chainWithin, hparent id]
        cases second.parent? id with
        | none => rfl
        | some parent => simp only [ih parent]
  exact hwithin (id + 1) id

theorem forall_mem_chain {store : Store} {good : FrameId → Prop} {id : FrameId} (hid : good id)
    (hparent : ∀ id parent, good id → store.parent? id = some parent → good parent) :
    ∀ frame ∈ store.chain id, good frame := by
  have hwithin : ∀ bound id, good id → ∀ frame ∈ store.chainWithin bound id, good frame := by
    intro bound
    induction bound with
    | zero => exact fun _ _ frame hframe => absurd hframe List.not_mem_nil
    | succ bound ih =>
        intro id hid frame hframe
        rw [chainWithin, List.mem_cons] at hframe
        rcases hframe with rfl | hframe
        · exact hid
        · cases hfound : store.parent? id with
          | none =>
              rw [hfound] at hframe
              exact absurd hframe List.not_mem_nil
          | some parent =>
              rw [hfound] at hframe
              exact ih parent (hparent id parent hid hfound) frame hframe
  exact hwithin (id + 1) id hid

theorem mem_chain_of_find? {store : Store} {id found : FrameId} {name : String}
    (hfound : store.find? id name = some found) : found ∈ store.chain id :=
  List.mem_of_find?_eq_some hfound

theorem find?_congr {id : FrameId} {name : String}
    (hparent : ∀ id, first.parent? id = second.parent? id)
    (hvalue : ∀ frame ∈ first.chain id,
      (first.bindings frame).value? name = (second.bindings frame).value? name) :
    first.find? id name = second.find? id name := by
  rw [find?, find?, ← chain_congr hparent]
  apply List.find?_congr
  intro frame hframe
  rw [Bindings.binds_eq_isSome_value?, Bindings.binds_eq_isSome_value?, hvalue frame hframe]

theorem lookup?_congr {id : FrameId} {name : String}
    (hparent : ∀ id, first.parent? id = second.parent? id)
    (hvalue : ∀ frame ∈ first.chain id,
      (first.bindings frame).value? name = (second.bindings frame).value? name) :
    first.lookup? id name = second.lookup? id name := by
  rw [lookup?, lookup?, ← find?_congr hparent hvalue]
  cases hfound : first.find? id name with
  | none => rfl
  | some found => exact hvalue found (mem_chain_of_find? hfound)

/-- A name that is bound in a frame is found there or before, if chains that begin behind the frame
do not pass it by. -/
theorem le_find? {store : Store} {limit id found : FrameId} {name : String}
    (hparent : ∀ id parent, limit < id → store.parent? id = some parent → limit ≤ parent)
    (hbinds : (store.bindings limit).binds name = true) (hid : limit ≤ id)
    (hfound : store.find? id name = some found) : limit ≤ found := by
  have hwithin : ∀ bound id, limit ≤ id →
      (store.chainWithin bound id).find? (fun frame => (store.bindings frame).binds name) =
        some found → limit ≤ found := by
    intro bound
    induction bound with
    | zero => exact fun _ _ hfound => absurd hfound (by simp [chainWithin])
    | succ bound ih =>
        intro id hid hfound
        rw [chainWithin, List.find?_cons] at hfound
        cases hbound : (store.bindings id).binds name with
        | true =>
            rw [hbound] at hfound
            cases hfound
            exact hid
        | false =>
            rw [hbound] at hfound
            -- The frame that binds the name is not passed by, so this one is behind it.
            have hlt : limit < id := by
              apply Nat.lt_of_le_of_ne hid
              rintro rfl
              rw [hbound] at hbinds
              cases hbinds
            cases hnext : store.parent? id with
            | none =>
                rw [hnext] at hfound
                cases hfound
            | some parent =>
                rw [hnext] at hfound
                exact ih parent (hparent id parent hlt hnext) hfound
  exact hwithin (id + 1) id hid hfound

theorem exists_of_lookup? {store : Store} {id : FrameId} {name : String} {value : Term}
    (hvalue : store.lookup? id name = some value) :
    ∃ frame ∈ store.chain id, (store.bindings frame).value? name = some value := by
  rw [lookup?, Option.bind_eq_some_iff] at hvalue
  obtain ⟨found, hfound, hbound⟩ := hvalue
  exact ⟨found, mem_chain_of_find? hfound, hbound⟩

theorem snapshot_congr {id : FrameId} (hparent : ∀ id, first.parent? id = second.parent? id)
    (hbindings : ∀ frame ∈ first.chain id, first.bindings frame = second.bindings frame) :
    first.snapshot id = second.snapshot id := by
  rw [snapshot, snapshot, ← chain_congr hparent]
  apply List.foldl_ext
  intro view frame hframe
  rw [hbindings frame (List.mem_reverse.mp hframe)]

theorem forall_snapshot {store : Store} {id : FrameId} {good : Term → Prop}
    (hbindings : ∀ frame ∈ store.chain id, ∀ binding ∈ store.bindings frame, good binding.2) :
    ∀ binding ∈ store.snapshot id, good binding.2 := by
  have hfold : ∀ (frames : List FrameId) (view : Bindings),
      (∀ frame ∈ frames, ∀ binding ∈ store.bindings frame, good binding.2) →
      (∀ binding ∈ view, good binding.2) →
      ∀ binding ∈ frames.foldl (fun view frame => view.insertAll (store.bindings frame)) view,
        good binding.2 := by
    intro frames
    induction frames with
    | nil => exact fun view _ hview => hview
    | cons frame rest ih =>
        intro view hframes hview
        rw [List.foldl_cons]
        apply ih
        · exact fun other hother => hframes other (List.mem_cons_of_mem frame hother)
        · exact Bindings.forall_insertAll hview (hframes frame List.mem_cons_self)
  apply hfold _ _ _ fun _ hbinding => absurd hbinding List.not_mem_nil
  exact fun frame hframe => hbindings frame (List.mem_reverse.mp hframe)

theorem displayScope_congr {id : FrameId} (hparent : ∀ id, first.parent? id = second.parent? id)
    (hbindings : first.bindings id = second.bindings id) :
    first.displayScope id = second.displayScope id := by
  unfold displayScope depth
  rw [chain_congr hparent id, hbindings]

end Congruence

end Store

end Rulebook
