import Rulebook.Proofs.Scope.Observers

/-!
# Four views of an environment

From an environment a program can ask whether a name is bound, where it is bound, what it is bound
to, and what all names in reach are bound to.  The first three search the chain from the inside out
and stop at the first frame that binds the name.  The last one goes the other way: it begins at the
root and lets each frame replace what the frames around it bind.

In a store whose frames are inside of earlier frames and bind every name once, every chain leads to
a root, and the four agree.
-/

namespace Rulebook

namespace Bindings

/-- Of names that are bound one after another, those that are given once are found as given, and all
others as they were. -/
theorem value?_insertAll {pairs : Bindings} (hnodup : pairs.names.Nodup) (bindings : Bindings)
    (name : String) :
    (bindings.insertAll pairs).value? name = (pairs.value? name).or (bindings.value? name) := by
  induction pairs generalizing bindings with
  | nil => rfl
  | cons pair rest ih =>
      obtain ⟨first, value⟩ := pair
      obtain ⟨hfirst, hrest⟩ := List.nodup_cons.mp hnodup
      have hfold : bindings.insertAll ((first, value) :: rest) =
          (insert first value bindings).insertAll rest := rfl
      rw [hfold, ih hrest]
      by_cases hname : name = first
      · subst hname
        -- The rest does not bind the name again, so that the first pair is not replaced.
        have hlast : value? rest name = none := by
          rw [← Option.not_isSome_iff_eq_none, ← binds_eq_isSome_value?, binds_iff_mem_names]
          exact hfirst
        rw [hlast, value?_insert_self, Option.none_or, value?, List.lookup_cons_self,
          Option.some_or]
      · have hskip : value? ((first, value) :: rest) name = value? rest name := by
          rw [value?, List.lookup_cons, beq_eq_false_iff_ne.mpr hname]
          rfl
        rw [hskip, value?_insert_of_ne hname]

end Bindings

namespace Store

/-! ## Chains that lead to a root -/

/-- The frames that are passed on the way from a frame to a root, each one followed by its parent. -/
inductive Ascends (store : Store) : FrameId → List FrameId → Prop
  | root {id : FrameId} (hid : id < store.frames.size) (hparent : store.parent? id = none) :
      Ascends store id [id]
  | inside {id parent : FrameId} {outer : List FrameId} (hid : id < store.frames.size)
      (hparent : store.parent? id = some parent) (houter : Ascends store parent outer) :
      Ascends store id (id :: outer)

/-- Frames are inside of earlier frames, and each of them binds a name once. -/
structure Orderly (store : Store) : Prop where
  parent : ∀ id parent, store.parent? id = some parent → parent < id
  names : ∀ id, (store.bindings id).names.Nodup

namespace Orderly

variable {store : Store}

theorem ascends (horderly : store.Orderly) {id : FrameId} (hid : id < store.frames.size) :
    store.Ascends id (store.chain id) := by
  have hwithin : ∀ bound id, id < bound → id < store.frames.size →
      store.Ascends id (store.chainWithin bound id) := by
    intro bound
    induction bound with
    | zero => exact fun id hbound => absurd hbound (Nat.not_lt_zero id)
    | succ bound ih =>
        intro id hbound hid
        rw [chainWithin]
        cases hparent : store.parent? id with
        | none => exact .root hid hparent
        | some parent =>
            have hlt := horderly.parent id parent hparent
            apply Ascends.inside hid hparent
            exact ih parent (Nat.lt_of_lt_of_le hlt (Nat.le_of_lt_succ hbound))
              (Nat.lt_trans hlt hid)
  exact hwithin (id + 1) id (Nat.lt_succ_self id) hid

theorem le_of_ascends (horderly : store.Orderly) {id : FrameId} {frames : List FrameId}
    (hascends : store.Ascends id frames) : ∀ other ∈ frames, other ≤ id := by
  induction hascends with
  | root hid hparent => exact fun other hother => Nat.le_of_eq (List.mem_singleton.mp hother)
  | inside hid hparent houter ih =>
      intro other hother
      rcases List.mem_cons.mp hother with rfl | hother
      · exact Nat.le_refl other
      · exact Nat.le_of_lt (Nat.lt_of_le_of_lt (ih other hother) (horderly.parent _ _ hparent))

/-- What is further out is earlier than a frame, so that no frame is met again. -/
theorem nodup_of_ascends (horderly : store.Orderly) {id : FrameId} {frames : List FrameId}
    (hascends : store.Ascends id frames) : frames.Nodup := by
  induction hascends with
  | root hid hparent => exact List.nodup_singleton _
  | inside hid hparent houter ih =>
      refine List.nodup_cons.mpr ⟨fun hagain => ?_, ih⟩
      have hle := horderly.le_of_ascends houter _ hagain
      exact Nat.not_lt_of_le hle (horderly.parent _ _ hparent)

end Orderly

/-! ## The flattened view -/

/-- What the flattened view binds a name to is what is looked up, although it is made from the
outside in. -/
theorem value?_snapshot {store : Store} {frame : FrameId}
    (hnames : ∀ id, (store.bindings id).names.Nodup) (name : String) :
    (store.snapshot frame).value? name = store.lookup? frame name := by
  -- From the inside out, the view of a chain is the view of what is further out, with the bindings
  -- of the first frame put over it.
  have hview : ∀ frames : List FrameId,
      Bindings.value? (frames.foldr (fun id view => view.insertAll (store.bindings id)) []) name =
        (frames.find? fun id => (store.bindings id).binds name).bind
          fun id => (store.bindings id).value? name := by
    intro frames
    induction frames with
    | nil => rfl
    | cons id outer ih =>
        rw [List.foldr_cons, Bindings.value?_insertAll (hnames id), ih, List.find?_cons,
          Bindings.binds_eq_isSome_value?]
        cases hvalue : (store.bindings id).value? name with
        | none => rfl
        | some value => exact hvalue.symm
  rw [snapshot, List.foldl_reverse, hview]
  rfl

/-! ## The four views -/

theorem exists_of_find? {store : Store} {frame found : FrameId} {name : String}
    (hfound : store.find? frame name = some found) :
    ∃ value, store.lookup? frame name = some value ∧
      (store.bindings found).value? name = some value := by
  have hbinds := binds_of_find? hfound
  rw [Bindings.binds_eq_isSome_value?, Option.isSome_iff_exists] at hbinds
  obtain ⟨value, hvalue⟩ := hbinds
  refine ⟨value, ?_, hvalue⟩
  rw [lookup?, hfound, Option.bind_some, hvalue]

theorem isSome_lookup? (store : Store) (frame : FrameId) (name : String) :
    (store.lookup? frame name).isSome = (store.find? frame name).isSome := by
  cases hfound : store.find? frame name with
  | none =>
      rw [lookup?, hfound]
      rfl
  | some found =>
      obtain ⟨value, hvalue, _⟩ := exists_of_find? hfound
      rw [hvalue]
      rfl

/-- The chain from a frame leads to a root and passes no frame twice; and for every name, whether it
is bound, whether the flattened view has it, whether its frame is found and whether it is looked up
are the same question, and the value is everywhere that of the nearest frame that binds it. -/
structure ViewsAgreeAt (store : Store) (frame : FrameId) : Prop where
  ascends : store.Ascends frame (store.chain frame)
  nodup : (store.chain frame).Nodup
  same : ∀ name, [store.isBound frame name = true, name ∈ (store.snapshot frame).names,
    ∃ found, (Run.find frame name store).1 = .ok found,
    (Run.lookup frame name store).1 ≠ .error (.fault (.unbound name))].TFAE
  value : ∀ name found, (Run.find frame name store).1 = .ok found →
    store.InView frame found name ∧ ∃ value, (store.bindings found).value? name = some value ∧
      (Run.lookup frame name store).1 = .ok value ∧ (store.snapshot frame).value? name = some value

def ViewsAgree (store : Store) : Prop :=
  ∀ frame < store.frames.size, store.ViewsAgreeAt frame

theorem find_eq_ok_iff {store : Store} {frame found : FrameId} {name : String} :
    (Run.find frame name store).1 = .ok found ↔ store.find? frame name = some found := by
  rw [Run.find_apply]
  cases store.find? frame name <;> simp

theorem lookup_ne_unbound_iff {store : Store} {frame : FrameId} {name : String} :
    (Run.lookup frame name store).1 ≠ .error (.fault (.unbound name)) ↔
      (store.lookup? frame name).isSome = true := by
  rw [Run.lookup_apply]
  cases store.lookup? frame name <;> simp

namespace Orderly

variable {store : Store}

theorem tfae_bound (horderly : store.Orderly) (frame : FrameId) (name : String) :
    [store.isBound frame name = true, name ∈ (store.snapshot frame).names,
      ∃ found, (Run.find frame name store).1 = .ok found,
      (Run.lookup frame name store).1 ≠ .error (.fault (.unbound name))].TFAE := by
  have hfind : (∃ found, (Run.find frame name store).1 = .ok found) ↔
      (store.find? frame name).isSome = true := by
    rw [Option.isSome_iff_exists]
    exact exists_congr fun _ => find_eq_ok_iff
  tfae_have 1 ↔ 3 := by
    rw [hfind, isBound_eq_isSome_find?]
  tfae_have 2 ↔ 3 := by
    rw [hfind, ← Bindings.binds_iff_mem_names, Bindings.binds_eq_isSome_value?,
      value?_snapshot horderly.names, isSome_lookup?]
  tfae_have 4 ↔ 3 := by
    rw [hfind, lookup_ne_unbound_iff, isSome_lookup?]
  tfae_finish

theorem viewsAgree (horderly : store.Orderly) : store.ViewsAgree := by
  intro frame hframe
  constructor
  · exact horderly.ascends hframe
  · exact horderly.nodup_of_ascends (horderly.ascends hframe)
  · exact horderly.tfae_bound frame
  · intro name found hfind
    have hfound := find_eq_ok_iff.mp hfind
    obtain ⟨value, hlookup, hvalue⟩ := exists_of_find? hfound
    refine ⟨(inView_iff_find? (binds_of_find? hfound) frame).mpr hfound, value, hvalue, ?_, ?_⟩
    · rw [Run.lookup_apply, hlookup]
    · rw [value?_snapshot horderly.names, hlookup]

end Orderly

end Store
end Rulebook
