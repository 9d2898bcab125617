import Rulebook.Proofs.Scope.Chain

/-!
# Names in a store that changes

What a name is found to be stays so when other names are bound and when frames are added.  In a
frame that is added, what it does not bind is found as it is in its parent.
-/

namespace Rulebook

theorem Bindings.notMem_names_insertAll {name : String} {bindings pairs : Bindings}
    (hbindings : name ∉ bindings.names) (hpairs : name ∉ pairs.names) :
    name ∉ (bindings.insertAll pairs).names := by
  induction pairs generalizing bindings with
  | nil => exact hbindings
  | cons pair rest ih =>
      rw [names, List.map_cons, List.mem_cons, not_or] at hpairs
      rw [insertAll, List.foldl_cons]
      apply ih _ hpairs.2
      rw [names_insert]
      split_ifs
      · exact hbindings
      · simp [hbindings, hpairs.1]

namespace Store

/-- The value of a name in the nearest of the first frames of a chain that binds it. -/
def lookupWithin (store : Store) (bound : Nat) (id : FrameId) (name : String) : Option Term :=
  ((store.chainWithin bound id).find? fun frame => (store.bindings frame).binds name).bind
    fun frame => (store.bindings frame).value? name

theorem lookup?_eq_lookupWithin (store : Store) (id : FrameId) (name : String) :
    store.lookup? id name = store.lookupWithin (id + 1) id name := rfl

theorem lookupWithin_of_binds {store : Store} {id : FrameId} {name : String}
    (hbinds : (store.bindings id).binds name = true) (bound : Nat) :
    store.lookupWithin (bound + 1) id name = (store.bindings id).value? name := by
  rw [lookupWithin, chainWithin, List.find?_cons, hbinds]
  rfl

theorem lookupWithin_of_not_binds {store : Store} {id : FrameId} {name : String}
    (hbinds : (store.bindings id).binds name = false) (bound : Nat) :
    store.lookupWithin (bound + 1) id name =
      (store.parent? id).bind fun parent => store.lookupWithin bound parent name := by
  rw [lookupWithin, chainWithin, List.find?_cons, hbinds]
  cases store.parent? id with
  | none => rfl
  | some parent => rfl

theorem lt_size_of_lookupWithin {store : Store} {bound : Nat} {id : FrameId} {name : String}
    {value : Term} (hvalue : store.lookupWithin bound id name = some value) :
    id < store.frames.size := by
  by_contra hsize
  have hbindings := bindings_of_size_le (Nat.le_of_not_lt hsize)
  have hparent := parent?_of_size_le (Nat.le_of_not_lt hsize)
  cases bound with
  | zero => cases hvalue
  | succ bound =>
      rw [lookupWithin_of_not_binds (by rw [hbindings]; rfl), hparent] at hvalue
      cases hvalue

theorem lookupWithin_mono {store : Store} {bound larger : Nat} {id : FrameId} {name : String}
    {value : Term} (hle : bound ≤ larger)
    (hvalue : store.lookupWithin bound id name = some value) :
    store.lookupWithin larger id name = some value := by
  induction bound generalizing larger id with
  | zero => cases hvalue
  | succ bound ih =>
      obtain ⟨larger, rfl⟩ := Nat.exists_eq_add_of_lt (Nat.lt_of_succ_le hle)
      cases hbinds : (store.bindings id).binds name with
      | true =>
          rw [lookupWithin_of_binds hbinds] at hvalue ⊢
          exact hvalue
      | false =>
          rw [lookupWithin_of_not_binds hbinds] at hvalue ⊢
          obtain ⟨parent, hparent, hfound⟩ := Option.bind_eq_some_iff.mp hvalue
          rw [hparent, Option.bind_some]
          exact ih (Nat.le_add_right bound larger) hfound

theorem lookupWithin_push {store : Store} {bound : Nat} {id : FrameId} {name : String}
    {value : Term} (hvalue : store.lookupWithin bound id name = some value) (frame : Frame) :
    (store.push frame).1.lookupWithin bound id name = some value := by
  induction bound generalizing id with
  | zero => cases hvalue
  | succ bound ih =>
      have hid : id ≠ store.frames.size := Nat.ne_of_lt (lt_size_of_lookupWithin hvalue)
      have hbindings : (store.push frame).1.bindings id = store.bindings id := by
        rw [bindings_push, if_neg hid]
      have hparents : (store.push frame).1.parent? id = store.parent? id := by
        rw [parent?_push, if_neg hid]
      cases hbinds : (store.bindings id).binds name with
      | true =>
          rw [lookupWithin_of_binds (by rw [hbindings, hbinds]), hbindings]
          rwa [lookupWithin_of_binds hbinds] at hvalue
      | false =>
          rw [lookupWithin_of_not_binds (by rw [hbindings, hbinds]), hparents]
          rw [lookupWithin_of_not_binds hbinds] at hvalue
          obtain ⟨parent, hparent, hfound⟩ := Option.bind_eq_some_iff.mp hvalue
          rw [hparent, Option.bind_some]
          exact ih hfound

theorem lookup?_push {store : Store} {id : FrameId} {name : String} {value : Term}
    (hvalue : store.lookup? id name = some value) (frame : Frame) :
    (store.push frame).1.lookup? id name = some value :=
  lookupWithin_push hvalue frame

/-- A new frame sees what its parent sees, apart from what it binds itself. -/
theorem lookup?_push_size {store : Store} {parent : FrameId} {name : String} {value : Term}
    (hvalue : store.lookup? parent name = some value) {bindings : Bindings}
    (hbindings : bindings.binds name = false) :
    (store.push { bindings, parent := some parent }).1.lookup? store.frames.size name =
      some value := by
  have hlt := lt_size_of_lookupWithin hvalue
  have hbinds : ((store.push { bindings, parent := some parent }).1.bindings
      store.frames.size).binds name = false := by
    rw [bindings_push, if_pos rfl, hbindings]
  rw [lookup?_eq_lookupWithin, lookupWithin_of_not_binds hbinds, parent?_push, if_pos rfl,
    Option.bind_some]
  exact lookupWithin_mono hlt (lookupWithin_push hvalue _)

theorem lookup?_push_own {store : Store} {bindings : Bindings} {parent : Option FrameId}
    {name : String} {value : Term} (hvalue : bindings.value? name = some value) :
    (store.push { bindings, parent }).1.lookup? store.frames.size name = some value := by
  have hbindings : (store.push { bindings, parent }).1.bindings store.frames.size = bindings := by
    rw [bindings_push, if_pos rfl]
  rw [lookup?_eq_lookupWithin, lookupWithin_of_binds, hbindings, hvalue]
  rw [hbindings, Bindings.binds_eq_isSome_value?, hvalue]
  rfl

theorem lookup?_define_of_ne {name other : String} (hne : other ≠ name) (store : Store)
    (id frame : FrameId) (value : Term) :
    (store.define id name value).lookup? frame other = store.lookup? frame other := by
  apply lookup?_congr fun parent => parent?_define store id parent name value
  intro inner _
  rw [bindings_define]
  split_ifs
  · rw [Bindings.value?_insert_of_ne hne]
  · rfl

theorem lookup?_of_frames_eq {first second : Store} (hframes : second.frames = first.frames)
    (frame : FrameId) (name : String) : second.lookup? frame name = first.lookup? frame name := by
  apply lookup?_congr
  · intro id
    rw [parent?, parent?, hframes]
  · intro id _
    rw [bindings, bindings, hframes]

end Store
end Rulebook
