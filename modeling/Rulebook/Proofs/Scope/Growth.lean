import Mathlib
import Rulebook.Scope.Store

/-!
# Growing frames

Frames are never taken away, and no operation moves a frame to another parent or unbinds a name.
A store grows into another one when all of this holds between them; which frame may have gained
which names is a parameter.  Rebinding a name gains nothing, and a new frame is no gain of those
that were there before.
-/

namespace Rulebook

namespace Bindings

theorem binds_iff_mem_names {bindings : Bindings} {name : String} :
    bindings.binds name = true ↔ name ∈ bindings.names := by
  simp [binds, names]

/-- A name that is new comes last, and the others keep their places. -/
theorem names_insert (name : String) (value : Term) (bindings : Bindings) :
    (insert name value bindings).names =
      if name ∈ bindings.names then bindings.names else bindings.names ++ [name] := by
  induction bindings with
  | nil => simp [insert, names]
  | cons binding rest ih =>
      obtain ⟨n, v⟩ := binding
      by_cases hname : n = name
      · simp [insert, names, hname]
      · have hne : name ≠ n := Ne.symm hname
        have hinsert : (insert name value ((n, v) :: rest)).names =
            n :: (insert name value rest).names := by
          simp [insert, names, hname]
        have hnames : names ((n, v) :: rest) = n :: names rest := rfl
        rw [hinsert, hnames, ih]
        by_cases hmem : name ∈ names rest
        · rw [if_pos hmem, if_pos (List.mem_cons_of_mem n hmem)]
        · have hnot : name ∉ n :: names rest := by simp [hne, hmem]
          rw [if_neg hmem, if_neg hnot, List.cons_append]

theorem names_insert_of_binds {name : String} {bindings : Bindings}
    (hbinds : bindings.binds name = true) (value : Term) :
    (insert name value bindings).names = bindings.names := by
  rw [names_insert, if_pos (binds_iff_mem_names.mp hbinds)]

theorem nodup_names_insert {bindings : Bindings} (hnodup : bindings.names.Nodup) (name : String)
    (value : Term) : (insert name value bindings).names.Nodup := by
  rw [names_insert]
  split_ifs with hname
  · exact hnodup
  · refine List.nodup_append.mpr ⟨hnodup, List.nodup_singleton name, ?_⟩
    intro first hfirst second hsecond
    rw [List.mem_singleton.mp hsecond]
    exact ne_of_mem_of_not_mem hfirst hname

theorem nodup_names_insertAll {bindings : Bindings} (hnodup : bindings.names.Nodup)
    (pairs : Bindings) : (bindings.insertAll pairs).names.Nodup := by
  induction pairs generalizing bindings with
  | nil => exact hnodup
  | cons pair rest ih => exact ih (nodup_names_insert hnodup pair.1 pair.2)

/-- However often a name is bound in a new frame, the frame has it once. -/
theorem nodup_names_insertAll_nil (pairs : Bindings) : (insertAll [] pairs).names.Nodup := by
  apply nodup_names_insertAll
  exact List.nodup_nil

theorem insert_of_notMem {name : String} {bindings : Bindings} (hname : name ∉ bindings.names)
    (value : Term) : insert name value bindings = bindings ++ [(name, value)] := by
  induction bindings with
  | nil => rfl
  | cons binding rest ih =>
      obtain ⟨n, v⟩ := binding
      have hnames : names ((n, v) :: rest) = n :: names rest := rfl
      rw [hnames, List.mem_cons, not_or] at hname
      rw [insert, if_neg (Ne.symm hname.1), ih hname.2, List.cons_append]

theorem insertAll_of_nodup {bindings pairs : Bindings}
    (hnodup : (bindings ++ pairs).names.Nodup) : bindings.insertAll pairs = bindings ++ pairs := by
  induction pairs generalizing bindings with
  | nil => rw [insertAll, List.foldl_nil, List.append_nil]
  | cons pair rest ih =>
      have hname : pair.1 ∉ bindings.names := by
        intro hmem
        rw [names, List.map_append] at hnodup
        exact List.disjoint_of_nodup_append hnodup hmem List.mem_cons_self
      have hmove : bindings ++ pair :: rest = (bindings ++ [pair]) ++ rest := by simp
      rw [insertAll, List.foldl_cons, insert_of_notMem hname, hmove]
      rw [hmove] at hnodup
      exact ih hnodup

theorem binds_insert {name other : String} {bindings : Bindings}
    (hname : bindings.binds name = true ∨ name = other) (value : Term) :
    (insert other value bindings).binds name = true := by
  rw [binds_iff_mem_names] at hname ⊢
  rw [names_insert]
  split_ifs with hother
  · exact hname.elim id fun heq => heq ▸ hother
  · exact List.mem_append.mpr (hname.imp_right fun heq => List.mem_singleton.mpr heq)

theorem binds_insertAll {name : String} {bindings pairs : Bindings}
    (hname : bindings.binds name = true ∨ name ∈ pairs.names) :
    (bindings.insertAll pairs).binds name = true := by
  induction pairs generalizing bindings with
  | nil => exact hname.elim id fun hmem => absurd hmem List.not_mem_nil
  | cons pair rest ih =>
      rw [insertAll, List.foldl_cons]
      apply ih
      rcases hname with hbinds | hmem
      · exact Or.inl (binds_insert (Or.inl hbinds) pair.2)
      · rcases List.mem_cons.mp hmem with heq | hrest
        · exact Or.inl (binds_insert (Or.inr heq) pair.2)
        · exact Or.inr hrest

end Bindings

namespace Store

/-! ## Single operations -/

theorem bindings_of_size_le {store : Store} {id : FrameId} (hid : store.frames.size ≤ id) :
    store.bindings id = [] := by
  rw [bindings, Array.getElem?_eq_none hid]

theorem bindings_define_of_ne {id other : FrameId} (hne : other ≠ id) (store : Store)
    (name : String) (value : Term) :
    (store.define id name value).bindings other = store.bindings other := by
  have hmodify : (store.define id name value).frames[other]? = store.frames[other]? := by
    simp [define, Array.getElem?_modify, Ne.symm hne]
  rw [bindings, bindings, hmodify]

theorem bindings_define_self {id : FrameId} {store : Store} (hid : id < store.frames.size)
    (name : String) (value : Term) :
    (store.define id name value).bindings id = (store.bindings id).insert name value := by
  have hframe : store.frames[id]? = some store.frames[id] := Array.getElem?_eq_getElem hid
  simp only [bindings, define, Array.getElem?_modify, if_pos, hframe, Option.map_some]

@[simp] theorem size_define (store : Store) (id : FrameId) (name : String) (value : Term) :
    (store.define id name value).frames.size = store.frames.size := by
  simp [define]

/-- A name is bound in a frame that there is; elsewhere nothing happens. -/
theorem bindings_define (store : Store) (id other : FrameId) (name : String) (value : Term) :
    (store.define id name value).bindings other =
      if other = id ∧ other < store.frames.size then (store.bindings other).insert name value
      else store.bindings other := by
  split_ifs with hother
  · rw [hother.1, bindings_define_self (hother.1 ▸ hother.2)]
  · by_cases hid : other = id
    · have hsize : store.frames.size ≤ other := Nat.le_of_not_lt fun hlt => hother ⟨hid, hlt⟩
      rw [bindings_of_size_le hsize, bindings_of_size_le (by rwa [size_define])]
    · exact bindings_define_of_ne hid store name value

theorem parent?_define (store : Store) (id other : FrameId) (name : String) (value : Term) :
    (store.define id name value).parent? other = store.parent? other := by
  by_cases hid : id = other
  · cases hframe : store.frames[other]? <;>
      simp [parent?, define, Array.getElem?_modify, hid, hframe]
  · simp [parent?, define, Array.getElem?_modify, hid]

theorem binds_of_find? {store : Store} {id found : FrameId} {name : String}
    (hfound : store.find? id name = some found) : (store.bindings found).binds name = true := by
  rw [find?] at hfound
  exact List.find?_some (p := fun frame => (store.bindings frame).binds name) hfound

theorem lt_size_of_binds {store : Store} {id : FrameId} {name : String}
    (hbinds : (store.bindings id).binds name = true) : id < store.frames.size := by
  by_contra hsize
  simp [bindings, Array.getElem?_eq_none (Nat.le_of_not_lt hsize), Bindings.binds] at hbinds

/-- Rebinding a name that is bound in a frame leaves every frame with the names that it has. -/
theorem names_define {store : Store} {id : FrameId} {name : String}
    (hbinds : (store.bindings id).binds name = true) (value : Term) (other : FrameId) :
    ((store.define id name value).bindings other).names = (store.bindings other).names := by
  rw [bindings_define]
  split_ifs with hother
  · rw [hother.1, Bindings.names_insert_of_binds hbinds]
  · rfl

/-- Rebinding a name leaves every frame with the names that it has. -/
theorem names_assign? {store after : Store} {id : FrameId} {name : String} {value : Term}
    (hassign : store.assign? id name value = some after) (other : FrameId) :
    (after.bindings other).names = (store.bindings other).names := by
  rw [assign?, Option.map_eq_some_iff] at hassign
  obtain ⟨found, hfound, rfl⟩ := hassign
  exact names_define (binds_of_find? hfound) value other

theorem lt_size_push (store : Store) (frame : Frame) :
    store.frames.size < (store.push frame).1.frames.size := by
  simp [push]

theorem getElem?_push {store : Store} {id : FrameId} (hid : id < store.frames.size)
    (frame : Frame) : (store.push frame).1.frames[id]? = store.frames[id]? := by
  simp [push, Array.getElem?_push, Nat.ne_of_lt hid]

theorem getElem?_push_eq (store : Store) (frame : Frame) (id : FrameId) :
    (store.push frame).1.frames[id]? =
      if id = store.frames.size then some frame else store.frames[id]? :=
  Array.getElem?_push

theorem bindings_push (store : Store) (frame : Frame) (id : FrameId) :
    (store.push frame).1.bindings id =
      if id = store.frames.size then frame.bindings else store.bindings id := by
  rw [bindings, getElem?_push_eq]
  split_ifs
  · rfl
  · rfl

theorem parent?_push (store : Store) (frame : Frame) (id : FrameId) :
    (store.push frame).1.parent? id =
      if id = store.frames.size then frame.parent else store.parent? id := by
  rw [parent?, getElem?_push_eq]
  split_ifs
  · rfl
  · rfl

theorem parent?_of_size_le {store : Store} {id : FrameId} (hid : store.frames.size ≤ id) :
    store.parent? id = none := by
  rw [parent?, Array.getElem?_eq_none hid]
  rfl

theorem lt_size_of_parent? {store : Store} {id parent : FrameId}
    (hparent : store.parent? id = some parent) : id < store.frames.size := by
  by_contra hsize
  rw [parent?_of_size_le (Nat.le_of_not_lt hsize)] at hparent
  cases hparent

/-! ## Growth -/

/-- The frames of a store are still there in another one, inside of the same parents and with their
names in order; each may have gained names that it is allowed to. -/
structure Grows (gains : FrameId → String → Prop) (before after : Store) : Prop where
  size : before.frames.size ≤ after.frames.size
  parent : ∀ id < before.frames.size, after.parent? id = before.parent? id
  names : ∀ id < before.frames.size, ∃ added,
    (after.bindings id).names = (before.bindings id).names ++ added ∧
      ∀ name ∈ added, gains id name

namespace Grows

variable {gains : FrameId → String → Prop} {before after : Store}

theorem of_frames_eq (hframes : after.frames = before.frames) : Grows gains before after where
  size := by rw [hframes]
  parent id _ := by rw [parent?, parent?, hframes]
  names id _ := by
    refine ⟨[], ?_, fun name hname => absurd hname List.not_mem_nil⟩
    rw [bindings, bindings, hframes, List.append_nil]

/-- What happens later counts only for the frames that were there at first. -/
theorem trans_of {more : FrameId → String → Prop} {later : Store}
    (hfirst : Grows gains before after) (hlast : Grows more after later)
    (hmore : ∀ id < before.frames.size, ∀ name, more id name → gains id name) :
    Grows gains before later where
  size := Nat.le_trans hfirst.size hlast.size
  parent id hid := by
    rw [hlast.parent id (Nat.lt_of_lt_of_le hid hfirst.size), hfirst.parent id hid]
  names id hid := by
    obtain ⟨added, hadded, hgains⟩ := hfirst.names id hid
    obtain ⟨further, hfurther, hgainsMore⟩ :=
      hlast.names id (Nat.lt_of_lt_of_le hid hfirst.size)
    refine ⟨added ++ further, ?_, ?_⟩
    · rw [hfurther, hadded, List.append_assoc]
    · intro name hname
      rcases List.mem_append.mp hname with hname | hname
      · exact hgains name hname
      · exact hmore id hid name (hgainsMore name hname)

theorem trans {later : Store} (hfirst : Grows gains before after)
    (hlast : Grows gains after later) : Grows gains before later :=
  hfirst.trans_of hlast fun _ _ _ hname => hname

theorem mono {more : FrameId → String → Prop} (hgrows : Grows gains before after)
    (hmore : ∀ id < before.frames.size, ∀ name, gains id name → more id name) :
    Grows more before after :=
  (of_frames_eq rfl).trans_of hgrows hmore

theorem define {id : FrameId} {name : String} (hname : gains id name) (store : Store)
    (value : Term) : Grows gains store (store.define id name value) where
  size := by rw [size_define]
  parent other _ := parent?_define store id other name value
  names other hother := by
    by_cases hid : other = id
    · subst hid
      rw [bindings_define_self hother, Bindings.names_insert]
      split_ifs
      · exact ⟨[], by rw [List.append_nil], fun n hn => absurd hn List.not_mem_nil⟩
      · refine ⟨[name], rfl, fun n hn => ?_⟩
        rw [List.mem_singleton] at hn
        rwa [hn]
    · refine ⟨[], ?_, fun n hn => absurd hn List.not_mem_nil⟩
      rw [bindings_define_of_ne hid, List.append_nil]

theorem assign {id : FrameId} {name : String} {value : Term}
    (hassign : before.assign? id name value = some after) : Grows gains before after where
  size := by
    rw [assign?, Option.map_eq_some_iff] at hassign
    obtain ⟨found, _, rfl⟩ := hassign
    rw [size_define]
  parent other _ := by
    rw [assign?, Option.map_eq_some_iff] at hassign
    obtain ⟨found, _, rfl⟩ := hassign
    exact parent?_define before found other name value
  names other _ := by
    refine ⟨[], ?_, fun n hn => absurd hn List.not_mem_nil⟩
    rw [names_assign? hassign, List.append_nil]

theorem push (store : Store) (frame : Frame) : Grows gains store (store.push frame).1 where
  size := Nat.le_of_lt (lt_size_push store frame)
  parent id hid := by rw [parent?, parent?, getElem?_push hid]
  names id hid := by
    refine ⟨[], ?_, fun n hn => absurd hn List.not_mem_nil⟩
    rw [bindings, bindings, getElem?_push hid, List.append_nil]

end Grows

end Store

end Rulebook
