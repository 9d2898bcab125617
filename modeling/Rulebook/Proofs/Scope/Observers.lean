import Rulebook.Evaluation.Run
import Rulebook.Proofs.Evaluation.Moves
import Rulebook.Proofs.Scope.Lookup

/-!
# What observers see of a binding

Frames are shared: an environment that binds a name is on the chains of others, which may see the
new value or have a nearer frame that hides it.  Both ways to bind a name change one name in one
frame.  Rebinding a name is seen by exactly those who find it in the same frame.  Defining a name is
seen by exactly those on whose chain the frame comes before any other one that binds the name, also
if they found the name further out until then, or not at all.
-/

namespace Rulebook
namespace Store

/-! ## One name in one frame -/

/-- A store in which a name is bound to a value in one frame, and nothing else has changed. -/
structure Rebinds (frame : FrameId) (name : String) (value : Term) (before after : Store) :
    Prop where
  rest : after = { before with frames := after.frames }
  size : after.frames.size = before.frames.size
  parent : ∀ id, after.parent? id = before.parent? id
  elsewhere : ∀ other ≠ frame, after.bindings other = before.bindings other
  here : (after.bindings frame).value? name = some value
  others : ∀ other ≠ name,
    (after.bindings frame).value? other = (before.bindings frame).value? other

theorem rebinds_define {store : Store} {frame : FrameId} (hframe : frame < store.frames.size)
    (name : String) (value : Term) :
    Rebinds frame name value store (store.define frame name value) where
  rest := rfl
  size := size_define store frame name value
  parent id := parent?_define store frame id name value
  elsewhere other hother := bindings_define_of_ne hother store name value
  here := by rw [bindings_define_self hframe, Bindings.value?_insert_self]
  others other hother := by
    rw [bindings_define_self hframe, Bindings.value?_insert_of_ne hother]

/-- A frame is in view of an observer under a name if it lies on the chain of the observer and no
frame that is nearer binds the name. -/
def InView (store : Store) (observer frame : FrameId) (name : String) : Prop :=
  ∃ nearer farther, store.chain observer = nearer ++ frame :: farther ∧
    ∀ other ∈ nearer, (store.bindings other).binds name = false

/-- A frame is in view if a search of the chain that also stops at the frame stops there. -/
theorem inView_iff {store : Store} {observer frame : FrameId} {name : String} :
    store.InView observer frame name ↔
      (store.chain observer).find? (fun other =>
        other = frame || (store.bindings other).binds name) = some frame := by
  constructor
  · rintro ⟨nearer, farther, hchain, hnearer⟩
    rw [hchain, List.find?_append]
    cases hfound : nearer.find? fun other => other = frame || (store.bindings other).binds name with
    | none => simp
    | some found =>
        have hstops := List.find?_some hfound
        rw [hnearer found (List.mem_of_find?_eq_some hfound), Bool.or_false,
          decide_eq_true_eq] at hstops
        rw [hstops, Option.some_or]
  · intro hfound
    obtain ⟨-, nearer, farther, hchain, hnearer⟩ := List.find?_eq_some_iff_append.mp hfound
    refine ⟨nearer, farther, hchain, fun other hother => ?_⟩
    have hpassed := hnearer other hother
    rw [Bool.not_eq_true', Bool.or_eq_false_iff] at hpassed
    exact hpassed.2

instance (store : Store) (observer frame : FrameId) (name : String) :
    Decidable (store.InView observer frame name) :=
  decidable_of_iff _ inView_iff.symm

/-- A frame that binds a name is in view exactly of those who find the name there. -/
theorem inView_iff_find? {store : Store} {frame : FrameId} {name : String}
    (hbinds : (store.bindings frame).binds name = true) (observer : FrameId) :
    store.InView observer frame name ↔ store.find? observer name = some frame := by
  rw [inView_iff, find?]
  have hsame : (fun other => decide (other = frame) || (store.bindings other).binds name) =
      fun other => (store.bindings other).binds name := by
    funext other
    by_cases hother : other = frame
    · rw [hother, hbinds, Bool.or_true]
    · simp [hother]
  rw [hsame]

namespace Rebinds

variable {before after : Store} {frame observer : FrameId} {name : String} {value : Term}

theorem chain_eq (hrebinds : Rebinds frame name value before after) (id : FrameId) :
    after.chain id = before.chain id :=
  chain_congr hrebinds.parent id

/-- Looking for the name now stops at the frame as well. -/
theorem binds_eq (hrebinds : Rebinds frame name value before after) (other : FrameId) :
    (after.bindings other).binds name =
      (decide (other = frame) || (before.bindings other).binds name) := by
  by_cases hother : other = frame
  · rw [hother, Bindings.binds_eq_isSome_value?, hrebinds.here]
    simp
  · rw [hrebinds.elsewhere other hother, decide_eq_false hother, Bool.false_or]

theorem find?_eq (hrebinds : Rebinds frame name value before after) (observer : FrameId) :
    after.find? observer name = (before.chain observer).find? fun other =>
      other = frame || (before.bindings other).binds name := by
  rw [find?, hrebinds.chain_eq]
  congr 1
  funext other
  exact hrebinds.binds_eq other

theorem lookup?_of_inView (hrebinds : Rebinds frame name value before after)
    (hview : before.InView observer frame name) :
    after.lookup? observer name = some value := by
  rw [inView_iff, ← hrebinds.find?_eq] at hview
  rw [lookup?, hview, Option.bind_some, hrebinds.here]

/-- Whoever does not have the frame in view finds the name where it was. -/
theorem find?_of_not_inView (hrebinds : Rebinds frame name value before after)
    (hview : ¬before.InView observer frame name) :
    after.find? observer name = before.find? observer name := by
  rw [hrebinds.find?_eq, find?]
  -- Up to the frame the two searches pass by the same frames, and they do not get there.
  have hsearch : ∀ frames : List FrameId,
      frames.find? (fun other => decide (other = frame) || (before.bindings other).binds name) ≠
          some frame →
        frames.find? (fun other => decide (other = frame) || (before.bindings other).binds name) =
          frames.find? fun other => (before.bindings other).binds name := by
    intro frames
    induction frames with
    | nil => exact fun _ => rfl
    | cons other rest ih =>
        intro hne
        by_cases hother : other = frame
        · rw [hother, List.find?_cons_of_pos (by simp)] at hne
          exact absurd rfl hne
        · rw [List.find?_cons, decide_eq_false hother, Bool.false_or] at hne
          rw [List.find?_cons, List.find?_cons, decide_eq_false hother, Bool.false_or]
          cases hbinds : (before.bindings other).binds name with
          | true => rfl
          | false =>
              rw [hbinds] at hne
              exact ih hne
  rw [inView_iff] at hview
  exact hsearch _ hview

theorem lookup?_of_not_inView (hrebinds : Rebinds frame name value before after)
    (hview : ¬before.InView observer frame name) :
    after.lookup? observer name = before.lookup? observer name := by
  have hfound := hrebinds.find?_of_not_inView hview
  rw [lookup?, lookup?, hfound]
  cases hfind : before.find? observer name with
  | none => rfl
  | some found =>
      have hne : found ≠ frame := by
        rintro rfl
        exact hview ((inView_iff_find? (binds_of_find? hfind) observer).mpr hfind)
      rw [Option.bind_some, Option.bind_some, hrebinds.elsewhere found hne]

theorem lookup?_of_ne (hrebinds : Rebinds frame name value before after) {other : String}
    (hother : other ≠ name) (observer : FrameId) :
    after.lookup? observer other = before.lookup? observer other := by
  apply lookup?_congr hrebinds.parent
  intro inner _
  by_cases hinner : inner = frame
  · rw [hinner, hrebinds.others other hother]
  · rw [hrebinds.elsewhere inner hinner]

/-- An observer sees the value if it has the frame in view, and otherwise what it saw before. -/
theorem lookup?_eq (hrebinds : Rebinds frame name value before after) (observer : FrameId)
    (other : String) :
    after.lookup? observer other =
      if other = name ∧ before.InView observer frame name then some value
      else before.lookup? observer other := by
  by_cases hother : other = name
  · subst hother
    by_cases hview : before.InView observer frame other
    · rw [if_pos ⟨rfl, hview⟩, hrebinds.lookup?_of_inView hview]
    · rw [if_neg (fun hboth => hview hboth.2), hrebinds.lookup?_of_not_inView hview]
  · rw [if_neg (fun hboth => hother hboth.1), hrebinds.lookup?_of_ne hother]

end Rebinds
end Store

/-! ## The operations -/

namespace Run

theorem lookup_apply (frame : FrameId) (name : String) (store : Store) :
    Run.lookup frame name store =
      (match store.lookup? frame name with
        | some value => .ok value
        | none => .error (.fault (.unbound name)), store) := by
  rw [Run.lookup, get_bind_apply]
  cases store.lookup? frame name <;> rfl

theorem find_apply (frame : FrameId) (name : String) (store : Store) :
    Run.find frame name store =
      (match store.find? frame name with
        | some found => .ok found
        | none => .error (.fault (.unbound name)), store) := by
  rw [Run.find, get_bind_apply]
  cases store.find? frame name <;> rfl

theorem getElem?_extend (parent : Option FrameId) (names : List String) (values : List Term)
    {store : Store} {id : FrameId} (hid : id < store.frames.size) :
    (Run.extend parent names values store).2.frames[id]? = store.frames[id]? := by
  rw [Run.extend]
  split_ifs
  · rfl
  · exact Store.getElem?_push hid _

end Run

namespace Store

theorem Rebinds.lookup_eq {before after : Store} {frame : FrameId} {name : String} {value : Term}
    (hrebinds : Rebinds frame name value before after) (observer : FrameId) (other : String) :
    (Run.lookup observer other after).1 =
      if other = name ∧ before.InView observer frame name then .ok value
      else (Run.lookup observer other before).1 := by
  rw [Run.lookup_apply, Run.lookup_apply, hrebinds.lookup?_eq]
  split_ifs <;> rfl

/-- Rebinding a name changes what is looked up exactly for those who find the name in the same
frame, and fails without a change where the name is not bound.  Defining a name changes it exactly
for those who have the frame in view.  Neither changes any other name or frame, and nor do looking
names up and adding frames. -/
theorem seen_of_rebinding {store : Store} {frame : FrameId} (hframe : frame < store.frames.size)
    (name : String) (value : Term) :
    (∀ found, store.find? frame name = some found → ∃ after,
      Run.assign frame name value store = (.ok value, after) ∧
        Rebinds found name value store after ∧
        ∀ observer other, (Run.lookup observer other after).1 =
          if other = name ∧ store.find? observer name = some found then .ok value
          else (Run.lookup observer other store).1) ∧
    (store.find? frame name = none →
      Run.assign frame name value store = (.error (.fault (.unbound name)), store)) ∧
    (∃ after, Run.define frame name value store = (.ok value, after) ∧
      Rebinds frame name value store after ∧
      ∀ observer other, (Run.lookup observer other after).1 =
        if other = name ∧ store.InView observer frame name then .ok value
        else (Run.lookup observer other store).1) ∧
    (∀ observer other, (Run.lookup observer other store).2 = store ∧
      (Run.find observer other store).2 = store) ∧
    ∀ parent names values, ∀ id < store.frames.size,
      (Run.extend parent names values store).2.frames[id]? = store.frames[id]? := by
  refine ⟨fun found hfound => ?_, fun hnone => ?_, ?_, fun observer other => ?_, ?_⟩
  · have hbinds := binds_of_find? hfound
    have hrebinds := rebinds_define (lt_size_of_binds hbinds) name value
    refine ⟨store.define found name value, ?_, hrebinds, fun observer other => ?_⟩
    · rw [Run.assign, Run.get_bind_apply, assign?, hfound]
      rfl
    · simp only [hrebinds.lookup_eq, inView_iff_find? hbinds]
  · rw [Run.assign, Run.get_bind_apply, assign?, hnone]
    rfl
  · have hrebinds := rebinds_define hframe name value
    exact ⟨store.define frame name value, rfl, hrebinds, hrebinds.lookup_eq⟩
  · rw [Run.lookup_apply, Run.find_apply]
    exact ⟨rfl, rfl⟩
  · exact fun parent names values id hid => Run.getElem?_extend parent names values hid

/-- A root frame, a frame inside of it, and two inside of that one, of which the first binds `rate`
as the root does. -/
def shadedStore : Store where
  frames := #[{ bindings := [("rate", .int 1)] }, { parent := some 0 },
    { bindings := [("rate", .int 2)], parent := some 1 }, { parent := some 1 }]

/-- From the frame in the middle the root is rebound, which only the second of the inner frames
sees.  A definition there is seen by that frame too, but not by the root. -/
theorem seen_of_rebinding_shaded :
    1 < shadedStore.frames.size ∧
    (∃ after, Run.assign 1 "rate" (.int 7) shadedStore = (.ok (.int 7), after) ∧
      (Run.lookup 0 "rate" after).1 = .ok (.int 7) ∧ (Run.lookup 2 "rate" after).1 = .ok (.int 2) ∧
      (Run.lookup 3 "rate" after).1 = .ok (.int 7)) ∧
    ∃ after, Run.define 1 "rate" (.int 7) shadedStore = (.ok (.int 7), after) ∧
      (Run.lookup 0 "rate" after).1 = .ok (.int 1) ∧ (Run.lookup 2 "rate" after).1 = .ok (.int 2) ∧
      (Run.lookup 3 "rate" after).1 = .ok (.int 7) := by
  have hframe : 1 < shadedStore.frames.size := by decide
  obtain ⟨hassign, -, ⟨defined, hdefine, -, hseen⟩, -⟩ :=
    seen_of_rebinding hframe "rate" (.int 7)
  obtain ⟨assigned, hassigned, -, hseen'⟩ := hassign 0 rfl
  refine ⟨hframe, ⟨assigned, hassigned, ?_, ?_, ?_⟩, defined, hdefine, ?_, ?_, ?_⟩
  · exact (hseen' 0 "rate").trans rfl
  · exact (hseen' 2 "rate").trans rfl
  · exact (hseen' 3 "rate").trans rfl
  · exact (hseen 0 "rate").trans rfl
  · exact (hseen 2 "rate").trans rfl
  · exact (hseen 3 "rate").trans rfl

end Store
end Rulebook
