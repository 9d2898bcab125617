import Rulebook.Proofs.Evaluation.Agreement
import Rulebook.Proofs.Form.Recode
import Rulebook.Proofs.Primitive.Likeness
import Rulebook.Proofs.Scope.Lookup

/-!
# Stores that differ in recoded bodies

Two stores are twins when they differ in the bodies of new closures, which may be recoded in the
second one, and in their events.  A recoded body calls `list` where the other one has a literal, so
such a closure has to live in a frame where `list` is the core operation.  Twins stay twins when the
same things happen to them, as long as nothing binds the name `list`.
-/

namespace Rulebook

def Store.Lists (store : Store) (frame : FrameId) : Prop :=
  store.lookup? frame "list" = some (.primitive (.core .list))

def Store.KeepsLists (before after : Store) : Prop :=
  ∀ frame, before.Lists frame → after.Lists frame

namespace Store.KeepsLists

variable {before middle after : Store}

theorem refl (store : Store) : KeepsLists store store :=
  fun _ hlists => hlists

theorem trans (hfirst : KeepsLists before middle) (hlast : KeepsLists middle after) :
    KeepsLists before after :=
  fun frame hlists => hlast frame (hfirst frame hlists)

theorem of_frames_eq (hframes : after.frames = before.frames) : KeepsLists before after := by
  intro frame hlists
  rw [Store.Lists, lookup?_of_frames_eq hframes]
  exact hlists

theorem define {name : String} (hname : name ≠ "list") (store : Store) (id : FrameId)
    (value : Term) : KeepsLists store (store.define id name value) := by
  intro frame hlists
  rw [Store.Lists, lookup?_define_of_ne hname.symm]
  exact hlists

theorem push (store : Store) (frame : Frame) : KeepsLists store (store.push frame).1 :=
  fun _ hlists => lookup?_push hlists frame

end Store.KeepsLists

/-- What recoded bodies there can be: those of closures from a number on, and up to a size. -/
structure Recoding where
  limit : Nat
  room : Nat

namespace Recoding

variable {R : Recoding}

/-- New closures that live where `list` is the core operation may have recoded bodies. -/
def altered (R : Recoding) (store : Store) : Term.Alteration := fun id home body other =>
  R.limit ≤ id ∧ store.Lists home ∧ Form.isPlain body = true ∧ sizeOf body ≤ R.room ∧
    other = Form.recode body

abbrev Like (R : Recoding) (store : Store) : Term → Term → Prop :=
  Term.Like (R.altered store)

abbrev LikeAll (R : Recoding) (store : Store) : List Term → List Term → Prop :=
  List.Forall₂ (R.Like store)

theorem altered_mono {before after : Store} (hkeeps : before.KeepsLists after) {id : Nat}
    {home : FrameId} {body other : Term} (haltered : R.altered before id home body other) :
    R.altered after id home body other := by
  obtain ⟨hid, hhome, hrest⟩ := haltered
  exact ⟨hid, hkeeps home hhome, hrest⟩

theorem like_mono {before after : Store} (hkeeps : before.KeepsLists after) {a b : Term}
    (hlike : R.Like before a b) : R.Like after a b :=
  hlike.mono fun _ _ _ _ => altered_mono hkeeps

theorem likeAll_mono {before after : Store} (hkeeps : before.KeepsLists after)
    {items others : List Term} (hitems : R.LikeAll before items others) :
    R.LikeAll after items others :=
  hitems.imp fun _ _ => like_mono hkeeps

/-- A relation between values that lasts as long as no frame loses `list`. -/
def Lasts (related : Store → α → β → Prop) : Prop :=
  ∀ {before after : Store}, before.KeepsLists after → ∀ {a b}, related before a b →
    related after a b

abbrev LikeBindings (R : Recoding) (store : Store) : Bindings → Bindings → Prop :=
  List.Forall₂ fun binding other => binding.1 = other.1 ∧ R.Like store binding.2 other.2

section Bindings

variable {store : Store} {bindings others : Bindings}

theorem likeBindings_mono {after : Store} (hkeeps : store.KeepsLists after)
    (hbindings : R.LikeBindings store bindings others) : R.LikeBindings after bindings others :=
  hbindings.imp fun _ _ hbinding => ⟨hbinding.1, like_mono hkeeps hbinding.2⟩

theorem names_eq (hbindings : R.LikeBindings store bindings others) :
    bindings.names = others.names := by
  induction hbindings with
  | nil => rfl
  | cons hbinding _ ih => exact congrArg₂ List.cons hbinding.1 ih

theorem binds_eq (hbindings : R.LikeBindings store bindings others) (name : String) :
    bindings.binds name = others.binds name := by
  rw [Bool.eq_iff_iff, Bindings.binds_iff_mem_names, Bindings.binds_iff_mem_names,
    names_eq hbindings]

theorem value?_rel (hbindings : R.LikeBindings store bindings others) (name : String) :
    Option.Rel (R.Like store) (bindings.value? name) (others.value? name) := by
  induction hbindings with
  | nil => exact .none
  | @cons binding other _ _ hbinding _ ih =>
      obtain ⟨n, value⟩ := binding
      obtain ⟨_, value'⟩ := other
      obtain ⟨rfl, hvalue⟩ := hbinding
      simp only [Bindings.value?, List.lookup_cons] at ih ⊢
      split
      · exact .some hvalue
      · exact ih

theorem likeBindings_insert (hbindings : R.LikeBindings store bindings others) (name : String)
    {value other : Term} (hvalue : R.Like store value other) :
    R.LikeBindings store (bindings.insert name value) (others.insert name other) := by
  induction hbindings with
  | nil => exact .cons ⟨rfl, hvalue⟩ .nil
  | @cons binding binding' _ _ hbinding hrest ih =>
      obtain ⟨n, old⟩ := binding
      obtain ⟨_, old'⟩ := binding'
      obtain ⟨rfl, hold⟩ := hbinding
      rw [Bindings.insert, Bindings.insert]
      split_ifs
      · exact .cons ⟨rfl, hvalue⟩ hrest
      · exact .cons ⟨rfl, hold⟩ ih

theorem likeBindings_insertAll {pairs others' : Bindings}
    (hbindings : R.LikeBindings store bindings others)
    (hpairs : R.LikeBindings store pairs others') :
    R.LikeBindings store (bindings.insertAll pairs) (others.insertAll others') := by
  induction hpairs generalizing bindings others with
  | nil => exact hbindings
  | @cons pair other _ _ hpair _ ih =>
      rw [Bindings.insertAll, Bindings.insertAll, List.foldl_cons, List.foldl_cons, ← hpair.1]
      exact ih (likeBindings_insert hbindings pair.1 hpair.2)

theorem likeBindings_zip {names : List String} {values others : List Term}
    (hvalues : R.LikeAll store values others) :
    R.LikeBindings store (names.zip values) (names.zip others) := by
  induction hvalues generalizing names with
  | nil => simp
  | cons hvalue _ ih =>
      cases names with
      | nil => exact .nil
      | cons name rest => exact .cons ⟨rfl, hvalue⟩ ih

theorem like_toTerm (hbindings : R.LikeBindings store bindings others) :
    R.Like store bindings.toTerm others.toTerm := by
  apply Term.Like.mapping_of_entries
  rw [Term.LikeEntries, List.forall₂_map_left_iff, List.forall₂_map_right_iff]
  exact hbindings.imp fun _ _ hbinding => ⟨congrArg Scalar.str hbinding.1, hbinding.2⟩

end Bindings

/-! ## Stores -/

/-- Two stores differ in recoded bodies and in their events only. -/
structure Twin (R : Recoding) (first second : Store) : Prop where
  size : first.frames.size = second.frames.size
  parent : ∀ id, first.parent? id = second.parent? id
  bindings : ∀ id, R.LikeBindings first (first.bindings id) (second.bindings id)
  depth : ∀ evaluator, first.callbackDepth evaluator = second.callbackDepth evaluator
  closures : first.closures = second.closures
  fresh : R.limit ≤ first.closures
  notes : R.LikeAll first first.notes.toList second.notes.toList

namespace Twin

variable {first second first' second' : Store}

theorem refl (hlimit : R.limit ≤ first.closures) : R.Twin first first where
  size := rfl
  parent _ := rfl
  bindings _ := List.forall₂_same.mpr fun _ _ => ⟨rfl, .refl _⟩
  depth _ := rfl
  closures := rfl
  fresh := hlimit
  notes := Term.Like.forall₂_refl _

theorem of_frames (htwin : R.Twin first second) (hframes : first'.frames = first.frames)
    (hframes' : second'.frames = second.frames)
    (hdepth : ∀ evaluator, first'.callbackDepth evaluator = second'.callbackDepth evaluator)
    (hclosures : first'.closures = second'.closures) (hfresh : R.limit ≤ first'.closures)
    (hnotes : R.LikeAll first first'.notes.toList second'.notes.toList) :
    R.Twin first' second' where
  size := by rw [hframes, hframes', htwin.size]
  parent id := by
    rw [Store.parent?_congr hframes, Store.parent?_congr hframes', htwin.parent]
  bindings id := by
    have hkeeps := Store.KeepsLists.of_frames_eq hframes
    rw [Store.bindings, Store.bindings, hframes, hframes']
    exact likeBindings_mono hkeeps (htwin.bindings id)
  depth := hdepth
  closures := hclosures
  fresh := hfresh
  notes := likeAll_mono (Store.KeepsLists.of_frames_eq hframes) hnotes

theorem of_rest (htwin : R.Twin first second) (hframes : first'.frames = first.frames)
    (hframes' : second'.frames = second.frames)
    (hdepth : ∀ evaluator, first'.callbackDepth evaluator = second'.callbackDepth evaluator)
    (hclosures : first'.closures = first.closures) (hclosures' : second'.closures = second.closures)
    (hnotes : first'.notes = first.notes) (hnotes' : second'.notes = second.notes) :
    R.Twin first' second' := by
  apply htwin.of_frames hframes hframes' hdepth
  · rw [hclosures, hclosures', htwin.closures]
  · rw [hclosures]
    exact htwin.fresh
  · rw [hnotes, hnotes']
    exact htwin.notes

theorem log (htwin : R.Twin first second) (event event' : Event) :
    R.Twin (first.log event) (second.log event') :=
  htwin.of_rest rfl rfl htwin.depth rfl rfl rfl rfl

theorem setCallbackDepth (htwin : R.Twin first second) (evaluator : EvaluatorId) (depth : Nat) :
    R.Twin (first.setCallbackDepth evaluator depth) (second.setCallbackDepth evaluator depth) := by
  refine htwin.of_rest rfl rfl (fun other => ?_) rfl rfl rfl rfl
  rw [Store.callbackDepth_setCallbackDepth, Store.callbackDepth_setCallbackDepth, htwin.depth]

theorem note (htwin : R.Twin first second) {tag tag' : Term} (htag : R.Like first tag tag') :
    R.Twin { first with notes := first.notes.push tag }
      { second with notes := second.notes.push tag' } := by
  refine htwin.of_frames rfl rfl htwin.depth htwin.closures htwin.fresh ?_
  rw [Array.toList_push, Array.toList_push]
  exact List.rel_append htwin.notes (.cons htag .nil)

theorem close (htwin : R.Twin first second) :
    R.Twin { first with closures := first.closures + 1 }
      { second with closures := second.closures + 1 } :=
  htwin.of_frames rfl rfl htwin.depth (congrArg (· + 1) htwin.closures)
    (Nat.le_succ_of_le htwin.fresh) htwin.notes

theorem define (htwin : R.Twin first second) {name : String} (hname : name ≠ "list")
    (id : FrameId) {value other : Term} (hvalue : R.Like first value other) :
    R.Twin (first.define id name value) (second.define id name other) where
  size := by rw [Store.size_define, Store.size_define, htwin.size]
  parent inner := by rw [Store.parent?_define, Store.parent?_define, htwin.parent]
  bindings inner := by
    apply likeBindings_mono (.define hname first id value)
    rw [Store.bindings_define, Store.bindings_define, ← htwin.size]
    split_ifs
    · exact likeBindings_insert (htwin.bindings inner) name hvalue
    · exact htwin.bindings inner
  depth := htwin.depth
  closures := htwin.closures
  fresh := htwin.fresh
  notes := likeAll_mono (.define hname first id value) htwin.notes

theorem push (htwin : R.Twin first second) {bindings others : Bindings}
    (hbindings : R.LikeBindings first bindings others) (parent : Option FrameId) :
    R.Twin (first.push { bindings, parent }).1 (second.push { bindings := others, parent }).1 where
  size := by simp [Store.push, htwin.size]
  parent id := by
    rw [Store.parent?_push, Store.parent?_push, htwin.size, htwin.parent]
  bindings id := by
    apply likeBindings_mono (.push first _)
    rw [Store.bindings_push, Store.bindings_push, ← htwin.size]
    split_ifs
    · exact hbindings
    · exact htwin.bindings id
  depth := htwin.depth
  closures := htwin.closures
  fresh := htwin.fresh
  notes := likeAll_mono (.push first _) htwin.notes

theorem chain_eq (htwin : R.Twin first second) (id : FrameId) : first.chain id = second.chain id :=
  Store.chain_congr htwin.parent id

theorem find?_eq (htwin : R.Twin first second) (id : FrameId) (name : String) :
    first.find? id name = second.find? id name := by
  rw [Store.find?, Store.find?, htwin.chain_eq]
  exact List.find?_congr fun frame _ => binds_eq (htwin.bindings frame) name

theorem lookup?_rel (htwin : R.Twin first second) (id : FrameId) (name : String) :
    Option.Rel (R.Like first) (first.lookup? id name) (second.lookup? id name) := by
  rw [Store.lookup?, Store.lookup?, htwin.find?_eq]
  cases second.find? id name with
  | none => exact .none
  | some found => exact value?_rel (htwin.bindings found) name

theorem isBound_eq (htwin : R.Twin first second) (id : FrameId) (name : String) :
    first.isBound id name = second.isBound id name := by
  rw [Store.isBound_eq_isSome_find?, Store.isBound_eq_isSome_find?, htwin.find?_eq]

theorem snapshot (htwin : R.Twin first second) (id : FrameId) :
    R.LikeBindings first (first.snapshot id) (second.snapshot id) := by
  rw [Store.snapshot, Store.snapshot, htwin.chain_eq]
  generalize (second.chain id).reverse = frames
  have hstep : ∀ (frames : List FrameId) (view view' : Bindings),
      R.LikeBindings first view view' → R.LikeBindings first
        (frames.foldl (fun view frame => view.insertAll (first.bindings frame)) view)
        (frames.foldl (fun view frame => view.insertAll (second.bindings frame)) view') := by
    intro frames
    induction frames with
    | nil => exact fun _ _ hview => hview
    | cons frame rest ih =>
        intro view view' hview
        exact ih _ _ (likeBindings_insertAll hview (htwin.bindings frame))
  exact hstep frames [] [] .nil

theorem display?_eq (htwin : R.Twin first second) {a b : Term} (hlike : R.Like first a b) :
    first.display? a = second.display? b := by
  have hscopes : first.displayScope = second.displayScope := by
    funext frame
    unfold Store.displayScope Store.depth
    rw [htwin.chain_eq, names_eq (htwin.bindings frame)]
  rw [Store.display?, Store.display?, hscopes, hlike.isShown_eq, hlike.displayWith_eq]

end Twin

end Recoding
end Rulebook
