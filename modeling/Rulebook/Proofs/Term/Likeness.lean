import Rulebook.Proofs.Term.Equality

/-!
# Terms that differ in the bodies of closures

Two terms are alike when they are the same except inside of closures, whose bodies may have been
altered.  A closure counts as itself whatever its body is, so alike terms are equal to the same
terms, are shown in the same way, and give alike results when the core operations are applied to
them.  Only one question tells them apart: what the body of a closure is.
-/

namespace Rulebook

/-! ## Alike outcomes -/

/-- Two outcomes are the same fault, or values that are related. -/
inductive Outcomes (related : α → β → Prop) : Except ε α → Except ε β → Prop where
  | ok {a : α} {b : β} (hvalue : related a b) : Outcomes related (.ok a) (.ok b)
  | error (fault : ε) : Outcomes related (.error fault) (.error fault)

namespace Outcomes

variable {related : α → β → Prop} {better : γ → δ → Prop} {x : Except ε α} {y : Except ε β}

theorem mono {more : α → β → Prop} (hxy : Outcomes related x y)
    (himp : ∀ a b, related a b → more a b) : Outcomes more x y := by
  cases hxy with
  | ok hvalue => exact .ok (himp _ _ hvalue)
  | error fault => exact .error fault

theorem bind {f : α → Except ε γ} {g : β → Except ε δ} (hxy : Outcomes related x y)
    (hnext : ∀ a b, related a b → Outcomes better (f a) (g b)) :
    Outcomes better (x.bind f) (y.bind g) := by
  cases hxy with
  | ok hvalue => exact hnext _ _ hvalue
  | error fault => exact .error fault

theorem map {f : α → γ} {g : β → δ} (hxy : Outcomes related x y)
    (hnext : ∀ a b, related a b → better (f a) (g b)) : Outcomes better (x.map f) (y.map g) := by
  cases hxy with
  | ok hvalue => exact .ok (hnext _ _ hvalue)
  | error fault => exact .error fault

theorem refl {same : α → α → Prop} (hsame : ∀ a, same a a) (x : Except ε α) :
    Outcomes same x x := by
  cases x with
  | ok value => exact .ok (hsame value)
  | error fault => exact .error fault

theorem foldlM {f : α → γ → Except ε α} {g : β → δ → Except ε β} {items : List γ}
    {others : List δ} (hitems : List.Forall₂ better items others) {a : α} {b : β}
    (hstart : related a b)
    (hstep : ∀ a b c d, related a b → better c d → Outcomes related (f a c) (g b d)) :
    Outcomes related (items.foldlM f a) (others.foldlM g b) := by
  induction hitems generalizing a b with
  | nil => exact .ok hstart
  | cons hitem _ ih =>
      rw [List.foldlM_cons, List.foldlM_cons]
      exact (hstep a b _ _ hstart hitem).bind fun a b hnext => ih hnext

end Outcomes

namespace Term

/-- A term with other contents in place of its own. -/
def rebuild (parts : List Term) : Term → Term
  | .list _ => .list parts
  | .tuple _ => .tuple parts
  | .sequence _ => .sequence parts
  | .mapping entries => .mapping ((entries.map Prod.fst).zip parts)
  | .record type fields => .record type ((fields.map Prod.fst).zip parts)
  | .application operator _ => .application (parts.headD operator) parts.tail
  | .lambda params body => .lambda params (parts.headD body)
  | .closure id params body home owner => .closure id params (parts.headD body) home owner
  | .conditional p c a => .conditional (parts.getD 0 p) (parts.getD 1 c) (parts.getD 2 a)
  | .assignment target value => .assignment target (parts.headD value)
  | .definition target value => .definition target (parts.headD value)
  | .quoted value => .quoted (parts.headD value)
  | other => other

theorem rebuild_contents (term : Term) : term.rebuild term.contents = term := by
  have hentries : ∀ entries : List (Scalar × Term),
      (entries.map Prod.fst).zip (entries.map Prod.snd) = entries :=
    fun entries => (List.zip_of_prod rfl rfl).symm
  cases term <;> simp [rebuild, contents, hentries]

theorem contents_rebuild {term : Term} {parts : List Term}
    (hlength : term.contents.length = parts.length) : (term.rebuild parts).contents = parts := by
  have hzip : ∀ {entries : List (Scalar × Term)}, entries.length = parts.length →
      ((entries.map Prod.fst).zip parts).map Prod.snd = parts := by
    intro entries hentries
    apply List.map_snd_zip
    rw [List.length_map, hentries]
  have hone : ∀ {part : Term}, [part].length = parts.length → [parts.headD part] = parts := by
    intro part hpart
    obtain ⟨single, rfl⟩ := List.length_eq_one_iff.mp hpart.symm
    rfl
  cases term with
  | list items => rfl
  | tuple items => rfl
  | sequence items => rfl
  | mapping entries => exact hzip (by simpa [contents] using hlength)
  | record type fields => exact hzip (by simpa [contents] using hlength)
  | closure id params body home owner => exact hone hlength
  | lambda params body => exact hone hlength
  | assignment target value => exact hone hlength
  | definition target value => exact hone hlength
  | quoted value => exact hone hlength
  | application operator operands =>
      cases parts with
      | nil => cases hlength
      | cons part rest => rfl
  | conditional p c a =>
      obtain ⟨x, y, z, rfl⟩ := List.length_eq_three.mp hlength.symm
      rfl
  | _ =>
      obtain rfl := List.eq_nil_of_length_eq_zero hlength.symm
      rfl

/-- How the bodies of closures may have been altered, which can depend on their numbers and on
their frames. -/
abbrev Alteration := Nat → FrameId → Term → Term → Prop

/-- Two terms differ in altered bodies only. -/
inductive Like (altered : Alteration) : Term → Term → Prop where
  | parts {term : Term} {parts : List Term}
      (hparts : List.Forall₂ (Like altered) term.contents parts) :
      Like altered term (term.rebuild parts)
  | body {id : Nat} {home : FrameId} {body other : Term} (hbody : altered id home body other)
      (params : List String) (owner : Option EvaluatorId) :
      Like altered (.closure id params body home owner) (.closure id params other home owner)

abbrev LikeEntries (altered : Alteration) :=
  List.Forall₂ fun entry other : Scalar × Term =>
    entry.1 = other.1 ∧ Like altered entry.2 other.2

namespace Like

variable {altered : Alteration} {a b c d : Term}

theorem refl (term : Term) : Like altered term term := by
  induction term using contents_induct with
  | h term ih =>
      have hparts : List.Forall₂ (Like altered) term.contents term.contents :=
        List.forall₂_same.mpr ih
      have hrebuilt := Like.parts hparts
      rwa [rebuild_contents] at hrebuilt

theorem forall₂_refl (terms : List Term) : List.Forall₂ (Like altered) terms terms :=
  List.forall₂_same.mpr fun term _ => refl term

theorem rel_refl {related : α → α → Prop} (hrelated : ∀ value, related value value)
    (value : Option α) : Option.Rel related value value := by
  cases value with
  | none => exact .none
  | some value => exact .some (hrelated value)

theorem mono {more : Alteration} (hlike : Like altered a b)
    (himp : ∀ id home body other, altered id home body other → more id home body other) :
    Like more a b := by
  induction a using contents_induct generalizing b with
  | h a ih =>
      cases hlike with
      | parts hparts =>
          have hmembers := (List.forall₂_and_left _ _).mpr ⟨fun part hpart => hpart, hparts⟩
          exact .parts (hmembers.imp fun part other hpart => ih part hpart.1 hpart.2)
      | body hbody params owner => exact .body (himp _ _ _ _ hbody) params owner

/-! ### Shapes -/

theorem exists_rebuild (hlike : Like altered a b) : ∃ parts, b = a.rebuild parts := by
  cases hlike with
  | parts hparts => exact ⟨_, rfl⟩
  | body hbody params owner => exact ⟨[_], rfl⟩

/-- What depends on the shape of a term only is the same for alike terms. -/
theorem apply_eq {f : Term → α} (hlike : Like altered a b)
    (hf : ∀ term parts, f (rebuild parts term) = f term) : f a = f b := by
  obtain ⟨parts, rfl⟩ := hlike.exists_rebuild
  exact (hf a parts).symm

theorem eq_of_contents (hlike : Like altered a b) (hempty : a.contents = []) : a = b := by
  cases hlike with
  | parts hparts =>
      rw [hempty, List.forall₂_nil_left_iff] at hparts
      rw [hparts, ← hempty, rebuild_contents]
  | body hbody params owner => cases hempty

theorem likeEntries_zip {entries : List (Scalar × Term)} {parts : List Term}
    (hparts : List.Forall₂ (Like altered) (entries.map Prod.snd) parts) :
    LikeEntries altered entries ((entries.map Prod.fst).zip parts) := by
  induction entries generalizing parts with
  | nil => exact .nil
  | cons entry rest ih =>
      obtain ⟨part, others, hpart, hrest, rfl⟩ := List.forall₂_cons_left_iff.mp hparts
      exact .cons ⟨rfl, hpart⟩ (ih hrest)

theorem zip_likeEntries {entries others : List (Scalar × Term)}
    (hentries : LikeEntries altered entries others) :
    (entries.map Prod.fst).zip (others.map Prod.snd) = others := by
  induction hentries with
  | nil => rfl
  | cons hentry _ ih => rw [List.map_cons, List.map_cons, List.zip_cons_cons, ih, hentry.1]

theorem of_entries {entries others : List (Scalar × Term)}
    (hentries : LikeEntries altered entries others) :
    List.Forall₂ (Like altered) (entries.map Prod.snd) (others.map Prod.snd) := by
  rw [List.forall₂_map_left_iff, List.forall₂_map_right_iff]
  exact hentries.imp fun _ _ hentry => hentry.2

theorem mapping_of_entries {entries others : List (Scalar × Term)}
    (hentries : LikeEntries altered entries others) :
    Like altered (.mapping entries) (.mapping others) := by
  have hparts : Like altered (.mapping entries) (rebuild (others.map Prod.snd) (.mapping entries)) :=
    .parts (of_entries hentries)
  rwa [rebuild, zip_likeEntries hentries] at hparts

theorem record_of_entries (type : RecordType) {fields others : List (Scalar × Term)}
    (hfields : LikeEntries altered fields others) :
    Like altered (.record type fields) (.record type others) := by
  have hparts : Like altered (.record type fields)
      (rebuild (others.map Prod.snd) (.record type fields)) := .parts (of_entries hfields)
  rwa [rebuild, zip_likeEntries hfields] at hparts

theorem closure_body (hlike : Like altered a b) {id : Nat} {params : List String} {home : FrameId}
    {owner : Option EvaluatorId} :
    Like altered (.closure id params a home owner) (.closure id params b home owner) := by
  have hparts : Like altered (.closure id params a home owner)
      (rebuild [b] (.closure id params a home owner)) := .parts (.cons hlike .nil)
  exact hparts

theorem isNode_eq (hlike : Like altered a b) : a.isNode = b.isNode :=
  hlike.apply_eq fun term _ => by cases term <;> rfl

theorem isTruthy_eq (hlike : Like altered a b) : a.isTruthy = b.isTruthy :=
  hlike.apply_eq fun term _ => by cases term <;> rfl

theorem text?_eq (hlike : Like altered a b) : a.text? = b.text? :=
  hlike.apply_eq fun term _ => by cases term <;> rfl

theorem isCallable_eq (hlike : Like altered a b) : a.isCallable = b.isCallable :=
  hlike.apply_eq fun term _ => by cases term <;> rfl

theorem number?_eq (hlike : Like altered a b) : Number.ofTerm? a = Number.ofTerm? b :=
  hlike.apply_eq fun term _ => by cases term <;> rfl

theorem whole?_eq (hlike : Like altered a b) : a.whole? = b.whole? := by
  rw [whole?, whole?, hlike.number?_eq]

theorem list (hlike : Like altered (.list items) b) :
    ∃ others, b = .list others ∧ List.Forall₂ (Like altered) items others := by
  cases hlike with
  | parts hparts => exact ⟨_, rfl, hparts⟩

theorem tuple (hlike : Like altered (.tuple items) b) :
    ∃ others, b = .tuple others ∧ List.Forall₂ (Like altered) items others := by
  cases hlike with
  | parts hparts => exact ⟨_, rfl, hparts⟩

theorem mapping {entries : List (Scalar × Term)} (hlike : Like altered (.mapping entries) b) :
    ∃ others, b = .mapping others ∧ LikeEntries altered entries others := by
  cases hlike with
  | parts hparts => exact ⟨_, rfl, likeEntries_zip hparts⟩

theorem record {type : RecordType} {fields : List (Scalar × Term)}
    (hlike : Like altered (.record type fields) b) :
    ∃ others, b = .record type others ∧ LikeEntries altered fields others := by
  cases hlike with
  | parts hparts => exact ⟨_, rfl, likeEntries_zip hparts⟩

theorem application {operator : Term} {operands : List Term}
    (hlike : Like altered (.application operator operands) b) :
    ∃ other others, b = .application other others ∧ Like altered operator other ∧
      List.Forall₂ (Like altered) operands others := by
  cases hlike with
  | parts hparts =>
      obtain ⟨other, others, hoperator, hoperands, rfl⟩ := List.forall₂_cons_left_iff.mp hparts
      exact ⟨other, others, rfl, hoperator, hoperands⟩

theorem lambda {params : List String} {body : Term} (hlike : Like altered (.lambda params body) b) :
    ∃ other, b = .lambda params other ∧ Like altered body other := by
  cases hlike with
  | parts hparts =>
      obtain ⟨other, rest, hbody, -, rfl⟩ := List.forall₂_cons_left_iff.mp hparts
      exact ⟨other, rfl, hbody⟩

theorem conditional {p q r : Term} (hlike : Like altered (.conditional p q r) b) :
    ∃ p' q' r', b = .conditional p' q' r' ∧ Like altered p p' ∧ Like altered q q' ∧
      Like altered r r' := by
  cases hlike with
  | parts hparts =>
      obtain ⟨p', _, hp, hqr, rfl⟩ := List.forall₂_cons_left_iff.mp hparts
      obtain ⟨q', _, hq, hlast, rfl⟩ := List.forall₂_cons_left_iff.mp hqr
      obtain ⟨r', _, hr, -, rfl⟩ := List.forall₂_cons_left_iff.mp hlast
      exact ⟨p', q', r', rfl, hp, hq, hr⟩

theorem assignment {target : String} {value : Term}
    (hlike : Like altered (.assignment target value) b) :
    ∃ other, b = .assignment target other ∧ Like altered value other := by
  cases hlike with
  | parts hparts =>
      obtain ⟨other, rest, hvalue, -, rfl⟩ := List.forall₂_cons_left_iff.mp hparts
      exact ⟨other, rfl, hvalue⟩

theorem definition {target : String} {value : Term}
    (hlike : Like altered (.definition target value) b) :
    ∃ other, b = .definition target other ∧ Like altered value other := by
  cases hlike with
  | parts hparts =>
      obtain ⟨other, rest, hvalue, -, rfl⟩ := List.forall₂_cons_left_iff.mp hparts
      exact ⟨other, rfl, hvalue⟩

theorem sequence {items : List Term} (hlike : Like altered (.sequence items) b) :
    ∃ others, b = .sequence others ∧ List.Forall₂ (Like altered) items others := by
  cases hlike with
  | parts hparts => exact ⟨_, rfl, hparts⟩

theorem quoted {value : Term} (hlike : Like altered (.quoted value) b) :
    ∃ other, b = .quoted other ∧ Like altered value other := by
  cases hlike with
  | parts hparts =>
      obtain ⟨other, rest, hvalue, -, rfl⟩ := List.forall₂_cons_left_iff.mp hparts
      exact ⟨other, rfl, hvalue⟩

theorem closure {id : Nat} {params : List String} {body : Term} {home : FrameId}
    {owner : Option EvaluatorId} (hlike : Like altered (.closure id params body home owner) b) :
    ∃ other, b = .closure id params other home owner ∧
      (Like altered body other ∨ altered id home body other) := by
  cases hlike with
  | parts hparts =>
      obtain ⟨other, rest, hbody, -, rfl⟩ := List.forall₂_cons_left_iff.mp hparts
      exact ⟨other, rfl, .inl hbody⟩
  | body hbody params owner => exact ⟨_, rfl, .inr hbody⟩

/-! ### Equality -/

theorem contents_of_not_isClosure (hlike : Like altered a b) (hclosure : a.isClosure = false) :
    List.Forall₂ (Like altered) a.contents b.contents := by
  cases hlike with
  | parts hparts => rwa [contents_rebuild hparts.length_eq]
  | body hbody params owner => cases hclosure

theorem head?_eq (hlike : Like altered a b) : a.head? = b.head? :=
  hlike.apply_eq fun term _ => by cases term <;> rfl

theorem orderedParts (hlike : Like altered a b) :
    List.Forall₂ (Like altered) a.orderedParts b.orderedParts := by
  cases a with
  | mapping entries =>
      obtain ⟨others, rfl, -⟩ := hlike.mapping
      exact .nil
  | record type fields =>
      obtain ⟨others, rfl, -⟩ := hlike.record
      exact .nil
  | closure id params body home owner =>
      obtain ⟨other, rfl, -⟩ := hlike.closure
      exact .nil
  | _ =>
      have hcontents := hlike.contents_of_not_isClosure rfl
      obtain ⟨parts, rfl⟩ := hlike.exists_rebuild
      exact hcontents

theorem keyedParts (hlike : Like altered a b) :
    LikeEntries altered a.keyedParts b.keyedParts := by
  cases a with
  | mapping entries =>
      obtain ⟨others, rfl, hothers⟩ := hlike.mapping
      exact hothers
  | record type fields =>
      obtain ⟨others, rfl, hothers⟩ := hlike.record
      exact hothers
  | _ =>
      obtain ⟨parts, rfl⟩ := hlike.exists_rebuild
      exact .nil

theorem equalAll_eq {items others lasts finals : List Term}
    (hitems : List.Forall₂ (Like altered) items others)
    (hlasts : List.Forall₂ (Like altered) lasts finals)
    (hequal : ∀ item ∈ items, ∀ {b c d}, Like altered item b → Like altered c d →
      item.equal c = b.equal d) : equalAll items lasts = equalAll others finals := by
  induction hitems generalizing lasts finals with
  | nil => cases hlasts <;> rfl
  | cons hitem hrest ih =>
      cases hlasts with
      | nil => rfl
      | cons hlast hmore =>
          rw [equalAll, equalAll, hequal _ List.mem_cons_self hitem hlast,
            ih hmore fun item hmem => hequal item (List.mem_cons_of_mem _ hmem)]

theorem find? {entries others : List (Scalar × Term)} (hentries : LikeEntries altered entries others)
    (key : Scalar) :
    Option.Rel (Like altered) (Entries.find? key entries) (Entries.find? key others) := by
  induction hentries with
  | nil => exact .none
  | @cons entry other _ _ hentry _ ih =>
      rw [Entries.find?, Entries.find?, List.find?_cons, List.find?_cons, ← hentry.1]
      split
      · exact .some hentry.2
      · exact ih

theorem equalEntries_eq {entries others lasts finals : List (Scalar × Term)}
    (hentries : LikeEntries altered entries others) (hlasts : LikeEntries altered lasts finals)
    (hequal : ∀ entry ∈ entries, ∀ {b c d}, Like altered entry.2 b → Like altered c d →
      entry.2.equal c = b.equal d) : equalEntries entries lasts = equalEntries others finals := by
  induction hentries with
  | nil => rfl
  | @cons entry other _ _ hentry _ ih =>
      have hrest := ih fun entry hmem => hequal entry (List.mem_cons_of_mem _ hmem)
      have hfound := find? hlasts entry.1
      rw [equalEntries, equalEntries, hrest, ← hentry.1]
      generalize Entries.find? entry.1 lasts = x, Entries.find? entry.1 finals = y at hfound ⊢
      cases hfound with
      | none => rfl
      | some hvalue => simp only [hequal entry List.mem_cons_self hentry.2 hvalue]

/-- Equality does not look into closures. -/
theorem equal_eq (hlike : Like altered a b) (hlike' : Like altered c d) :
    a.equal c = b.equal d := by
  induction a using contents_induct generalizing b c d with
  | h a ih =>
      have hordered := equalAll_eq hlike.orderedParts hlike'.orderedParts fun item hitem _ _ _ =>
        ih item (mem_contents_of_orderedParts hitem)
      have hkeyed := equalEntries_eq hlike.keyedParts hlike'.keyedParts fun entry hentry _ _ _ =>
        ih entry.2 (mem_contents_of_keyedParts hentry)
      rw [Bool.eq_iff_iff, equal_iff, equal_iff, hlike.head?_eq, hlike'.head?_eq, hordered, hkeyed,
        hlike.keyedParts.length_eq, hlike'.keyedParts.length_eq]

end Like

/-! ### Keys and shown forms -/

/-- The contents of a term, unless it is a closure, whose body nothing looks at. -/
def visible : Term → List Term
  | .closure .. => []
  | term => term.contents

def isHashable : Term → Bool
  | .list _ | .mapping _ => false
  | .record type _ => type.frozen
  | _ => true

theorem areKeys_eq_all (items : List Term) : areKeys items = items.all isKey := by
  induction items with
  | nil => rfl
  | cons item rest ih => rw [areKeys, ih, List.all_cons]

theorem areKeyEntries_eq_all (entries : List (Scalar × Term)) :
    areKeyEntries entries = (entries.map Prod.snd).all isKey := by
  induction entries with
  | nil => rfl
  | cons entry rest ih => rw [areKeyEntries, ih, List.map_cons, List.all_cons]

theorem isKey_eq_all (term : Term) : term.isKey = (term.isHashable && term.visible.all isKey) := by
  cases term <;>
    simp [isKey, isHashable, visible, contents, areKeys_eq_all, areKeyEntries_eq_all, Bool.and_assoc]

def isShowable : Term → Bool
  | .primitive callable => callable.isShown
  | .evaluator _ => false
  | _ => true

theorem areShown_eq_all (items : List Term) : areShown items = items.all isShown := by
  induction items with
  | nil => rfl
  | cons item rest ih => rw [areShown, ih, List.all_cons]

theorem areShownEntries_eq_all (entries : List (Scalar × Term)) :
    areShownEntries entries = (entries.map Prod.snd).all isShown := by
  induction entries with
  | nil => rfl
  | cons entry rest ih => rw [areShownEntries, ih, List.map_cons, List.all_cons]

theorem isShown_eq_all (term : Term) :
    term.isShown = (term.isShowable && term.visible.all isShown) := by
  cases term <;>
    simp [isShown, isShowable, visible, contents, areShown_eq_all, areShownEntries_eq_all,
      Bool.and_assoc]

theorem mem_contents_of_visible {part term : Term} (hpart : part ∈ term.visible) :
    part ∈ term.contents := by
  unfold visible at hpart
  split at hpart
  · cases hpart
  · exact hpart

namespace Like

variable {altered : Alteration} {a b c d : Term}

theorem visible (hlike : Like altered a b) :
    List.Forall₂ (Like altered) a.visible b.visible := by
  cases a with
  | closure id params body home owner =>
      obtain ⟨other, rfl, -⟩ := hlike.closure
      exact .nil
  | _ =>
      have hcontents := hlike.contents_of_not_isClosure rfl
      obtain ⟨parts, rfl⟩ := hlike.exists_rebuild
      exact hcontents

theorem all_eq {f : Term → Bool} {items others : List Term}
    (hitems : List.Forall₂ (Like altered) items others)
    (hf : ∀ item ∈ items, ∀ {other}, Like altered item other → f item = f other) :
    items.all f = others.all f := by
  induction hitems with
  | nil => rfl
  | cons hitem _ ih =>
      rw [List.all_cons, List.all_cons, hf _ List.mem_cons_self hitem,
        ih fun item hmem => hf item (List.mem_cons_of_mem _ hmem)]

theorem isKey_eq (hlike : Like altered a b) : a.isKey = b.isKey := by
  induction a using contents_induct generalizing b with
  | h a ih =>
      have hhashable : a.isHashable = b.isHashable :=
        hlike.apply_eq fun term _ => by cases term <;> rfl
      rw [isKey_eq_all, isKey_eq_all, hhashable,
        all_eq hlike.visible fun item hitem _ => ih item (mem_contents_of_visible hitem)]

theorem isShown_eq (hlike : Like altered a b) : a.isShown = b.isShown := by
  induction a using contents_induct generalizing b with
  | h a ih =>
      have hshowable : a.isShowable = b.isShowable :=
        hlike.apply_eq fun term _ => by cases term <;> rfl
      rw [isShown_eq_all, isShown_eq_all, hshowable,
        all_eq hlike.visible fun item hitem _ => ih item (mem_contents_of_visible hitem)]

section Shown

variable {scopes : FrameId → String}

theorem displayAll_eq {items others : List Term} (hitems : List.Forall₂ (Like altered) items others)
    (hshown : ∀ item ∈ items, ∀ {other}, Like altered item other →
      item.displayWith scopes = other.displayWith scopes) :
    displayAll scopes items = displayAll scopes others := by
  induction hitems with
  | nil => rfl
  | cons hitem _ ih =>
      exact congrArg₂ List.cons (hshown _ List.mem_cons_self hitem)
        (ih fun item hmem => hshown item (List.mem_cons_of_mem _ hmem))

theorem displayEntries_eq {entries others : List (Scalar × Term)}
    (hentries : LikeEntries altered entries others)
    (hshown : ∀ entry ∈ entries, ∀ {other}, Like altered entry.2 other →
      entry.2.displayWith scopes = other.displayWith scopes) :
    displayEntries scopes entries = displayEntries scopes others ∧
      displayFields scopes entries = displayFields scopes others := by
  induction hentries with
  | nil => exact ⟨rfl, rfl⟩
  | @cons entry other _ _ hentry _ ih =>
      obtain ⟨key, value⟩ := entry
      obtain ⟨_, value'⟩ := other
      obtain ⟨rfl, hvalue⟩ := hentry
      have hfirst := hshown _ List.mem_cons_self hvalue
      obtain ⟨hrest, hrest'⟩ := ih fun entry hmem => hshown entry (List.mem_cons_of_mem _ hmem)
      exact ⟨congrArg₂ (fun shown rest => (key.display ++ ": " ++ shown) :: rest) hfirst hrest,
        congrArg₂ (fun shown rest => (key.label ++ "=" ++ shown) :: rest) hfirst hrest'⟩

/-- Closures are shown by their parameters. -/
theorem displayWith_eq (hlike : Like altered a b) :
    a.displayWith scopes = b.displayWith scopes := by
  induction a using contents_induct generalizing b with
  | h a ih =>
      -- Of an entry only the value is inside of the term; the keys are the same on both sides.
      have hentry : ∀ {entries : List (Scalar × Term)}, entries.map Prod.snd = a.contents →
          ∀ entry ∈ entries, ∀ {other}, Like altered entry.2 other →
            entry.2.displayWith scopes = other.displayWith scopes := by
        intro entries hentries entry hmem other hother
        exact ih entry.2 (hentries ▸ List.mem_map_of_mem hmem) hother
      cases a with
      | list items =>
          obtain ⟨others, rfl, hothers⟩ := hlike.list
          exact congrArg Text.bracketed (displayAll_eq hothers fun item hitem _ => ih item hitem)
      | tuple items =>
          obtain ⟨others, rfl, hothers⟩ := hlike.tuple
          exact congrArg Text.parenthesized
            (displayAll_eq hothers fun item hitem _ => ih item hitem)
      | mapping entries =>
          obtain ⟨others, rfl, hothers⟩ := hlike.mapping
          exact congrArg Text.braced (displayEntries_eq hothers (hentry rfl)).1
      | record type fields =>
          obtain ⟨others, rfl, hothers⟩ := hlike.record
          exact congrArg (fun shown => type.label ++ "(" ++ ", ".intercalate shown ++ ")")
            (displayEntries_eq hothers (hentry rfl)).2
      | closure id params body home owner =>
          obtain ⟨other, rfl, -⟩ := hlike.closure
          rfl
      | application operator operands =>
          obtain ⟨other, others, rfl, hoperator, hoperands⟩ := hlike.application
          exact congrArg₂ (fun operator operands => "Application(operator=" ++ operator ++
            ", operands=" ++ Text.parenthesized operands ++ ")")
            (ih operator List.mem_cons_self hoperator)
            (displayAll_eq hoperands fun operand hoperand _ =>
              ih operand (List.mem_cons_of_mem operator hoperand))
      | lambda params body =>
          obtain ⟨other, rfl, hother⟩ := hlike.lambda
          exact congrArg (fun shown => "Lambda(params=" ++
            Text.parenthesized (params.map Text.quoted) ++ ", body=" ++ shown ++ ")")
            (ih body List.mem_cons_self hother)
      | conditional p q r =>
          obtain ⟨p', q', r', rfl, hp, hq, hr⟩ := hlike.conditional
          change "If(predicate=" ++ p.displayWith scopes ++ ", consequent=" ++
            q.displayWith scopes ++ ", alternative=" ++ r.displayWith scopes ++ ")" = _
          rw [ih p (by simp [contents]) hp, ih q (by simp [contents]) hq,
            ih r (by simp [contents]) hr]
          exact rfl
      | assignment target value =>
          obtain ⟨other, rfl, hother⟩ := hlike.assignment
          exact congrArg (fun shown => "Assignment(target_name=" ++ Text.quoted target ++
            ", value=" ++ shown ++ ")") (ih value List.mem_cons_self hother)
      | definition target value =>
          obtain ⟨other, rfl, hother⟩ := hlike.definition
          exact congrArg (fun shown => "Definition(target_name=" ++ Text.quoted target ++
            ", value=" ++ shown ++ ")") (ih value List.mem_cons_self hother)
      | sequence items =>
          obtain ⟨others, rfl, hothers⟩ := hlike.sequence
          exact congrArg (fun shown => "Sequence(expressions=" ++ Text.parenthesized shown ++ ")")
            (displayAll_eq hothers fun item hitem _ => ih item hitem)
      | quoted value =>
          obtain ⟨other, rfl, hother⟩ := hlike.quoted
          exact congrArg (fun shown => "Quoted(value=" ++ shown ++ ")")
            (ih value List.mem_cons_self hother)
      | _ => rw [hlike.eq_of_contents rfl]

end Shown

end Like

end Term
end Rulebook
