import Rulebook.Proofs.Evaluation.Hosts
import Rulebook.Proofs.Primitive.Likeness

/-!
# Blind host functions

A host function is blind when it does not see the bodies of closures: given alike arguments, and
alike outcomes of its callbacks, it makes alike calls and ends alike.  The functions for calling back
are blind.
-/

namespace Rulebook

/-- Programs that do the same with alike terms, as long as their callbacks give alike outcomes. -/
inductive HostProgram.Like : Term.Alteration → HostProgram → HostProgram → Prop where
  | done {altered : Term.Alteration} {x y : Except Fault Term}
      (houtcome : Outcomes (Term.Like altered) x y) : Like altered (.done x) (.done y)
  | call {altered : Term.Alteration} {callee other : Term} {arguments others : List Term}
      {next further : Except Fault Term → HostProgram} (hcallee : Term.Like altered callee other)
      (harguments : List.Forall₂ (Term.Like altered) arguments others)
      (hnext : ∀ more : Term.Alteration,
        (∀ id home body other, altered id home body other → more id home body other) →
          ∀ x y, Outcomes (Term.Like more) x y → Like more (next x) (further y)) :
      Like altered (.call callee arguments next) (.call other others further)
  | note {altered : Term.Alteration} {tag tag' : Term} {next further : HostProgram}
      (htag : Term.Like altered tag tag') (hnext : Like altered next further) :
      Like altered (.note tag next) (.note tag' further)

/-- A function that does not see the bodies of closures. -/
def HostProgram.Blind (function : List Term → HostProgram) : Prop :=
  ∀ (altered : Term.Alteration) arguments others,
    List.Forall₂ (Term.Like altered) arguments others →
      HostProgram.Like altered (function arguments) (function others)

def HostLibrary.Blind (library : HostLibrary) : Prop :=
  ∀ name, HostProgram.Blind (library name)

namespace HostProgram

variable {altered : Term.Alteration}

theorem like_refuse : Like altered refuse refuse :=
  .done (.error Fault.unfit)

theorem like_mapItems {callee other : Term} {values values' items items' : List Term}
    (hcallee : Term.Like altered callee other)
    (hvalues : List.Forall₂ (Term.Like altered) values values')
    (hitems : List.Forall₂ (Term.Like altered) items items') :
    Like altered (mapItems callee values items) (mapItems other values' items') := by
  induction items generalizing altered values values' items' with
  | nil =>
      obtain rfl := List.forall₂_nil_left_iff.mp hitems
      exact .done (.ok (.parts (List.rel_reverse hvalues)))
  | cons item rest ih =>
      obtain ⟨item', rest', hitem, hrest, rfl⟩ := List.forall₂_cons_left_iff.mp hitems
      apply Like.call hcallee (.cons hitem .nil)
      intro more hmore x y houtcome
      cases houtcome with
      | error fault => exact .done (.error fault)
      | ok hvalue =>
          have hmono : ∀ a b, Term.Like altered a b → Term.Like more a b :=
            fun _ _ hlike => hlike.mono hmore
          exact ih (hmono _ _ hcallee) (.cons hvalue (hvalues.imp hmono)) (hrest.imp hmono)

theorem blind_map : Blind map := by
  rintro altered _ _ (_ | ⟨hcallee, _ | ⟨hcollection, _ | ⟨hthird, hmore⟩⟩⟩)
  · exact like_refuse
  · exact like_refuse
  · have hitems := hcollection.items?
    rename_i collection collection'
    dsimp only [map]
    generalize collection.items? = x, collection'.items? = y at hitems
    cases hitems with
    | none => exact like_refuse
    | some hitems => exact like_mapItems hcallee .nil hitems
  · exact like_refuse

theorem blind_invoke : Blind invoke := by
  rintro altered _ _ (_ | ⟨hcallee, harguments⟩)
  · exact like_refuse
  · exact .call hcallee harguments fun more hmore x y houtcome => .done houtcome

theorem blind_attempt : Blind attempt := by
  rintro altered _ _ (_ | ⟨hcallee, harguments⟩)
  · exact like_refuse
  · apply Like.call hcallee harguments
    intro more hmore x y houtcome
    cases houtcome with
    | ok hvalue => exact .done (.ok hvalue)
    | error fault =>
        dsimp only
        cases fault.name? with
        | none => exact .done (.error fault)
        | some name => exact .done (.ok (.refl _))

theorem blind_takeNote : Blind takeNote := by
  rintro altered _ _ (_ | ⟨htag, _ | ⟨hsecond, hmore⟩⟩)
  · exact like_refuse
  · exact .note htag (.done (.ok htag))
  · exact like_refuse

theorem blind_nothing : Blind nothing :=
  fun _ _ _ _ => .done (.ok (.refl _))

end HostProgram

theorem blind_callbackLibrary : callbackLibrary.Blind := by
  apply forall_callbackLibrary HostProgram.Blind fun _ _ _ _ => HostProgram.like_refuse
  intro entry hentry
  simp only [HostProgram.callbacks, List.mem_cons, List.not_mem_nil, or_false] at hentry
  rcases hentry with rfl | rfl | rfl | rfl | rfl
  · exact HostProgram.blind_map
  · exact HostProgram.blind_invoke
  · exact HostProgram.blind_attempt
  · exact HostProgram.blind_takeNote
  · exact HostProgram.blind_nothing

end Rulebook
