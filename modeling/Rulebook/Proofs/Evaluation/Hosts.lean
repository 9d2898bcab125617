import Rulebook.Proofs.Evaluation.Discipline

/-!
# Honest host functions

A host function is honest when it makes what it gives and what it calls out of what it was given:
it can take its arguments apart and build data, but it has no environments, closures or evaluators
of its own.  Whoever applies an honest function to what lies in a territory gets nothing that does
not.  The functions for calling back are honest, and as long as they call each other directly they
use up callables.
-/

namespace Rulebook

namespace HostProgram

/-- A program that makes all that it gives and calls out of known terms, and of what its callbacks
give. -/
def Honest (known : List Term) : HostProgram → Prop
  | .done outcome => ∀ value, outcome = .ok value → Term.Made known value
  | .call callee arguments next => Term.Made known callee ∧
    (∀ argument ∈ arguments, Term.Made known argument) ∧
    (∀ value, (next (.ok value)).Honest (value :: known)) ∧
    ∀ fault, (next (.error fault)).Honest known
  | .note _ next => next.Honest known

/-- A program that may make a call, if its callbacks give the right things. -/
inductive Makes (callee : Term) (arguments : List Term) : HostProgram → Prop
  | now (next : Except Fault Term → HostProgram) :
      Makes callee arguments (.call callee arguments next)
  | later {other : Term} {operands : List Term} {next : Except Fault Term → HostProgram}
      (outcome : Except Fault Term) (hnext : Makes callee arguments (next outcome)) :
      Makes callee arguments (.call other operands next)
  | noted {tag : Term} {next : HostProgram} (hnext : Makes callee arguments next) :
      Makes callee arguments (.note tag next)

end HostProgram

namespace HostLibrary

def Honest (library : HostLibrary) : Prop :=
  ∀ name arguments, (library name arguments).Honest arguments

/-- Applying one primitive to arguments may call another one directly, with no closure between. -/
inductive Calls (library : HostLibrary) : Primitive × List Term → Primitive × List Term → Prop
  | host {name : String} {arguments operands : List Term} {callable : Primitive}
      (hmakes : (library name arguments).Makes (.primitive callable) operands) :
      Calls library (callable, operands) (.host name, arguments)
  | apply {evaluator : EvaluatorId} {callable : Primitive} {collection : Term}
      {operands : List Term} (hitems : collection.items? = some operands) :
      Calls library (callable, operands)
        (.method (.evaluator .apply evaluator), [.primitive callable, collection])

end HostLibrary

namespace Discipline

variable {D : Discipline}

theorem keeps_of_honest (hstays : D.Stays) {program : HostProgram} {known : List Term}
    (hhonest : program.Honest known) {store : Store} (hknown : ∀ term ∈ known, D.Holds store term) :
    D.Keeps program store := by
  induction program generalizing known store with
  | done outcome =>
      exact fun value hvalue => (hhonest value hvalue).good (D.hereditary store) hknown
  | call callee arguments next ih =>
      obtain ⟨hcallee, harguments, hvalue, hfault⟩ := hhonest
      refine ⟨hcallee.good (D.hereditary store) hknown, fun argument hargument =>
        (harguments argument hargument).good (D.hereditary store) hknown, ?_⟩
      intro outcome after hlater houtcome
      have hknown' := hstays.forall_holds hlater hknown
      cases outcome with
      | error fault => exact ih _ (hfault fault) hknown'
      | ok value =>
          apply ih _ (hvalue value)
          rw [List.forall_mem_cons]
          exact ⟨houtcome value rfl, hknown'⟩
  | note tag next ih =>
      exact fun after hlater => ih hhonest (hstays.forall_holds hlater hknown)

theorem keeps_of_forall {store : Store}
    (hall : ∀ after, Store.Later store after → ∀ term, D.Holds after term) (program : HostProgram) :
    D.Keeps program store := by
  have hself : ∀ {store : Store}, Store.Later store store :=
    fun {store} => (Store.Resumes.refl store).toLater
  induction program generalizing store with
  | done outcome => exact fun value _ => hall store hself value
  | call callee arguments next ih =>
      refine ⟨hall store hself callee, fun argument _ => hall store hself argument, ?_⟩
      exact fun outcome after hlater _ =>
        ih outcome fun last hlast => hall last (hlater.trans hlast)
  | note tag next ih =>
      exact fun after hlater => ih fun last hlast => hall last (hlater.trans hlast)

end Discipline

/-! ## The functions for calling back -/

def callbackLibrary : HostLibrary := fun name =>
  (HostProgram.callbacks.lookup name).getD fun _ => .refuse

/-- What holds of every function for calling back, and of refusing, holds all over the library. -/
theorem forall_callbackLibrary (good : (List Term → HostProgram) → Prop)
    (hrefuse : good fun _ => .refuse) (hgood : ∀ entry ∈ HostProgram.callbacks, good entry.2)
    (name : String) : good (callbackLibrary name) := by
  rw [callbackLibrary]
  cases hfound : HostProgram.callbacks.lookup name with
  | none => exact hrefuse
  | some function =>
      rw [List.lookup_eq_some_iff] at hfound
      obtain ⟨front, back, hentries, _⟩ := hfound
      apply hgood (name, function)
      rw [hentries]
      simp

namespace HostProgram

theorem honest_mapItems {callee : Term} {known values : List Term} {items : List Term}
    (hcallee : Term.Made known callee) (hvalues : ∀ value ∈ values, Term.Made known value)
    (hitems : ∀ item ∈ items, Term.Made known item) :
    (mapItems callee values items).Honest known := by
  induction items generalizing known values with
  | nil =>
      rintro _ ⟨⟩
      apply (Term.hereditary_made known).list
      exact fun value hvalue => hvalues value (List.mem_reverse.mp hvalue)
  | cons item rest ih =>
      rw [List.forall_mem_cons] at hitems
      refine ⟨hcallee, by simpa using hitems.1, ?_, ?_⟩
      · intro value
        have hmore : ∀ {term}, Term.Made known term → Term.Made (value :: known) term :=
          fun hterm => hterm.mono (List.subset_cons_self value known)
        apply ih (hmore hcallee)
        · rw [List.forall_mem_cons]
          exact ⟨.known List.mem_cons_self, fun other hother => hmore (hvalues other hother)⟩
        · exact fun other hother => hmore (hitems.2 other hother)
      · rintro fault _ ⟨⟩

theorem honest_refuse (known : List Term) : refuse.Honest known := by
  rintro _ ⟨⟩

theorem honest_map (arguments : List Term) : (map arguments).Honest arguments := by
  unfold map
  split
  · rename_i callee collection
    have hgood := Term.hereditary_made [callee, collection]
    split
    · rename_i items hitems
      apply honest_mapItems (.known (by simp))
      · exact fun value hvalue => absurd hvalue List.not_mem_nil
      · exact hgood.items (.known (by simp)) hitems
    · exact honest_refuse _
  · exact honest_refuse _

theorem honest_invoke (arguments : List Term) : (invoke arguments).Honest arguments := by
  unfold invoke
  split
  · rename_i callee operands
    refine ⟨.known List.mem_cons_self, fun argument hargument =>
      .known (List.mem_cons_of_mem callee hargument), ?_, ?_⟩
    · rintro value _ ⟨⟩
      exact .known List.mem_cons_self
    · rintro fault _ ⟨⟩
  · exact honest_refuse _

theorem honest_attempt (arguments : List Term) : (attempt arguments).Honest arguments := by
  unfold attempt
  split
  · rename_i callee operands
    refine ⟨.known List.mem_cons_self, fun argument hargument =>
      .known (List.mem_cons_of_mem callee hargument), ?_, ?_⟩
    · rintro value _ ⟨⟩
      exact .known List.mem_cons_self
    · intro fault
      dsimp only
      split
      · rintro _ ⟨⟩
        exact (Term.hereditary_made _).scalar _
      · rintro _ ⟨⟩
  · exact honest_refuse _

theorem honest_takeNote (arguments : List Term) : (takeNote arguments).Honest arguments := by
  unfold takeNote
  split
  · rintro _ ⟨⟩
    exact .known List.mem_cons_self
  · exact honest_refuse _

theorem honest_nothing (arguments : List Term) : (nothing arguments).Honest arguments := by
  rintro _ ⟨⟩
  exact (Term.hereditary_made arguments).scalar _

end HostProgram

theorem honest_callbackLibrary : callbackLibrary.Honest := by
  apply forall_callbackLibrary (fun function => ∀ arguments, (function arguments).Honest arguments)
    HostProgram.honest_refuse
  intro entry hentry
  simp only [HostProgram.callbacks, List.mem_cons, List.not_mem_nil, or_false] at hentry
  rcases hentry with rfl | rfl | rfl | rfl | rfl
  · exact HostProgram.honest_map
  · exact HostProgram.honest_invoke
  · exact HostProgram.honest_attempt
  · exact HostProgram.honest_takeNote
  · exact HostProgram.honest_nothing

/-! ## Direct calls come to an end -/

mutual

/-- The number of callables that can be got out of lists. -/
def Term.callables : Term → Nat
  | .primitive _ => 1
  | .list items | .tuple items => Term.allCallables items
  | _ => 0
termination_by structural t => t

def Term.allCallables : List Term → Nat
  | [] => 0
  | item :: rest => item.callables + Term.allCallables rest
termination_by structural ts => ts

end

namespace Term

theorem allCallables_eq_zero {items : List Term} (hitems : ∀ item ∈ items, item.callables = 0) :
    allCallables items = 0 := by
  induction items with
  | nil => rfl
  | cons item rest ih =>
      rw [List.forall_mem_cons] at hitems
      rw [allCallables, hitems.1, ih hitems.2]

theorem callables_le_of_mem {item : Term} {items : List Term} (hitem : item ∈ items) :
    item.callables ≤ allCallables items := by
  induction items with
  | nil => exact absurd hitem List.not_mem_nil
  | cons first rest ih =>
      rw [allCallables]
      rcases List.mem_cons.mp hitem with rfl | hrest
      · omega
      · have hle := ih hrest
        omega

theorem allCallables_items {term : Term} {items : List Term} (hitems : term.items? = some items) :
    allCallables items ≤ term.callables := by
  unfold items? at hitems
  split at hitems
  · cases hitems
    exact Nat.le_refl _
  · cases hitems
    exact Nat.le_refl _
  · cases hitems
    rw [allCallables_eq_zero]
    · exact Nat.zero_le _
    · intro item hitem
      obtain ⟨entry, _, rfl⟩ := List.mem_map.mp hitem
      rfl
  · rw [Option.map_eq_some_iff] at hitems
    obtain ⟨text, _, rfl⟩ := hitems
    rw [allCallables_eq_zero]
    · exact Nat.zero_le _
    · intro item hitem
      obtain ⟨c, _, rfl⟩ := List.mem_map.mp hitem
      rfl

end Term

namespace HostProgram

/-- What is called directly has fewer callables to go on with. -/
def UsesUp (function : List Term → HostProgram) : Prop :=
  ∀ (arguments operands : List Term) (callable : Primitive),
    (function arguments).Makes (.primitive callable) operands →
      Term.allCallables operands < Term.allCallables arguments

theorem not_makes_done {callee : Term} {arguments : List Term} {outcome : Except Fault Term} :
    ¬ (done outcome).Makes callee arguments := by
  rintro ⟨⟩

theorem usesUp_refuse : UsesUp fun _ => refuse :=
  fun _ _ _ hmakes => absurd hmakes not_makes_done

theorem mem_of_makes_mapItems {callee other : Term} {values items operands : List Term}
    (hmakes : (mapItems callee values items).Makes other operands) :
    other = callee ∧ ∃ item ∈ items, operands = [item] := by
  induction items generalizing values with
  | nil => exact absurd hmakes not_makes_done
  | cons item rest ih =>
      cases hmakes with
      | now next => exact ⟨rfl, item, List.mem_cons_self, rfl⟩
      | later outcome hnext =>
          cases outcome with
          | error fault => exact absurd hnext not_makes_done
          | ok value =>
              obtain ⟨hcallee, found, hfound, hoperands⟩ := ih hnext
              exact ⟨hcallee, found, List.mem_cons_of_mem item hfound, hoperands⟩

theorem usesUp_map : UsesUp map := by
  intro arguments operands callable hmakes
  unfold map at hmakes
  split at hmakes
  · split at hmakes
    · rename_i callee collection _ items hitems
      obtain ⟨rfl, item, hitem, rfl⟩ := mem_of_makes_mapItems hmakes
      have hle := Nat.le_trans (Term.callables_le_of_mem hitem) (Term.allCallables_items hitems)
      simp only [Term.allCallables, Term.callables]
      omega
    · exact absurd hmakes not_makes_done
  · exact absurd hmakes not_makes_done

theorem usesUp_invoke : UsesUp invoke := by
  intro arguments operands callable hmakes
  unfold invoke at hmakes
  split at hmakes
  · cases hmakes with
    | now next =>
        simp only [Term.allCallables, Term.callables]
        omega
    | later outcome hnext => exact absurd hnext not_makes_done
  · exact absurd hmakes not_makes_done

theorem usesUp_attempt : UsesUp attempt := by
  intro arguments operands callable hmakes
  unfold attempt at hmakes
  split at hmakes
  · cases hmakes with
    | now next =>
        simp only [Term.allCallables, Term.callables]
        omega
    | later outcome hnext =>
        dsimp only at hnext
        split at hnext
        · exact absurd hnext not_makes_done
        · split at hnext
          · exact absurd hnext not_makes_done
          · exact absurd hnext not_makes_done
  · exact absurd hmakes not_makes_done

theorem usesUp_takeNote : UsesUp takeNote := by
  intro arguments operands callable hmakes
  unfold takeNote at hmakes
  split at hmakes
  · cases hmakes with
    | noted hnext => exact absurd hnext not_makes_done
  · exact absurd hmakes not_makes_done

end HostProgram

theorem wellFounded_calls_callbackLibrary : WellFounded callbackLibrary.Calls := by
  have husesUp : ∀ name, HostProgram.UsesUp (callbackLibrary name) := by
    apply forall_callbackLibrary HostProgram.UsesUp HostProgram.usesUp_refuse
    intro entry hentry
    simp only [HostProgram.callbacks, List.mem_cons, List.not_mem_nil, or_false] at hentry
    rcases hentry with rfl | rfl | rfl | rfl | rfl
    · exact HostProgram.usesUp_map
    · exact HostProgram.usesUp_invoke
    · exact HostProgram.usesUp_attempt
    · exact HostProgram.usesUp_takeNote
    · exact fun _ _ _ hmakes => absurd hmakes HostProgram.not_makes_done
  apply Subrelation.wf _ (measure fun call : Primitive × List Term => Term.allCallables call.2).wf
  intro inner outer hcalls
  change Term.allCallables inner.2 < Term.allCallables outer.2
  cases hcalls with
  | host hmakes => exact husesUp _ _ _ _ hmakes
  | apply hitems =>
      have hle := Term.allCallables_items hitems
      simp only [Term.allCallables, Term.callables]
      omega

end Rulebook
