import Rulebook.Document.Load
import Rulebook.Proofs.Malformed

/-!
# What checks let through

A check that accepts has accepted every part.  So of a document that is loaded each rule was checked
by itself, its name among others, and after that no two of them were found to have the same name.
-/

namespace Rulebook

namespace Check

variable {α β : Type}

theorem both_eq_ok {first : Check α} {second : Check β} {values : α × β}
    (hvalues : first.both second = .ok values) :
    first = .ok values.1 ∧ second = .ok values.2 := by
  rcases first with issues | a <;> rcases second with issues' | b
  · cases hvalues
  · cases hvalues
  · cases hvalues
  · cases hvalues
    exact ⟨rfl, rfl⟩

theorem within_eq_ok {check : Check α} {step : PathStep} {value : α}
    (hvalue : check.within step = .ok value) : check = .ok value := by
  cases check with
  | error issues => cases hvalue
  | ok other => exact hvalue

theorem all_eq_ok {checks : List (Check α)} {values : List α} (hvalues : all checks = .ok values) :
    List.Forall₂ (fun check value => check = .ok value) checks values := by
  induction checks generalizing values with
  | nil =>
      cases hvalues
      exact .nil
  | cons check rest ih =>
      obtain ⟨⟨value, others⟩, hboth, rfl⟩ := exists_of_map_eq_ok hvalues
      obtain ⟨hvalue, hothers⟩ := both_eq_ok hboth
      exact .cons hvalue (ih hothers)

theorem forall_mem_of_each {check : Term → Check α} {items : List Term} {values : List α}
    (hvalues : each check items = .ok values) :
    ∀ value ∈ values, ∃ item ∈ items, check item = .ok value := by
  have hall := List.forall₂_map_left_iff.mp (all_eq_ok hvalues)
  intro value hvalue
  obtain ⟨⟨item, i⟩, hitem, hchecked⟩ := exists_of_mem_right hall hvalue
  exact ⟨item, List.fst_mem_of_mem_zipIdx hitem, within_eq_ok hchecked⟩

end Check

namespace Field

variable {α : Type} {field : Field} {entries : List (Scalar × Term)} {check : Term → Check α}
  {value : α}

theorem exists_of_required (hvalue : field.required entries check = .ok value) :
    ∃ term, check term = .ok value := by
  unfold required at hvalue
  split at hvalue
  · exact ⟨_, Check.within_eq_ok hvalue⟩
  · cases hvalue

theorem eq_or_exists_of_optional {default : α}
    (hvalue : field.optional entries default check = .ok value) :
    value = default ∨ ∃ term, check term = .ok value := by
  unfold optional at hvalue
  split at hvalue
  · exact .inr ⟨_, Check.within_eq_ok hvalue⟩
  · cases hvalue
    exact .inl rfl

end Field

/-! ## Rules -/

namespace RuleDefinition

theorem isId_of_checkId {term : Term} {id : String} (hid : checkId term = .ok id) :
    isId id.toList = true := by
  unfold checkId at hid
  split at hid
  · split_ifs at hid with hchars
    · cases hid
      exact hchars
    · cases hid
  · cases hid

theorem isId_of_ofTerm {term : Term} {definition : RuleDefinition}
    (hdefinition : ofTerm term = .ok definition) : isId definition.id.toList = true := by
  unfold ofTerm at hdefinition
  split at hdefinition
  · obtain ⟨⟨id, rest⟩, hfields, rfl⟩ := exists_of_map_eq_ok hdefinition
    obtain ⟨term, hid⟩ := Field.exists_of_required (Check.both_eq_ok hfields).1
    exact isId_of_checkId hid
  · cases hdefinition

end RuleDefinition

/-! ## Documents -/

namespace RuleDocument

theorem nodup_of_duplicate? {seen : List String} {rules : List RuleDefinition}
    (hrules : duplicate? seen rules = none) :
    (rules.map RuleDefinition.id).Nodup ∧ ∀ rule ∈ rules, rule.id ∉ seen := by
  induction rules generalizing seen with
  | nil => exact ⟨.nil, fun rule hrule => absurd hrule List.not_mem_nil⟩
  | cons rule rest ih =>
      rw [duplicate?] at hrules
      split_ifs at hrules with hseen
      obtain ⟨hnodup, hrest⟩ := ih hrules
      rw [List.contains_iff_mem] at hseen
      have hne : rule.id ∉ rest.map RuleDefinition.id := by
        intro hmem
        obtain ⟨other, hother, hid⟩ := List.mem_map.mp hmem
        exact hrest other hother (hid ▸ List.mem_cons_self)
      refine ⟨List.nodup_cons.mpr ⟨hne, hnodup⟩, List.forall_mem_cons.mpr ⟨hseen, ?_⟩⟩
      exact fun other hother hmem => hrest other hother (List.mem_cons_of_mem _ hmem)

structure Named (document : RuleDocument) : Prop where
  isId : ∀ rule ∈ document.rules, RuleDefinition.isId rule.id.toList = true
  nodup : (document.rules.map RuleDefinition.id).Nodup

theorem named_of_checkRules {term : Term} {document : RuleDocument}
    (hrules : checkRules term = .ok document.rules) : document.Named := by
  unfold checkRules at hrules
  split at hrules
  · cases hrules
  · split at hrules
    · cases hrules
    · split at hrules
      · cases hrules
      · rename_i heach _ hduplicate
        cases hrules
        refine ⟨fun rule hrule => ?_, (nodup_of_duplicate? hduplicate).1⟩
        obtain ⟨item, -, hitem⟩ := Check.forall_mem_of_each heach rule hrule
        exact RuleDefinition.isId_of_ofTerm hitem

theorem named_of_ofEntries {entries : List (Scalar × Term)} {document : RuleDocument}
    (hdocument : ofEntries entries = .ok document) : document.Named := by
  obtain ⟨⟨rules, settings⟩, hfields, hbuilt⟩ := exists_of_map_eq_ok hdocument
  obtain rfl : rules = document.rules := by rw [← hbuilt]
  rcases Field.eq_or_exists_of_optional (Check.both_eq_ok hfields).1 with hnone | ⟨term, hrules⟩
  · have hempty : document.rules = [] := hnone
    exact ⟨by simp [hempty], by simp [hempty]⟩
  · exact named_of_checkRules hrules

/-- A document that is loaded has passed the check of its entries, of which there may be none. -/
theorem exists_of_load {content : Term} {document : RuleDocument}
    (hload : load content = .ok document) : ∃ entries, ofEntries entries = .ok document := by
  have hcheck : ∀ entries, LoadError.ofCheck (ofEntries entries) = .ok document →
      ofEntries entries = .ok document := by
    intro entries hok
    cases hentries : ofEntries entries with
    | error issues =>
        rw [hentries] at hok
        cases hok
    | ok other =>
        rw [hentries] at hok
        cases hok
        rfl
  obtain ⟨data, -, hdata⟩ := exists_of_bind_eq_ok hload
  split at hdata
  · exact ⟨_, hcheck _ hdata⟩
  · split_ifs at hdata
    exact ⟨_, hcheck _ hdata⟩
  · cases hdata

theorem named_of_load {content : Term} {document : RuleDocument}
    (hload : load content = .ok document) : document.Named := by
  obtain ⟨entries, hentries⟩ := exists_of_load hload
  exact named_of_ofEntries hentries

end RuleDocument

end Rulebook
