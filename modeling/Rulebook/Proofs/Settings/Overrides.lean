import Rulebook.Proofs.Document.Reporting
import Rulebook.Proofs.Term.Equality

/-!
# Settings read with their rules and on their own

The section for the engine is read in two ways: inside a document, where it stands beside the
rules, and on its own, with variables that take precedence over what is written.  Each field is
checked by itself, so settings are determined by what is found under the keys of their fields.
Variables change what is found under the keys of the fields they override and nothing else, and
without variables both ways come to the same settings.
-/

namespace Rulebook

namespace Entries

variable {entries : List (Scalar × Term)} {key other : Scalar} {value : Term}

theorem find?_cons (entry : Scalar × Term) :
    find? key (entry :: entries) =
      if entry.1.equal key = true then some entry.2 else find? key entries := by
  unfold find?
  rw [List.find?_cons]
  split <;> simp [*]

theorem find?_insert_self (hkey : key.equal key = true) :
    find? key (insert key value entries) = some value := by
  induction entries with
  | nil => rw [insert, find?_cons, if_pos hkey]
  | cons entry rest ih =>
      rw [insert]
      split
      · rename_i hequal
        rw [find?_cons, if_pos hequal]
      · rename_i hdiffers
        rw [find?_cons, if_neg hdiffers, ih]

theorem find?_insert_of_not_equal (hdiffers : key.equal other = false) :
    find? other (insert key value entries) = find? other entries := by
  have hkey : ¬ key.equal other = true := by simp [hdiffers]
  induction entries with
  | nil => rw [insert, find?_cons, if_neg hkey]
  | cons entry rest ih =>
      rw [insert]
      split
      · rename_i hequal
        -- An entry with both keys would make them equal.
        have hentry : ¬ entry.1.equal other = true := fun hother =>
          hkey (Scalar.equal_trans (Scalar.equal_symm hequal) hother)
        rw [find?_cons, find?_cons, if_neg hentry, if_neg hentry]
      · rw [find?_cons, find?_cons, ih]

end Entries

namespace Check

variable {α β : Type}

theorem exists_of_both_eq_error {first : Check α} {second : Check β} {issues : List Issue}
    (hissues : first.both second = .error issues) :
    (∃ problems, first = .error problems) ∨ ∃ problems, second = .error problems := by
  rcases first with problems | a
  · exact .inl ⟨problems, rfl⟩
  · rcases second with problems | b
    · exact .inr ⟨problems, rfl⟩
    · cases hissues

theorem exists_of_within_eq_error {check : Check α} {step : PathStep} {issues : List Issue}
    (hissues : check.within step = .error issues) : ∃ problems, check = .error problems := by
  cases check with
  | error problems => exact ⟨problems, rfl⟩
  | ok value => cases hissues

end Check

/-! ## Field by field -/

/-- What a field can be set to. -/
def SettingField.Value : SettingField → Type
  | .matchStrategy => MatchStrategy
  | .conflictResolution => ConflictResolution
  | .logLevel => LogLevel
  | .maxDepth => Option Int

def SettingField.check : (field : SettingField) → Term → Check field.Value
  | .matchStrategy => Check.choice MatchStrategy.all MatchStrategy.name
  | .conflictResolution => Check.choice ConflictResolution.all ConflictResolution.name
  | .logLevel => Settings.checkLevel
  | .maxDepth => Check.positiveOrNull

def SettingField.default : (field : SettingField) → field.Value
  | .matchStrategy => ({} : Settings).matchStrategy
  | .conflictResolution => ({} : Settings).conflictResolution
  | .logLevel => ({} : Settings).logLevel
  | .maxDepth => ({} : Settings).maxDepth

theorem SettingField.key_injective {field other : SettingField} (hkey : field.key = other.key) :
    field = other := by
  cases field <;> cases other <;> first | rfl | exact absurd hkey (by decide)

theorem SettingField.mem_all (field : SettingField) : field ∈ all := by
  cases field <;> decide

namespace Settings

def value (settings : Settings) : (field : SettingField) → field.Value
  | .matchStrategy => settings.matchStrategy
  | .conflictResolution => settings.conflictResolution
  | .logLevel => settings.logLevel
  | .maxDepth => settings.maxDepth

/-- What is written for a field, as far as its check lets it through. -/
def checked (entries : List (Scalar × Term)) (which : SettingField) : Check which.Value :=
  field entries which which.default which.check

variable {entries others : List (Scalar × Term)} {which : SettingField}

theorem isGiven_named (name : String) :
    (Field.named name).isGiven entries = (Entries.find? (.str name) entries).isSome := by
  unfold Field.isGiven Field.find? Field.named
  cases hfound : Entries.find? (.str name) entries <;> simp [hfound]

theorem optional_named {α : Type} {name : String} {default : α} {check : Term → Check α} :
    (Field.named name).optional entries default check =
      match Entries.find? (.str name) entries with
      | some term => (check term).within (.key name)
      | none => .ok default := by
  unfold Field.optional Field.find? Field.named
  cases hfound : Entries.find? (.str name) entries <;> simp [hfound]

theorem checked_of_find?_some {term : Term}
    (hfound : Entries.find? (.str which.key) entries = some term) :
    checked entries which = (which.check term).within (.key which.key) := by
  rw [checked, field, optional_named, hfound]

theorem checked_congr (hfound : Entries.find? (.str which.key) entries =
      Entries.find? (.str which.key) others) :
    checked entries which = checked others which := by
  simp only [checked, field, optional_named, hfound]

theorem ofEntries_eq : ofEntries entries =
    ((checked entries .matchStrategy).both ((checked entries .conflictResolution).both
      ((checked entries .logLevel).both (checked entries .maxDepth)))).map
        fun (strategy, resolution, level, depth) =>
          { matchStrategy := strategy
            conflictResolution := resolution
            logLevel := level
            maxDepth := depth
            given := SettingField.all.filter fun which =>
              (Field.named which.key).isGiven entries } :=
  rfl

/-- Settings are what each of their fields was checked to be, together with which were given. -/
theorem ofEntries_eq_ok_iff {settings : Settings} :
    ofEntries entries = .ok settings ↔
      (∀ which, checked entries which = .ok (settings.value which)) ∧
        settings.given = SettingField.all.filter fun which =>
          (Entries.find? (.str which.key) entries).isSome := by
  simp only [← isGiven_named]
  rw [ofEntries_eq]
  constructor
  · intro hsettings
    obtain ⟨⟨strategy, resolution, level, depth⟩, hfields, rfl⟩ := exists_of_map_eq_ok hsettings
    obtain ⟨hstrategy, hothers⟩ := Check.both_eq_ok hfields
    obtain ⟨hresolution, hothers⟩ := Check.both_eq_ok hothers
    obtain ⟨hlevel, hdepth⟩ := Check.both_eq_ok hothers
    refine ⟨fun which => ?_, rfl⟩
    cases which with
    | matchStrategy => exact hstrategy
    | conflictResolution => exact hresolution
    | logLevel => exact hlevel
    | maxDepth => exact hdepth
  · rintro ⟨hchecked, hgiven⟩
    obtain ⟨strategy, resolution, level, depth, given⟩ := settings
    rw [hchecked .matchStrategy, hchecked .conflictResolution, hchecked .logLevel,
      hchecked .maxDepth]
    rw [← hgiven]
    rfl

/-- Settings that are rejected have a field that is. -/
theorem exists_of_ofEntries_eq_error {issues : List Issue}
    (hissues : ofEntries entries = .error issues) :
    ∃ which problems, checked entries which = .error problems := by
  rw [ofEntries_eq] at hissues
  cases hfields : (checked entries .matchStrategy).both ((checked entries .conflictResolution).both
      ((checked entries .logLevel).both (checked entries .maxDepth))) with
  | ok values =>
      rw [hfields] at hissues
      cases hissues
  | error problems =>
      rcases Check.exists_of_both_eq_error hfields with hstrategy | ⟨_, hothers⟩
      · exact ⟨_, hstrategy⟩
      rcases Check.exists_of_both_eq_error hothers with hresolution | ⟨_, hothers⟩
      · exact ⟨_, hresolution⟩
      rcases Check.exists_of_both_eq_error hothers with hlevel | hdepth
      · exact ⟨_, hlevel⟩
      · exact ⟨_, hdepth⟩

/-! ## Variables -/

/-- Whether a variable sets a field to a value; an empty variable sets nothing. -/
def Overrides (vars : Variables) (which : SettingField) (text : String) : Prop :=
  vars.lookup (variableOf which) = some text ∧ text ≠ ""

variable {vars : Variables}

theorem override?_eq_some_iff {text : String} :
    override? vars which = some text ↔ Overrides vars which text := by
  rw [override?, Option.filter_eq_some_iff, decide_eq_true_iff]
  rfl

/-- Entries with the override of one field put in. -/
def withOverride (vars : Variables) (entries : List (Scalar × Term)) (field : SettingField) :
    List (Scalar × Term) :=
  match override? vars field with
  | some text => Entries.insert (.str field.key) (.str text) entries
  | none => entries

theorem find?_withOverride (field : SettingField) :
    Entries.find? (.str which.key) (withOverride vars entries field) =
      if which = field then
        ((override? vars which).map Term.str).or (Entries.find? (.str which.key) entries)
      else Entries.find? (.str which.key) entries := by
  unfold withOverride
  split_ifs with hfield
  · subst hfield
    cases hoverride : override? vars which with
    | none => simp
    | some text =>
        have hequal : (Scalar.str which.key).equal (.str which.key) = true := by
          simp [Scalar.equal]
        simp [Entries.find?_insert_self hequal]
  · have hdiffers : (Scalar.str field.key).equal (.str which.key) = false := by
      rw [Scalar.equal, beq_eq_false_iff_ne]
      exact fun hkey => hfield (SettingField.key_injective hkey).symm
    cases override? vars field with
    | none => rfl
    | some text => exact Entries.find?_insert_of_not_equal hdiffers

theorem find?_foldl_withOverride (fields : List SettingField) :
    Entries.find? (.str which.key) (fields.foldl (withOverride vars) entries) =
      if which ∈ fields then
        ((override? vars which).map Term.str).or (Entries.find? (.str which.key) entries)
      else Entries.find? (.str which.key) entries := by
  induction fields generalizing entries with
  | nil => rfl
  | cons field rest ih =>
      rw [List.foldl_cons, ih, find?_withOverride]
      by_cases hfield : which = field
      · cases override? vars which <;> simp [hfield]
      · simp [hfield]

/-- Under the key of a field stands its override, and what was written if there is none. -/
theorem find?_withOverrides :
    Entries.find? (.str which.key) (withOverrides vars entries) =
      ((override? vars which).map Term.str).or (Entries.find? (.str which.key) entries) := by
  refine (find?_foldl_withOverride SettingField.all).trans ?_
  rw [if_pos which.mem_all]

/-- Settings with some fields overridden: those take the value of their variable, the others keep
what was written, and all of both kinds count as given. -/
structure Overridden (vars : Variables) (written settings : Settings) : Prop where
  taken : ∀ which text, Overrides vars which text →
    which.check (.str text) = .ok (settings.value which)
  kept : ∀ which, (∀ text, ¬ Overrides vars which text) →
    settings.value which = written.value which
  given : ∀ which, which ∈ settings.given ↔
    which ∈ written.given ∨ ∃ text, Overrides vars which text

theorem mem_given {settings : Settings} (hsettings : ofEntries entries = .ok settings) :
    which ∈ settings.given ↔ (Entries.find? (.str which.key) entries).isSome := by
  rw [(ofEntries_eq_ok_iff.mp hsettings).2, List.mem_filter]
  exact and_iff_right which.mem_all

theorem checked_of_overrides {text : String} (htext : Overrides vars which text) :
    checked (withOverrides vars entries) which =
      (which.check (.str text)).within (.key which.key) := by
  rw [← override?_eq_some_iff] at htext
  apply checked_of_find?_some
  rw [find?_withOverrides, htext]
  rfl

theorem checked_of_not_overrides (hnone : ∀ text, ¬ Overrides vars which text) :
    checked (withOverrides vars entries) which = checked entries which := by
  have hoverride : override? vars which = none :=
    Option.eq_none_iff_forall_ne_some.mpr fun text htext =>
      hnone text (override?_eq_some_iff.mp htext)
  apply checked_congr
  rw [find?_withOverrides, hoverride]
  rfl

/-- What is found under the keys of the fields tells overridden settings from those written. -/
theorem overridden_of_ofEntries {written settings : Settings}
    (hwritten : ofEntries entries = .ok written)
    (hsettings : ofEntries (withOverrides vars entries) = .ok settings) :
    Overridden vars written settings := by
  have hchecked := (ofEntries_eq_ok_iff.mp hsettings).1
  constructor
  case taken =>
    intro which text htext
    have hfield := hchecked which
    rw [checked_of_overrides htext] at hfield
    exact Check.within_eq_ok hfield
  case kept =>
    intro which hnone
    have hfield := hchecked which
    rw [checked_of_not_overrides hnone, (ofEntries_eq_ok_iff.mp hwritten).1 which] at hfield
    exact (Except.ok.inj hfield).symm
  case given =>
    intro which
    simp only [mem_given hsettings, mem_given hwritten, find?_withOverrides,
      ← override?_eq_some_iff, ← Option.isSome_iff_exists, Option.isSome_or, Option.isSome_map,
      Bool.or_eq_true, or_comm]

/-- If the fields as written are right, only a variable can make one wrong. -/
theorem exists_overrides_of_ofEntries_eq_error {written : Settings} {issues : List Issue}
    (hwritten : ofEntries entries = .ok written)
    (hissues : ofEntries (withOverrides vars entries) = .error issues) :
    ∃ which text problems, Overrides vars which text ∧
      which.check (.str text) = .error problems := by
  obtain ⟨which, problems, hproblems⟩ := exists_of_ofEntries_eq_error hissues
  by_cases hnone : ∀ text, ¬ Overrides vars which text
  · rw [checked_of_not_overrides hnone, (ofEntries_eq_ok_iff.mp hwritten).1 which] at hproblems
    cases hproblems
  · push Not at hnone
    obtain ⟨text, htext⟩ := hnone
    rw [checked_of_overrides htext] at hproblems
    obtain ⟨inside, hinside⟩ := Check.exists_of_within_eq_error hproblems
    exact ⟨which, text, inside, htext, hinside⟩

end Settings

/-! ## Both ways of reading the section -/

theorem LoadError.eq_ok_of_ofCheck {α : Type} {check : Check α} {value : α}
    (hvalue : ofCheck check = .ok value) : check = .ok value := by
  cases check with
  | error issues => cases hvalue
  | ok other => exact congrArg Except.ok (Except.ok.inj hvalue)

section Sections

variable {content : Term} {entries inner : List (Scalar × Term)}

/-- The settings that come with rules are those of the section for the engine. -/
theorem RuleDocument.ofEntries_of_loadRules {rules : List Rule} {settings : Settings}
    (hdata : documentData content = .ok (.mapping entries))
    (hengine : Entries.find? (.str "engine") entries = some (.mapping inner))
    (hrules : loadRules content = .ok (rules, settings)) :
    Settings.ofEntries inner = .ok settings := by
  obtain ⟨document, hload, hcompiled⟩ := exists_of_bind_eq_ok hrules
  obtain ⟨compiled, -, hsettings⟩ := exists_of_bind_eq_ok hcompiled
  cases hsettings
  rw [load, hdata] at hload
  obtain ⟨_, hkeys, hchecked⟩ := exists_of_bind_eq_ok hload
  cases hkeys
  dsimp only at hchecked
  split_ifs at hchecked
  obtain ⟨⟨_, _⟩, hfields, rfl⟩ := exists_of_map_eq_ok (LoadError.eq_ok_of_ofCheck hchecked)
  have hsection := (Check.both_eq_ok hfields).2
  rw [Settings.optional_named, hengine] at hsection
  exact Check.within_eq_ok hsection

namespace Settings

theorem entriesOf_of_documentData (hdata : documentData content = .ok (.mapping entries)) :
    entriesOf content = .ok entries := by
  cases content with
  | scalar value =>
      cases value with
      | str text => exact entriesOf_of_read (documentData_eq_ok_iff.mp hdata)
      | _ => cases hdata
  | mapping others =>
      cases hdata
      rfl
  | _ => cases hdata

theorem load_eq (hdata : documentData content = .ok (.mapping entries))
    (hengine : Entries.find? (.str "engine") entries = some (.mapping inner))
    (vars : Variables) :
    load content vars =
      if Entries.haveTextKeys inner then LoadError.ofCheck (ofEntries (withOverrides vars inner))
      else .error .keysNotText := by
  have hsection : engineSection entries = inner := by
    rw [engineSection, hengine]
  rw [load, entriesOf_of_documentData hdata]
  simp only [bind, Except.bind, hsection, haveTextKeys_withOverrides]

/-- A rule, a section for the engine and a version beside it. -/
def pricing : Term :=
  .mapping
    [(.str "version", .int 3),
     (.str "rules", .list
        [.mapping [(.str "id", .str "fee"), (.str "condition", .bool true),
          (.str "action", .int 1)]]),
     (.str "engine", .mapping
        [(.str "match_strategy", .str "priority"), (.str "log_level", .str "info")])]

/-- An empty variable leaves the level as it is written, and another sets the depth. -/
def pricingVariables : Variables :=
  [("FINRULES_LOG_LEVEL", ""), ("FINRULES_MAX_DEPTH", "50")]

end Settings

end Sections

end Rulebook
