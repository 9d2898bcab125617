import Rulebook.Proofs.Document.Compiling
import Rulebook.Settings.Load

/-!
# How loading reports what is wrong

Whatever is wrong with a text is reported as a fault of the document, with one exception: keys at
the top that are no texts make the attempt to look at the fields fail in another way.
-/

namespace Rulebook

/-- The errors that are faults of a document, as against those of what is passed for one. -/
def LoadError.isFault : LoadError → Bool
  | .unreadable | .mappingExpected _ | .invalid _ | .malformed _ _ => true
  | .keysNotText | .pairsExpected | .unpaired | .noFile | .valueless | .tooLarge => false

/-- Loading succeeds or reports a fault of the document. -/
def Reported (outcome : Except LoadError α) : Prop :=
  ∀ error, outcome = .error error → error.isFault = true

namespace Reported

variable {α β : Type}

theorem ok {value : α} : Reported (.ok value) := by
  intro error herror
  cases herror

theorem error_iff {error : LoadError} :
    Reported (.error error : Except LoadError α) ↔ error.isFault = true :=
  ⟨fun hreported => hreported error rfl, fun hfault _ herror => Except.error.inj herror ▸ hfault⟩

theorem ofCheck (check : Check α) : Reported (LoadError.ofCheck check) := by
  cases check with
  | ok value => exact ok
  | error issues => exact error_iff.mpr rfl

/-- Entries are checked if their keys are texts, and otherwise the failure is of another kind. -/
theorem keys_iff {keys : Bool} {check : Check α} :
    Reported (if keys = true then LoadError.ofCheck check else .error .keysNotText) ↔
      keys = true := by
  cases keys with
  | true => exact iff_of_true (ofCheck check) rfl
  | false => exact error_iff

/-- Steps report what is wrong if the first does and those that follow do, as far as it gets. -/
theorem bind_iff {first : Except LoadError α} {next : α → Except LoadError β} :
    Reported (first >>= next) ↔
      Reported first ∧ ∀ value, first = .ok value → Reported (next value) := by
  cases first with
  | error error =>
      have hnone : ∀ value, (.error error : Except LoadError α) = .ok value →
          Reported (next value) := by
        intro value hvalue
        cases hvalue
      exact ⟨fun hreported => ⟨error_iff.mpr (error_iff.mp hreported), hnone⟩,
        fun hreported => error_iff.mpr (error_iff.mp hreported.1)⟩
  | ok value =>
      refine ⟨fun hreported => ⟨ok, ?_⟩, fun hreported => hreported.2 value rfl⟩
      intro other hother
      exact Except.ok.inj hother ▸ hreported

end Reported

section Reading

variable {text : String}

theorem documentData_str (text : String) :
    documentData (.str text) = match Yaml.read text with
      | .ok data => .ok data
      | .error .malformed => .error .unreadable
      | .error .valueless => .error .valueless
      | .error .tooLarge => .error .tooLarge :=
  rfl

theorem documentData_eq_ok_iff {data : Term} :
    documentData (.str text) = .ok data ↔ Yaml.read text = .ok data := by
  rw [documentData_str]
  cases Yaml.read text with
  | ok other => simp only [Except.ok.injEq]
  | error problem =>
      constructor
      · intro hdata
        cases problem <;> cases hdata
      · intro hdata
        cases hdata

/-- A text that breaks the rules of the format is reported. -/
theorem reported_documentData
    (hread : ∀ problem, Yaml.read text = .error problem → problem = .malformed) :
    Reported (documentData (.str text)) := by
  rw [documentData_str]
  cases hdata : Yaml.read text with
  | ok data => exact Reported.ok
  | error problem =>
      cases hread problem hdata
      exact Reported.error_iff.mpr rfl

end Reading

namespace RuleDocument

theorem reported_compile (document : RuleDocument) : Reported document.compile := by
  intro error herror
  obtain ⟨_, _, _, _, _, _, _, rfl⟩ := exists_of_compile_eq_error herror
  rfl

theorem reported_loadRules_iff {content : Term} :
    Reported (loadRules content) ↔ Reported (load content) := by
  refine Reported.bind_iff.trans (and_iff_left fun document _ => ?_)
  exact Reported.bind_iff.mpr ⟨reported_compile document, fun rules _ => Reported.ok⟩

/-- Only keys that are no texts keep data from being checked, or found not to be a mapping. -/
theorem reported_load_iff {text : String}
    (hread : ∀ problem, Yaml.read text = .error problem → problem = .malformed) :
    Reported (load (.str text)) ↔
      ∀ entries, Yaml.read text = .ok (.mapping entries) →
        Entries.haveTextKeys entries = true := by
  refine Reported.bind_iff.trans ((and_iff_right (reported_documentData hread)).trans ?_)
  simp only [documentData_eq_ok_iff]
  constructor
  · intro hreported entries hentries
    exact Reported.keys_iff.mp (hreported _ hentries)
  · intro hkeys data hdata
    split
    · exact Reported.ofCheck _
    · exact Reported.keys_iff.mpr (hkeys _ hdata)
    · exact Reported.error_iff.mpr rfl

end RuleDocument

namespace Entries

variable {entries : List (Scalar × Term)}

/-- Setting a key that is a text makes no difference to whether the others are. -/
theorem haveTextKeys_insert (key : String) (value : Term) :
    haveTextKeys (insert (.str key) value entries) = haveTextKeys entries := by
  induction entries with
  | nil => rfl
  | cons entry rest ih =>
      rw [insert]
      split
      · rfl
      · simp only [haveTextKeys, List.all_cons] at ih ⊢
        rw [ih]

end Entries

namespace Settings

variable {entries : List (Scalar × Term)}

theorem haveTextKeys_withOverrides (vars : Variables) :
    Entries.haveTextKeys (withOverrides vars entries) = Entries.haveTextKeys entries := by
  unfold withOverrides
  generalize SettingField.all = fields
  induction fields generalizing entries with
  | nil => rfl
  | cons field rest ih =>
      rw [List.foldl_cons, ih]
      split
      · exact Entries.haveTextKeys_insert _ _
      · rfl

/-- What a text says is a mapping, and then those are the entries, or it counts as nothing. -/
theorem read_of_entriesOf {text : String} (hentries : entriesOf (.str text) = .ok entries) :
    Yaml.read text = .ok (.mapping entries) ∨ entries = [] := by
  obtain ⟨data, hdata, hmapping⟩ := exists_of_bind_eq_ok hentries
  rw [documentData_eq_ok_iff] at hdata
  split at hmapping
  · rename_i written hwritten
    cases hmapping
    split at hwritten
    · cases hwritten
      exact .inr rfl
    · exact .inl (hwritten ▸ hdata)
  · cases hmapping

theorem entriesOf_of_read {text : String} (hread : Yaml.read text = .ok (.mapping entries)) :
    entriesOf (.str text) = .ok entries := by
  have hdata := documentData_eq_ok_iff.mpr hread
  unfold entriesOf
  simp only [hdata]
  cases entries <;> rfl

theorem reported_entriesOf {text : String}
    (hread : ∀ problem, Yaml.read text = .error problem → problem = .malformed) :
    Reported (entriesOf (.str text)) := by
  refine Reported.bind_iff.mpr ⟨reported_documentData hread, fun data _ => ?_⟩
  split
  · exact Reported.ok
  · exact Reported.error_iff.mpr rfl

/-- The variables play no part in it: only keys of the section that are no texts are a failure of
another kind. -/
theorem reported_load_iff {text : String} {vars : Variables}
    (hread : ∀ problem, Yaml.read text = .error problem → problem = .malformed) :
    Reported (load (.str text) vars) ↔
      ∀ entries, Yaml.read text = .ok (.mapping entries) →
        Entries.haveTextKeys (engineSection entries) = true := by
  refine Reported.bind_iff.trans ((and_iff_right (reported_entriesOf hread)).trans ?_)
  simp only [Reported.keys_iff, haveTextKeys_withOverrides]
  constructor
  · intro hkeys entries hentries
    exact hkeys entries (entriesOf_of_read hentries)
  · intro hkeys entries hentries
    rcases read_of_entriesOf hentries with hmapping | rfl
    · exact hkeys entries hmapping
    · rfl

end Settings

/-- A mapping with a section for the engine and with a number for a key. -/
def numberedText : String :=
  "engine:\n  log_level: info\n1:"

def numberedEntries : List (Scalar × Term) :=
  [(.str "engine", .mapping [(.str "log_level", .str "info")]), (.int 1, .null)]

theorem read_numberedText : Yaml.read numberedText = .ok (.mapping numberedEntries) := by
  have htokens : Yaml.tokens numberedText.toList = .ok [
      .mappingStart, .key, .plain "engine", .value,
        .mappingStart, .key, .plain "log_level", .value, .plain "info", .blockEnd,
      .key, .plain "1", .value, .blockEnd] :=
    eq_ok_of_toOption (by decide +kernel)
  have hword : ∀ word ∈ ["engine", "log_level", "info"],
      Yaml.plainValue word = .ok (.str word) := by
    intro word hword
    exact eq_ok_of_toOption (by revert word; decide +kernel)
  have hone : Yaml.plainValue "1" = .ok (.int 1) := eq_ok_of_toOption (by decide +kernel)
  have hnothing : Yaml.plainValue "" = .ok .null := eq_ok_of_toOption (by decide +kernel)
  have hterm : Yaml.Node.toTerm (.mapping [
      (.plain "engine", .mapping [(.plain "log_level", .plain "info")]),
      (.plain "1", .plain "")]) = .ok (.mapping numberedEntries) := by
    simp [Yaml.Node.toTerm, Yaml.Node.toEntries, Yaml.Node.canMergeAmong, Yaml.Node.isMerge,
      Yaml.Node.toKey, Yaml.mergeSign, Yaml.defaultSign, hword, hone, hnothing]
    rfl
  have hchars : numberedText.toList.all Yaml.isDocumentChar = true := by decide
  have hbreaks : Yaml.unifyBreaks (Yaml.dropMark numberedText.toList) = numberedText.toList := by
    decide
  rw [Yaml.read, if_pos hchars, hbreaks, htokens]
  exact congrArg (Except.mapError Yaml.Obstacle.problem) hterm

end Rulebook
