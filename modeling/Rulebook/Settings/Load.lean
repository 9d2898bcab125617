import Rulebook.Document.Load

/-!
# Loading settings

Settings come as a text in YAML, as a mapping, or as a list of pairs, either at the top or in the
section for the engine.  Variables of the environment take precedence over what is written.
-/

namespace Rulebook
namespace Settings

/-- Variables of the environment. -/
abbrev Variables := List (String × String)

/-- The variable that overrides a field. -/
def variableOf (field : SettingField) : String :=
  "FINRULES_" ++ (String.ofList (field.key.toList.map Char.toUpper))

/-- The override of a field; an empty variable overrides nothing. -/
def override? (vars : Variables) (field : SettingField) : Option String :=
  (vars.lookup (variableOf field)).filter fun value => value ≠ ""

def withOverrides (vars : Variables) (entries : List (Scalar × Term)) :
    List (Scalar × Term) :=
  SettingField.all.foldl (fun entries field => match override? vars field with
    | some value => Entries.insert (.str field.key) (.str value) entries
    | none => entries) entries

/-- Values that count as nothing in place of a document. -/
def isNothing : Term → Bool
  | .null | .bool false | .int 0 | .str "" | .list [] | .mapping [] => true
  | .float x => x == 0.0
  | _ => false

def ofPairs : List Term → List (Scalar × Term) → Except LoadError (List (Scalar × Term))
  | [], entries => .ok entries
  | item :: rest, entries => match item.items? with
    | none => .error .pairsExpected
    | some [key, value] => match key with
      | .scalar key => ofPairs rest (Entries.insert key value entries)
      | _ => .error .pairsExpected
    | some _ => .error .unpaired

/-- The entries that are written, in whatever form. -/
def entriesOf (content : Term) : Except LoadError (List (Scalar × Term)) :=
  match content with
  | .str _ => do
    let data ← documentData content
    -- Whatever counts as nothing is an empty document, and so is an empty list.
    match if isNothing data then .mapping [] else data with
    | .mapping entries => .ok entries
    | _ => .error (.mappingExpected .settings)
  | .mapping entries => .ok entries
  | .list items => ofPairs items []
  | other => if isNothing other then .ok [] else .error .pairsExpected

/-- The section for the engine, if there is one, and everything otherwise. -/
def engineSection (entries : List (Scalar × Term)) : List (Scalar × Term) :=
  match Entries.find? (.str "engine") entries with
  | some (.mapping inner) => inner
  | _ => entries

/-- Loads settings. -/
def load (content : Term) (vars : Variables) : Except LoadError Settings := do
  let entries := withOverrides vars (engineSection (← entriesOf content))
  if Entries.haveTextKeys entries then LoadError.ofCheck (ofEntries entries)
  else .error .keysNotText

/-- Loads the settings of a file from its text, if there is such a file. -/
def loadFile (text : Option String) (vars : Variables) : Except LoadError Settings :=
  match text with
  | some text => load (.str text) vars
  | none => .error .noFile

end Settings
end Rulebook
