import Rulebook.Document.Value
import Rulebook.Term.Display
import Rulebook.Term.Unfold

/-!
# Metadata of rules

What a rule says about itself.  Beside the three standard fields a rule may carry any others; these
are kept as they are.
-/

namespace Rulebook

structure Metadata where
  description : String := ""
  rationale : String := ""
  errorKey : Option String := none
  /-- The fields beyond the standard ones. -/
  extras : List (Scalar × Term) := []
  /-- The names of the fields that were given explicitly, extras included. -/
  given : List String := []
deriving Inhabited

namespace Metadata

def descriptionField : Field := .named "description"

def rationaleField : Field := .named "rationale"

/-- The key of the message for those whom the rule turns down, which has a second name. -/
def errorKeyField : Field where
  names := ["errorMessageKey", "error_key"]

/-- A key as a step of a path.  Integers that no signed word holds are shown as texts. -/
def pathStep : Scalar → PathStep
  | .str s => .key s
  | .int n => if Check.isWord n then .index n else .key (toString n)
  | .bool b => .index b.toInt
  | key => .key key.display

def keyIssues (entries : List (Scalar × Term)) : List Issue :=
  entries.filterMap fun entry => match entry.1 with
    | .str _ => none
    | key => some ⟨[pathStep key], .keyExpected⟩

def standardKeys (entries : List (Scalar × Term)) : List String :=
  [descriptionField, rationaleField, errorKeyField].filterMap fun field =>
    (field.find? entries).map Prod.fst

def extrasOf (entries : List (Scalar × Term)) : List (Scalar × Term) :=
  -- Where the error key is written under both of its names, the second one is an extra.
  entries.filter fun entry => match entry.1 with
    | .str key => !(standardKeys entries).contains key
    | _ => false

def givenBy (entries : List (Scalar × Term)) : List String :=
  let standard := [("description", descriptionField), ("rationale", rationaleField),
    ("error_key", errorKeyField)].filterMap fun (name, field) =>
      if field.isGiven entries then some name else none
  let extras := (extrasOf entries).map fun entry => match entry.1 with
    | .str key => key
    | _ => ""
  standard ++ extras.filter (!standard.contains ·)

def ofEntries (entries : List (Scalar × Term)) : Check Metadata :=
  let description := descriptionField.optional entries "" Check.text
  let rationale := rationaleField.optional entries "" Check.text
  let errorKey := errorKeyField.optional entries none Check.textOrNull
  let keys : Check Unit := match keyIssues entries with
    | [] => .ok ()
    | issues => .error issues
  (description.both (rationale.both (errorKey.both keys))).map
    fun (description, rationale, errorKey, _) =>
      { description, rationale, errorKey, extras := extrasOf entries, given := givenBy entries }

def ofTerm (term : Term) : Check Metadata :=
  match Check.entries term with
  | .ok entries => ofEntries entries
  | .error issues => .error issues

/-- Metadata as a mapping, with a name for the error key; the extras are shown as data. -/
def toTerm (metadata : Metadata) (errorKeyName : String) : Term :=
  .mapping (Entries.ofList
    ([(.str "description", .str metadata.description),
      (.str "rationale", .str metadata.rationale),
      (.str errorKeyName, (metadata.errorKey.map Term.str).getD .null)] ++
      Term.unfoldEntries metadata.extras))

end Metadata

end Rulebook
