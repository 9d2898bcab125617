import Mathlib
import Rulebook.Primitive.Core
import Rulebook.Term.Display

/-!
# What is inside of terms

A term contains others: the items of a list, the values of a mapping, the parts of a node, the body
of a closure.  Whoever holds terms can take them apart and can build data and nodes from the pieces;
closures, environments, evaluators and their methods are references, which cannot be built.  A
property of terms is hereditary when it is kept by both moves.  The core operations make no others,
except that they read the attributes of closures.
-/

namespace Rulebook

namespace Term

/-- The terms directly inside of a term. -/
def contents : Term → List Term
  | .list items | .tuple items | .sequence items => items
  | .mapping entries | .record _ entries => entries.map Prod.snd
  | .application operator operands => operator :: operands
  | .lambda _ body | .closure _ _ body _ _ => [body]
  | .conditional p c a => [p, c, a]
  | .assignment _ value | .definition _ value | .quoted value => [value]
  | _ => []

/-- Whether a term refers to something outside of terms. -/
def isReference : Term → Bool
  | .closure .. | .scope _ | .evaluator _ | .primitive (.method _) => true
  | _ => false

def isClosure : Term → Bool
  | .closure .. => true
  | _ => false

/-- A property that is kept when terms are taken apart, and when data and nodes are built. -/
structure Hereditary (good : Term → Prop) : Prop where
  inside : ∀ {term}, good term → ∀ part ∈ term.contents, good part
  built : ∀ {term}, term.isReference = false → (∀ part ∈ term.contents, good part) → good term

def Yields (good : Term → Prop) (outcome : Except Fault Term) : Prop :=
  ∀ value, outcome = .ok value → good value

section Yields

variable {good : Term → Prop}

theorem yields_ok {value : Term} (hvalue : good value) : Yields good (.ok value) := by
  intro other hother
  cases hother
  exact hvalue

theorem yields_error (fault : Fault) : Yields good (.error fault) := by
  intro value hvalue
  cases hvalue

theorem yields_map {f : α → Term} (hf : ∀ a, good (f a)) (outcome : Except Fault α) :
    Yields good (outcome.map f) := by
  cases outcome with
  | error fault => exact yields_error fault
  | ok a => exact yields_ok (hf a)

theorem yields_foldlM {f : Term → Term → Except Fault Term} {items : List Term} {start : Term}
    (hf : ∀ a b, good a → good b → Yields good (f a b)) (hstart : good start)
    (hitems : ∀ item ∈ items, good item) : Yields good (items.foldlM f start) := by
  induction items generalizing start with
  | nil => exact yields_ok hstart
  | cons item rest ih =>
      rw [List.foldlM_cons]
      intro value hvalue
      cases hnext : f start item with
      | error fault =>
          rw [hnext] at hvalue
          cases hvalue
      | ok next =>
          rw [hnext] at hvalue
          have hgood := hf start item hstart (hitems item List.mem_cons_self) next hnext
          exact ih hgood (fun other hother => hitems other (List.mem_cons_of_mem item hother))
            value hvalue

end Yields

namespace Hereditary

variable {good : Term → Prop}

/-! ## Data -/

theorem scalar (hgood : Hereditary good) (s : Scalar) : good (.scalar s) :=
  hgood.built rfl fun _ hpart => absurd hpart List.not_mem_nil

theorem list (hgood : Hereditary good) {items : List Term} (hitems : ∀ item ∈ items, good item) :
    good (.list items) :=
  hgood.built rfl hitems

theorem tuple (hgood : Hereditary good) {items : List Term} (hitems : ∀ item ∈ items, good item) :
    good (.tuple items) :=
  hgood.built rfl hitems

theorem strs (hgood : Hereditary good) (texts : List String) :
    good (.tuple (texts.map Term.str)) := by
  apply hgood.tuple
  intro item hitem
  obtain ⟨text, _, rfl⟩ := List.mem_map.mp hitem
  exact hgood.scalar _

theorem mapping (hgood : Hereditary good) {entries : List (Scalar × Term)}
    (hentries : ∀ entry ∈ entries, good entry.2) : good (.mapping entries) := by
  apply hgood.built rfl
  intro part hpart
  obtain ⟨entry, hentry, rfl⟩ := List.mem_map.mp hpart
  exact hentries entry hentry

theorem record (hgood : Hereditary good) (type : RecordType) {fields : List (Scalar × Term)}
    (hfields : ∀ field ∈ fields, good field.2) : good (.record type fields) := by
  apply hgood.built rfl
  intro part hpart
  obtain ⟨field, hfield, rfl⟩ := List.mem_map.mp hpart
  exact hfields field hfield

theorem worded (hgood : Hereditary good) {term : Term} (hterm : good term) : good term.worded := by
  unfold Term.worded
  split
  · exact hgood.scalar _
  · exact hterm

theorem items (hgood : Hereditary good) {term : Term} {items : List Term} (hterm : good term)
    (hitems : term.items? = some items) : ∀ item ∈ items, good item := by
  unfold Term.items? at hitems
  split at hitems
  · cases hitems
    exact hgood.inside hterm
  · cases hitems
    exact hgood.inside hterm
  · cases hitems
    intro item hitem
    obtain ⟨entry, _, rfl⟩ := List.mem_map.mp hitem
    exact hgood.scalar _
  · rw [Option.map_eq_some_iff] at hitems
    obtain ⟨text, _, rfl⟩ := hitems
    intro item hitem
    obtain ⟨c, _, rfl⟩ := List.mem_map.mp hitem
    exact hgood.scalar _

/-! ## Arithmetic -/

theorem number (hgood : Hereditary good) (n : Number) : good n.toTerm := by
  cases n with
  | whole n => exact hgood.scalar _
  | double x => exact hgood.scalar _

theorem onNumbers (hgood : Hereditary good) (operation : Number → Number → Except Fault Number)
    (a b : Term) : Yields good (Term.onNumbers operation a b) := by
  unfold Term.onNumbers
  split
  · exact yields_map hgood.number _
  · exact yields_error _

theorem mem_of_repeated {items repetition : List α} {count : Int} {overlong : Fault}
    (hrepeated : repeated items count overlong = .ok repetition) {item : α}
    (hitem : item ∈ repetition) : item ∈ items := by
  unfold repeated at hrepeated
  simp only at hrepeated
  split_ifs at hrepeated
  · cases hrepeated
    exact absurd hitem List.not_mem_nil
  · cases hrepeated
    obtain ⟨copy, hcopy, hitem⟩ := List.mem_flatten.mp hitem
    rwa [List.eq_of_mem_replicate hcopy] at hitem

theorem repeatedItems {build : List Term → Term}
    (hbuild : ∀ {items : List Term}, (∀ item ∈ items, good item) → good (build items))
    {items : List Term} (hitems : ∀ item ∈ items, good item) (count : Int) (overlong : Fault) :
    Yields good ((repeated items count overlong).map build) := by
  intro value hvalue
  cases hrepeated : repeated items count overlong with
  | error fault =>
      rw [hrepeated] at hvalue
      cases hvalue
  | ok repetition =>
      rw [hrepeated] at hvalue
      cases hvalue
      exact hbuild fun item hitem => hitems item (mem_of_repeated hrepeated hitem)

theorem repeat? (hgood : Hereditary good) {term : Term} (hterm : good term) (count : Int) :
    Yields good (term.repeat? count) := by
  have hworded := hgood.worded hterm
  unfold Term.repeat?
  split
  · exact yields_map (fun _ => hgood.scalar _) _
  · rename_i items hitems
    rw [hitems] at hworded
    exact repeatedItems hgood.list (hgood.inside hworded) _ _
  · rename_i items hitems
    rw [hitems] at hworded
    exact repeatedItems hgood.tuple (hgood.inside hworded) _ _
  · exact yields_error _

theorem add (hgood : Hereditary good) (a b : Term) (ha : good a) (hb : good b) :
    Yields good (a.add b) := by
  have hfirst := hgood.worded ha
  have hsecond := hgood.worded hb
  unfold Term.add
  split
  · exact yields_ok (hgood.scalar _)
  · rename_i xs ys hxs hys
    rw [hxs] at hfirst
    rw [hys] at hsecond
    apply yields_ok
    exact hgood.list (List.forall_mem_append.mpr ⟨hgood.inside hfirst, hgood.inside hsecond⟩)
  · rename_i xs ys hxs hys
    rw [hxs] at hfirst
    rw [hys] at hsecond
    apply yields_ok
    exact hgood.tuple (List.forall_mem_append.mpr ⟨hgood.inside hfirst, hgood.inside hsecond⟩)
  · exact hgood.onNumbers _ _ _

theorem multiply (hgood : Hereditary good) (a b : Term) (ha : good a) (hb : good b) :
    Yields good (a.multiply b) := by
  unfold Term.multiply
  split
  · exact hgood.onNumbers _ _ _
  · split
    · exact hgood.repeat? ha _
    · exact hgood.repeat? hb _
    · exact yields_error _

theorem negate (hgood : Hereditary good) (term : Term) : Yields good term.negate := by
  unfold Term.negate
  split
  · exact yields_ok (hgood.number _)
  · exact yields_error _

/-! ## Properties -/

theorem mem_of_entries_find? {key : Scalar} {entries : List (Scalar × Term)} {value : Term}
    (hfound : Entries.find? key entries = some value) :
    ∃ entry ∈ entries, entry.1.equal key = true ∧ entry.2 = value := by
  rw [Entries.find?, Option.map_eq_some_iff] at hfound
  obtain ⟨entry, hentry, hvalue⟩ := hfound
  have hkey := List.find?_some (p := fun entry : Scalar × Term => entry.1.equal key) hentry
  exact ⟨entry, List.mem_of_find?_eq_some hentry, hkey, hvalue⟩

theorem fieldsOf {named : List (String × Term)} (hnamed : ∀ entry ∈ named, good entry.2) :
    ∀ field ∈ Term.fieldsOf named, good field.2 := by
  intro field hfield
  obtain ⟨entry, hentry, rfl⟩ := List.mem_map.mp hfield
  exact hnamed entry hentry

theorem parts (hgood : Hereditary good) {term : Term} (hterm : good term) :
    ∀ part ∈ term.parts, good part.2 := by
  have hinside := hgood.inside hterm
  intro part hpart
  cases term <;> simp only [Term.parts, List.mem_cons, List.not_mem_nil, or_false] at hpart
  case «variable» name =>
      subst hpart
      exact hgood.scalar _
  case application operator operands =>
      rcases hpart with rfl | rfl
      · exact hinside operator List.mem_cons_self
      · exact hgood.tuple fun item hitem => hinside item (List.mem_cons_of_mem operator hitem)
  case lambda params body =>
      rcases hpart with rfl | rfl
      · exact hgood.strs params
      · exact hinside body List.mem_cons_self
  case conditional p c a =>
      rcases hpart with rfl | rfl | rfl <;> exact hinside _ (by simp [Term.contents])
  case assignment target value =>
      rcases hpart with rfl | rfl
      · exact hgood.scalar _
      · exact hinside value List.mem_cons_self
  case definition target value =>
      rcases hpart with rfl | rfl
      · exact hgood.scalar _
      · exact hinside value List.mem_cons_self
  case sequence items =>
      subst hpart
      exact hgood.tuple hinside
  case quoted value =>
      subst hpart
      exact hinside value List.mem_cons_self

theorem attributes (hgood : Hereditary good) {term : Term} (hterm : good term)
    (hclosure : term.isClosure = false) : ∀ field ∈ term.attributes, good field.2 := by
  unfold Term.attributes
  split
  · intro field hfield
    exact hgood.inside hterm field.2 (List.mem_map_of_mem hfield)
  · cases hclosure
  · apply fieldsOf
    intro entry hentry
    simp only [List.mem_cons, List.not_mem_nil, or_false] at hentry
    rcases hentry with rfl | rfl <;> exact hgood.scalar _
  · apply fieldsOf
    rw [List.forall_mem_append]
    refine ⟨hgood.parts hterm, ?_⟩
    intro entry hentry
    rw [Option.mem_toList, Option.map_eq_some_iff] at hentry
    obtain ⟨kind, _, rfl⟩ := hentry
    exact hgood.built rfl fun _ hpart => absurd hpart List.not_mem_nil

theorem property? (hgood : Hereditary good) {term key value : Term} (hterm : good term)
    (hclosure : term.isClosure = false) (hvalue : term.property? key = .ok (some value)) :
    good value := by
  unfold Term.property? at hvalue
  split at hvalue
  · cases hvalue
  · rename_i entries
    unfold Term.entry? at hvalue
    split_ifs at hvalue
    rw [Except.ok.injEq] at hvalue
    split at hvalue
    · obtain ⟨entry, hentry, _, rfl⟩ := mem_of_entries_find? hvalue
      exact hgood.inside hterm entry.2 (List.mem_map_of_mem hentry)
    · cases hvalue
  · split at hvalue
    · rw [Except.ok.injEq] at hvalue
      obtain ⟨field, hfield, _, rfl⟩ := mem_of_entries_find? hvalue
      exact hgood.attributes hterm hclosure field hfield
    · cases hvalue

/-! ## Core operations -/

theorem folded {operation : Term → Term → Except Fault Term} {alone : Term → Except Fault Term}
    (hoperation : ∀ a b, good a → good b → Yields good (operation a b))
    (halone : ∀ a, Yields good (alone a)) {operands : List Term}
    (hoperands : ∀ operand ∈ operands, good operand) :
    Yields good (CorePrimitive.folded operation alone operands) := by
  unfold CorePrimitive.folded
  split
  · exact yields_error _
  · exact halone _
  · rename_i first rest _
    exact yields_foldlM hoperation (hoperands first List.mem_cons_self) fun item hitem =>
      hoperands item (List.mem_cons_of_mem first hitem)

theorem binary {operation : Term → Term → Except Fault Term}
    (hoperation : ∀ a b, good a → good b → Yields good (operation a b)) {operands : List Term}
    (hoperands : ∀ operand ∈ operands, good operand) :
    Yields good (CorePrimitive.binary operation operands) := by
  unfold CorePrimitive.binary
  split
  · exact hoperation _ _ (hoperands _ (by simp)) (hoperands _ (by simp))
  · exact yields_error _

/-- A core operation makes its value from its operands, once what it reads from the first is
good. -/
theorem apply (hgood : Hereditary good) {operation : CorePrimitive} {operands : List Term}
    (hoperands : ∀ operand ∈ operands, good operand)
    (hread : ∀ {term key : Term} {rest : List Term} {value : Term},
      operation = .getProperty → operands = term :: key :: rest →
        term.property? key = .ok (some value) → good value) :
    Yields good (operation.apply operands) := by
  have hbool : ∀ b, good (.bool b) := fun b => hgood.scalar _
  have hsubtract : ∀ a b, good a → good b → Yields good (a.subtract b) :=
    fun a b _ _ => hgood.onNumbers _ a b
  have hdivide : ∀ a b, good a → good b → Yields good (a.divide b) :=
    fun a b _ _ => hgood.onNumbers _ a b
  have hproperty : ∀ (default term key : Term) (rest : List Term), good default →
      operation = .getProperty → operands = term :: key :: rest →
        Yields good ((term.property? key).map (·.getD default)) := by
    intro default term key rest hdefault hget hshape value hvalue
    cases hfound : term.property? key with
    | error fault =>
        rw [hfound] at hvalue
        cases hvalue
    | ok found =>
        rw [hfound] at hvalue
        cases hvalue
        cases found with
        | none => exact hdefault
        | some value => exact hread hget hshape hfound
  cases operation with
  | and | or => exact yields_ok (hbool _)
  | not =>
      rcases operands with _ | ⟨operand, _ | ⟨second, rest⟩⟩
      · exact yields_error _
      · exact yields_ok (hbool _)
      · exact yields_error _
  | equal | less | greater | atMost | atLeast => exact yields_map hbool _
  | notEqual | same => exact binary (fun a b _ _ => yields_ok (hbool _)) hoperands
  | plus =>
      cases operands with
      | nil => exact yields_ok (hgood.scalar _)
      | cons first rest =>
          exact yields_foldlM hgood.add (hoperands first List.mem_cons_self) fun item hitem =>
            hoperands item (List.mem_cons_of_mem first hitem)
  | minus => exact folded hsubtract hgood.negate hoperands
  | times => exact yields_foldlM hgood.multiply (hgood.scalar _) hoperands
  | divide => exact folded hdivide (fun a => hgood.onNumbers _ _ a) hoperands
  | add => exact binary hgood.add hoperands
  | subtract => exact binary hsubtract hoperands
  | multiply => exact binary hgood.multiply hoperands
  | hasProperty =>
      rcases operands with _ | ⟨term, _ | ⟨key, _ | ⟨third, rest⟩⟩⟩
      · exact yields_error _
      · exact yields_error _
      · exact yields_map (fun _ => hbool _) _
      · exact yields_error _
  | getProperty =>
      rcases operands with _ | ⟨term, _ | ⟨key, _ | ⟨default, _ | ⟨fourth, rest⟩⟩⟩⟩
      · exact yields_error _
      · exact yields_error _
      · exact hproperty .null term key [] (hgood.scalar _) rfl rfl
      · exact hproperty default term key [default] (hoperands default (by simp)) rfl rfl
      · exact yields_error _
  | list => exact yields_ok (hgood.list hoperands)

end Hereditary

/-! ## Everything inside of a term -/

/-- A property holds of a term and of everything inside of it. -/
def Throughout (good : Term → Prop) (term : Term) : Prop :=
  ∀ part, Relation.ReflTransGen (fun whole part => part ∈ whole.contents) term part → good part

section Throughout

variable {good : Term → Prop}

theorem Throughout.self {term : Term} (hterm : Throughout good term) : good term :=
  hterm term .refl

theorem Throughout.of_mem {term part : Term} (hterm : Throughout good term)
    (hpart : part ∈ term.contents) : Throughout good part :=
  fun inner hinner => hterm inner (.head hpart hinner)

theorem Throughout.intro {term : Term} (hself : good term)
    (hcontents : ∀ part ∈ term.contents, Throughout good part) : Throughout good term := by
  intro inner hinner
  rcases Relation.ReflTransGen.cases_head hinner with rfl | ⟨part, hpart, hrest⟩
  · exact hself
  · exact hcontents part hpart inner hrest

theorem Throughout.mono {better : Term → Prop} {term : Term} (hterm : Throughout good term)
    (himp : ∀ part, good part → better part) : Throughout better term :=
  fun part hpart => himp part (hterm part hpart)

/-- A property of references alone is kept by taking apart and by building. -/
theorem hereditary_throughout (hgood : ∀ term : Term, term.isReference = false → good term) :
    Hereditary (Throughout good) where
  inside hterm _ hpart := hterm.of_mem hpart
  built hterm hcontents := .intro (hgood _ hterm) hcontents

end Throughout

/-! ## Environments in shown terms -/

def shownScope? : Term → Option FrameId
  | .scope frame | .primitive (.method (.scope _ frame)) => some frame
  | _ => none

/-- Whether two ways of showing environments show those of a term alike. -/
def ShowsAlike (scopes other : FrameId → String) (term : Term) : Prop :=
  ∀ frame ∈ term.shownScope?, scopes frame = other frame

section Shown

variable {scopes other : FrameId → String}

theorem display_congr {callable : Primitive}
    (halike : ShowsAlike scopes other (.primitive callable)) :
    callable.display scopes = callable.display other := by
  cases callable with
  | core operation => rfl
  | host name => rfl
  | method method =>
      cases method with
      | scope method frame =>
          exact congrArg (fun shown =>
            "<bound method Environment." ++ method.name ++ " of " ++ shown ++ ">")
            (halike frame rfl)
      | _ => rfl

mutual

-- The equations of `displayWith` hold by evaluation; texts are too large for `simp` to derive them.
theorem displayWith_congr (term : Term) (hterm : Throughout (ShowsAlike scopes other) term) :
    term.displayWith scopes = term.displayWith other := by
  have hinside : ∀ part ∈ term.contents, Throughout (ShowsAlike scopes other) part :=
    fun part hpart => hterm.of_mem hpart
  cases term with
  | list items => exact congrArg Text.bracketed (displayAll_congr items hinside)
  | tuple items => exact congrArg Text.parenthesized (displayAll_congr items hinside)
  | mapping entries =>
      have hentries := displayEntries_congr entries fun entry hentry =>
        hinside entry.2 (List.mem_map_of_mem hentry)
      exact congrArg Text.braced hentries
  | record type fields =>
      have hfields := displayFields_congr fields fun field hfield =>
        hinside field.2 (List.mem_map_of_mem hfield)
      exact congrArg (fun shown => type.label ++ "(" ++ ", ".intercalate shown ++ ")") hfields
  | primitive callable => exact display_congr hterm.self
  | scope frame => exact hterm.self frame rfl
  | application operator operands =>
      have hoperator := displayWith_congr operator (hinside operator List.mem_cons_self)
      have hoperands := displayAll_congr operands fun operand hoperand =>
        hinside operand (List.mem_cons_of_mem operator hoperand)
      exact congrArg₂ (fun operator operands => "Application(operator=" ++ operator ++
        ", operands=" ++ Text.parenthesized operands ++ ")") hoperator hoperands
  | lambda params body =>
      have hbody := displayWith_congr body (hinside body List.mem_cons_self)
      exact congrArg (fun shown => "Lambda(params=" ++
        Text.parenthesized (params.map Text.quoted) ++ ", body=" ++ shown ++ ")") hbody
  | conditional p c a =>
      have hp := displayWith_congr p (hinside p (by simp [contents]))
      have hc := displayWith_congr c (hinside c (by simp [contents]))
      have ha := displayWith_congr a (hinside a (by simp [contents]))
      change "If(predicate=" ++ p.displayWith scopes ++ ", consequent=" ++ c.displayWith scopes ++
        ", alternative=" ++ a.displayWith scopes ++ ")" = _
      rw [hp, hc, ha]
      exact rfl
  | assignment target value =>
      have hvalue := displayWith_congr value (hinside value List.mem_cons_self)
      exact congrArg (fun shown => "Assignment(target_name=" ++ Text.quoted target ++
        ", value=" ++ shown ++ ")") hvalue
  | definition target value =>
      have hvalue := displayWith_congr value (hinside value List.mem_cons_self)
      exact congrArg (fun shown => "Definition(target_name=" ++ Text.quoted target ++
        ", value=" ++ shown ++ ")") hvalue
  | sequence items =>
      exact congrArg (fun shown => "Sequence(expressions=" ++ Text.parenthesized shown ++ ")")
        (displayAll_congr items hinside)
  | quoted value =>
      have hvalue := displayWith_congr value (hinside value List.mem_cons_self)
      exact congrArg (fun shown => "Quoted(value=" ++ shown ++ ")") hvalue
  | _ => rfl
termination_by structural term

theorem displayAll_congr (items : List Term)
    (hitems : ∀ item ∈ items, Throughout (ShowsAlike scopes other) item) :
    displayAll scopes items = displayAll other items := by
  cases items with
  | nil => rfl
  | cons item rest =>
      have hrest := displayAll_congr rest fun part hpart =>
        hitems part (List.mem_cons_of_mem item hpart)
      exact congrArg₂ List.cons (displayWith_congr item (hitems item List.mem_cons_self)) hrest
termination_by structural items

theorem displayEntries_congr (entries : List (Scalar × Term))
    (hentries : ∀ entry ∈ entries, Throughout (ShowsAlike scopes other) entry.2) :
    displayEntries scopes entries = displayEntries other entries := by
  match entries with
  | [] => rfl
  | (key, value) :: rest =>
      have hvalue := displayWith_congr value (hentries _ List.mem_cons_self)
      have hrest := displayEntries_congr rest fun entry hentry =>
        hentries entry (List.mem_cons_of_mem _ hentry)
      exact congrArg₂ (fun shown rest => (key.display ++ ": " ++ shown) :: rest) hvalue hrest
termination_by structural entries

theorem displayFields_congr (fields : List (Scalar × Term))
    (hfields : ∀ field ∈ fields, Throughout (ShowsAlike scopes other) field.2) :
    displayFields scopes fields = displayFields other fields := by
  match fields with
  | [] => rfl
  | (key, value) :: rest =>
      have hvalue := displayWith_congr value (hfields _ List.mem_cons_self)
      have hrest := displayFields_congr rest fun field hfield =>
        hfields field (List.mem_cons_of_mem _ hfield)
      exact congrArg₂ (fun shown rest => (key.label ++ "=" ++ shown) :: rest) hvalue hrest
termination_by structural fields

end

end Shown

/-! ## Terms made from others -/

/-- What can be made from known terms by taking apart and building. -/
inductive Made (known : List Term) : Term → Prop where
  | known {term : Term} (hterm : term ∈ known) : Made known term
  | inside {term part : Term} (hterm : Made known term) (hpart : part ∈ term.contents) :
      Made known part
  | built {term : Term} (hterm : term.isReference = false)
      (hcontents : ∀ part ∈ term.contents, Made known part) : Made known term

theorem hereditary_made (known : List Term) : Hereditary (Made known) where
  inside hterm _ hpart := .inside hterm hpart
  built hterm hcontents := .built hterm hcontents

theorem Made.good {good : Term → Prop} (hgood : Hereditary good) {known : List Term}
    (hknown : ∀ term ∈ known, good term) {term : Term} (hterm : Made known term) : good term := by
  induction hterm with
  | known hterm => exact hknown _ hterm
  | inside hterm hpart ih => exact hgood.inside ih _ hpart
  | built hterm hcontents ih => exact hgood.built hterm ih

theorem Made.mono {known more : List Term} (hsub : known ⊆ more) {term : Term}
    (hterm : Made known term) : Made more term :=
  hterm.good (hereditary_made more) fun _ hknown => .known (hsub hknown)

end Term

end Rulebook
