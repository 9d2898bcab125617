import Rulebook.Proofs.Evaluation.Bounds
import Rulebook.Proofs.Evaluation.Territory

/-!
# Disciplines

A discipline is a territory together with the stores that look the same to whoever keeps to it.  If
it is lawful, that is, if every single operation respects it, then so does every run: two runs of a
task from stores that look the same agree.
-/

namespace Rulebook

/-- When stores look the same in a territory, and which primitives are applied. -/
structure Discipline extends Territory where
  related : Store → Store → Prop
  /-- The applications of primitives that runs are not stopped at. -/
  permits : Primitive → List Term → Bool
  /-- The applications of primitives that happen. -/
  allowed : Store → Primitive → List Term → Prop

def Machine.shownOperands (machine : Machine) (store : Store) :
    CorePrimitive → List Term → List Term
  | .hasProperty, term :: rest | .getProperty, term :: rest => machine.opened store term :: rest
  | _, operands => operands

namespace Territory

variable {T : Territory} {store : Store}

/-- What is shown of an environment or an evaluator lies in a territory, if environments that may be
looked into hold only what does and are inside of others that may be. -/
theorem holds_opened (machine : Machine)
    (hbindings : ∀ {frame}, T.opened store frame →
      ∀ binding ∈ store.bindings frame, T.Holds store binding.2)
    (hparents : ∀ {frame parent}, T.opened store frame → store.parent? frame = some parent →
      T.opened store parent) {term : Term} (hterm : T.Holds store term) :
    T.Holds store (machine.opened store term) := by
  have hgood := T.hereditary store
  unfold Machine.opened
  split
  · rename_i frame
    have hopened : T.opened store frame := hterm.self
    apply hgood.record
    apply Term.Hereditary.fieldsOf
    rw [Store.scopeAttributes, List.forall_mem_append]
    constructor
    · simp only [List.mem_cons, List.not_mem_nil, or_false, forall_eq_or_imp, forall_eq]
      refine ⟨Territory.Holds.toTerm (hbindings hopened), ?_, hgood.scalar _⟩
      cases hparent : store.parent? frame with
      | none => exact hgood.scalar _
      | some parent => exact .scope (hparents hopened hparent)
    · intro entry hentry
      obtain ⟨method, _, rfl⟩ := List.mem_map.mp hentry
      exact .method hopened
  · rename_i evaluator
    have hruns : T.runs evaluator := hterm.self
    apply hgood.record
    apply Term.Hereditary.fieldsOf
    rw [Machine.evaluatorAttributes, List.forall_mem_append]
    constructor
    · simp only [List.mem_cons, List.not_mem_nil, or_false, forall_eq_or_imp, forall_eq]
      refine ⟨?_, hgood.scalar _⟩
      cases machine.limit evaluator with
      | none => exact hgood.scalar _
      | some limit => exact hgood.scalar _
    · intro entry hentry
      obtain ⟨method, _, rfl⟩ := List.mem_map.mp hentry
      exact .method hruns
  · exact hterm

/-- A closure gives away what lies in a territory, if its environment may be looked into where it is
asked for it. -/
theorem holds_closureAttribute {id : Nat} {params : List String} {body : Term} {home : FrameId}
    {owner : Option EvaluatorId} {key value : Term}
    (hopens : ∀ {name}, key.text? = some name → name = "env" ∨ name = "bind_arguments" →
      T.opened store home)
    (hclosure : T.Holds store (.closure id params body home owner))
    (hvalue : (Term.closure id params body home owner).property? key = .ok (some value)) :
    T.Holds store value := by
  have hgood := T.hereditary store
  obtain ⟨hhome, _, hruns⟩ := hclosure.self
  simp only [Term.property?] at hvalue
  split at hvalue
  · rename_i name hkey
    rw [Except.ok.injEq] at hvalue
    obtain ⟨field, hfield, hname, rfl⟩ := Term.Hereditary.mem_of_entries_find? hvalue
    simp only [Term.attributes, Term.closureAttributes, Term.fieldsOf, List.map_cons, List.map_nil,
      List.mem_cons, List.not_mem_nil, or_false] at hfield
    rcases hfield with rfl | rfl | rfl | rfl | rfl | rfl
    · exact hgood.strs params
    · exact hgood.inside hclosure body List.mem_cons_self
    · exact .scope (hopens hkey (Or.inl (eq_of_beq hname).symm))
    · cases owner with
      | none => exact hgood.scalar _
      | some evaluator => exact .intro hruns fun _ hpart => absurd hpart List.not_mem_nil
    · exact hgood.scalar _
    · exact .method (hopens hkey (Or.inr (eq_of_beq hname).symm))
  · cases hvalue

/-- What a core operation gives lies in a territory. -/
theorem yields_applyCore {machine : Machine}
    (hopened : ∀ {term}, T.Holds store term → T.Holds store (machine.opened store term))
    {operation : CorePrimitive} {operands : List Term}
    (hclosure : ∀ {id params body home owner key rest value}, operation = .getProperty →
      operands = .closure id params body home owner :: key :: rest →
        (Term.closure id params body home owner).property? key = .ok (some value) →
          T.Holds store value)
    (hoperands : ∀ operand ∈ operands, T.Holds store operand) :
    Term.Yields (T.Holds store) (operation.apply (machine.shownOperands store operation operands)) := by
  have hshown : ∀ operand ∈ machine.shownOperands store operation operands,
      T.Holds store operand := by
    unfold Machine.shownOperands
    split
    · rw [List.forall_mem_cons] at hoperands ⊢
      exact ⟨hopened hoperands.1, hoperands.2⟩
    · rw [List.forall_mem_cons] at hoperands ⊢
      exact ⟨hopened hoperands.1, hoperands.2⟩
    · exact hoperands
  apply (T.hereditary store).apply hshown
  intro term key rest value hget hshape hvalue
  subst hget
  rcases operands with _ | ⟨operand, keys⟩
  · cases hshape
  · cases hshape
    cases operand with
    | closure id params body home owner => exact hclosure rfl rfl hvalue
    | _ => exact (T.hereditary store).property? (hshown _ List.mem_cons_self) rfl hvalue

end Territory

namespace Discipline

/-- Whether a task keeps to a discipline. -/
def Fits (D : Discipline) (store : Store) : Task → Prop
  | .eval evaluator term frame _ => D.runs evaluator ∧ D.home store frame ∧ D.Holds store term ∧
    ∀ access ∈ term.accesses, D.may store frame access
  | .apply evaluator callee arguments _ => D.runs evaluator ∧ D.Holds store callee ∧
    ∀ argument ∈ arguments, D.Holds store argument
  | .call callee arguments => D.Holds store callee ∧
    (∀ argument ∈ arguments, D.Holds store argument) ∧
    ∀ callable, callee = .primitive callable → D.permits callable arguments = true →
      D.allowed store callable arguments

/-- Whether a host program gives and calls only what is in reach, however its callbacks end. -/
def Keeps (D : Discipline) : HostProgram → Store → Prop
  | .done outcome, store => ∀ value, outcome = .ok value → D.Holds store value
  | .call callee arguments next, store => D.Holds store callee ∧
    (∀ argument ∈ arguments, D.Holds store argument) ∧
    ∀ outcome after, Store.Later store after →
      (∀ value, outcome = .ok value → D.Holds after value) → D.Keeps (next outcome) after
  | .note _ next, store => ∀ after, Store.Later store after → D.Keeps next after

/-- Every operation of a machine respects a discipline. -/
structure Lawful (D : Discipline) (machine : Machine) : Prop where
  framing : Store.Framing D.related
  size : ∀ {first second}, D.related first second → first.frames.size = second.frames.size
  parent : ∀ {first second}, D.related first second → ∀ id, first.parent? id = second.parent? id
  stays : D.Stays
  allowed_later : ∀ {before after callable arguments}, Store.Later before after →
    D.allowed before callable arguments → D.allowed after callable arguments
  lookup : ∀ {first second frame name}, D.related first second → D.home first frame →
    D.may first frame (.read name) → first.lookup? frame name = second.lookup? frame name ∧
      ∀ value ∈ first.lookup? frame name, D.Holds first value
  find : ∀ {first second frame name}, D.related first second → D.home first frame →
    D.may first frame (.assign name) → first.find? frame name = second.find? frame name
  assign : ∀ {first second frame name value found}, D.related first second →
    D.home first frame → D.may first frame (.assign name) → D.Holds first value →
      first.find? frame name = some found →
        D.related (first.define found name value) (second.define found name value)
  define : ∀ {first second frame name value}, D.related first second → D.home first frame →
    D.may first frame (.define name) → D.Holds first value →
      D.related (first.define frame name value) (second.define frame name value)
  push : ∀ {first second parent bindings}, D.related first second → D.home first parent →
    bindings.names.Nodup → (∀ binding ∈ bindings, D.Holds first binding.2) →
      D.related (first.push ⟨bindings, some parent⟩).1 (second.push ⟨bindings, some parent⟩).1
  home_push : ∀ {first second parent bindings}, D.related first second → D.home first parent →
    D.home (first.push ⟨bindings, some parent⟩).1 first.frames.size
  may_push : ∀ {first second parent bindings access}, D.related first second →
    D.may first parent access →
      D.may (first.push ⟨bindings, some parent⟩).1 first.frames.size access
  opened_push : ∀ {first second parent bindings}, D.related first second →
    D.opened first parent → D.opened (first.push ⟨bindings, some parent⟩).1 first.frames.size
  opened_bindings : ∀ {first second frame}, D.related first second → D.opened first frame →
    first.bindings frame = second.bindings frame ∧
      ∀ binding ∈ first.bindings frame, D.Holds first binding.2
  opened_parent : ∀ {first second frame parent}, D.related first second → D.opened first frame →
    first.parent? frame = some parent → D.opened first parent
  /-- A primitive is applied by an evaluator after this was noted. -/
  applied : ∀ {first second callable arguments}, D.related first second →
    D.permits callable arguments = true →
      D.allowed (first.log (.hostApplied callable arguments)) callable arguments
  /-- A primitive is applied by a host function. -/
  called : ∀ {store name arguments callable operands}, D.allowed store (.host name) arguments →
    D.permits callable operands = true → D.allowed store callable operands
  /-- Methods may do everything with an environment that is looked into. -/
  method : ∀ {store method arguments frame}, D.allowed store (.method method) arguments →
    D.opened store frame → D.home store frame ∧ ∀ access, D.may store frame access
  /-- A closure is asked for its environment. -/
  opens : ∀ {store id params body home owner key rest name},
    D.allowed store (.core .getProperty) (.closure id params body home owner :: key :: rest) →
      key.text? = some name → name = "env" ∨ name = "bind_arguments" →
        D.home store home → D.opened store home
  host : ∀ {store name arguments}, D.allowed store (.host name) arguments →
    (∀ argument ∈ arguments, D.Holds store argument) →
      D.Keeps (machine.host name arguments) store

variable {D : Discipline} {machine : Machine}

abbrev Agrees (D : Discipline) (good : Store → α → Prop) (run : Run α) (first second : Store) :
    Prop :=
  Run.Agree D.related good run run first second

namespace Lawful

variable {first second : Store}

/-! ## Looking along chains -/

theorem opened_chain (law : D.Lawful machine) (hstores : D.related first second)
    {frame : FrameId} (hframe : D.opened first frame) :
    ∀ other ∈ first.chain frame, D.opened first other :=
  Store.forall_mem_chain hframe fun _ _ hopened hparent =>
    law.opened_parent hstores hopened hparent

theorem displayScope_eq (law : D.Lawful machine) (hstores : D.related first second)
    {frame : FrameId} (hframe : D.opened first frame) :
    first.displayScope frame = second.displayScope frame :=
  Store.displayScope_congr (law.parent hstores) (law.opened_bindings hstores hframe).1

theorem display?_eq (law : D.Lawful machine) (hstores : D.related first second) {term : Term}
    (hterm : D.Holds first term) : first.display? term = second.display? term := by
  -- A message shows environments only by what they bind and how deep they are.
  have halike : Term.Throughout (Term.ShowsAlike first.displayScope second.displayScope) term := by
    refine hterm.mono fun part hpart frame hframe => ?_
    unfold Term.shownScope? at hframe
    split at hframe
    · cases hframe
      exact law.displayScope_eq hstores hpart
    · cases hframe
      exact law.displayScope_eq hstores hpart
    · cases hframe
  rw [Store.display?, Store.display?, Term.displayWith_congr term halike]

theorem find?_eq_of_opened (law : D.Lawful machine) (hstores : D.related first second)
    {frame : FrameId} (hframe : D.opened first frame) (name : String) :
    first.find? frame name = second.find? frame name := by
  apply Store.find?_congr (law.parent hstores)
  intro other hother
  rw [(law.opened_bindings hstores (law.opened_chain hstores hframe other hother)).1]

theorem scopeAttributes_eq (law : D.Lawful machine) (hstores : D.related first second)
    {frame : FrameId} (hframe : D.opened first frame) :
    first.scopeAttributes frame = second.scopeAttributes frame := by
  rw [Store.scopeAttributes, Store.scopeAttributes, (law.opened_bindings hstores hframe).1,
    law.parent hstores, Store.depth, Store.depth, Store.chain_congr (law.parent hstores)]

/-! ## Operations on names -/

theorem agree_lookup (law : D.Lawful machine) (hstores : D.related first second)
    {frame : FrameId} {name : String} (hhome : D.home first frame)
    (hmay : D.may first frame (.read name)) :
    D.Agrees D.Holds (Run.lookup frame name) first second := by
  obtain ⟨hsame, hvalue⟩ := law.lookup hstores hhome hmay
  apply Run.agree_get
  rw [← hsame]
  cases hlookup : first.lookup? frame name with
  | none => exact Run.agree_fail hstores _
  | some value => exact Run.agree_pure hstores (hvalue value hlookup)

theorem agree_assign (law : D.Lawful machine) (hstores : D.related first second)
    {frame : FrameId} {name : String} {value : Term} (hhome : D.home first frame)
    (hmay : D.may first frame (.assign name)) (hvalue : D.Holds first value) :
    D.Agrees D.Holds (Run.assign frame name value) first second := by
  apply Run.agree_get
  rw [Store.assign?, Store.assign?, ← law.find hstores hhome hmay]
  cases hfound : first.find? frame name with
  | none => exact Run.agree_fail hstores _
  | some found =>
      refine ⟨rfl, law.assign hstores hhome hmay hvalue hfound, .define first found name value, ?_⟩
      rintro _ ⟨⟩
      exact law.stays.holds (Store.Resumes.define first found name value).toLater hvalue

theorem agree_define (law : D.Lawful machine) (hstores : D.related first second)
    {frame : FrameId} {name : String} {value : Term} (hhome : D.home first frame)
    (hmay : D.may first frame (.define name)) (hvalue : D.Holds first value) :
    D.Agrees D.Holds (Run.define frame name value) first second := by
  refine ⟨rfl, law.define hstores hhome hmay hvalue, .define first frame name value, ?_⟩
  rintro _ ⟨⟩
  exact law.stays.holds (Store.Resumes.define first frame name value).toLater hvalue

structure Inside (D : Discipline) (before : Store) (parent : FrameId) (after : Store)
    (frame : FrameId) : Prop where
  home : D.home after frame
  may : ∀ access, D.may before parent access → D.may after frame access
  opened : D.opened before parent → D.opened after frame

theorem agree_extend (law : D.Lawful machine) (hstores : D.related first second)
    {parent : FrameId} {names : List String} {values : List Term} (hparent : D.home first parent)
    (hvalues : ∀ value ∈ values, D.Holds first value) :
    D.Agrees (Inside D first parent) (Run.extend (some parent) names values) first second := by
  unfold Run.extend
  split_ifs
  · exact Run.agree_fail hstores _
  have hpairs : ∀ binding ∈ Bindings.insertAll [] (names.zip values), D.Holds first binding.2 := by
    apply Bindings.forall_insertAll
    · exact fun _ hbinding => absurd hbinding List.not_mem_nil
    · exact fun pair hpair => hvalues pair.2 (List.of_mem_zip hpair).2
  have hnames := Bindings.nodup_names_insertAll_nil (names.zip values)
  refine ⟨?_, law.push hstores hparent hnames hpairs, .push first _, ?_⟩
  · exact congrArg Except.ok (law.size hstores)
  · rintro _ ⟨⟩
    exact ⟨law.home_push hstores hparent, fun _ => law.may_push hstores, law.opened_push hstores⟩

theorem agree_enter (law : D.Lawful machine) (hstores : D.related first second)
    {params : List String} {home : FrameId} {arguments : List Term} (hhome : D.home first home)
    (harguments : ∀ argument ∈ arguments, D.Holds first argument) :
    D.Agrees (Inside D first home) (Run.enter params home arguments) first second := by
  unfold Run.enter
  split_ifs
  · exact Run.agree_fail hstores _
  apply (law.agree_extend hstores hhome harguments).bind
  intro frame after after' _ hafter _ hinside
  apply (Run.agree_log law.framing hafter _).bind
  intro _ logged logged' hlog hlogged hresumes _
  apply Run.agree_pure hlogged
  exact ⟨law.stays.home hresumes.toLater hinside.home, fun access haccess =>
    law.stays.may hresumes.toLater (hinside.may access haccess), fun hopened =>
    law.stays.opened hresumes.toLater (hinside.opened hopened)⟩

/-! ## Methods -/

theorem agree_refuse (law : D.Lawful machine) (hstores : D.related first second) {value : Term}
    (hvalue : D.Holds first value) : D.Agrees D.Holds (Machine.refuse value) first second := by
  apply Run.agree_get
  rw [law.display?_eq hstores hvalue]
  exact Run.agree_fail hstores _

theorem agree_nameOf (law : D.Lawful machine) (hstores : D.related first second) {term : Term}
    (hterm : D.Holds first term) :
    D.Agrees (fun _ _ => True) (Run.nameOf term) first second := by
  unfold Run.nameOf
  split
  · exact Run.agree_pure hstores trivial
  · apply Run.agree_get
    rw [law.display?_eq hstores hterm]
    exact Run.agree_fail hstores _

theorem agree_newName (hstores : D.related first second) (term : Term) :
    D.Agrees (fun _ _ => True) (Run.newName term) first second := by
  unfold Run.newName
  split
  · exact Run.agree_pure hstores trivial
  · exact Run.agree_fail hstores _

theorem agree_itemsOf (hstores : D.related first second) {term : Term}
    (hterm : D.Holds first term) :
    D.Agrees (fun store items => ∀ item ∈ items, D.Holds store item) (Run.itemsOf term) first
      second := by
  unfold Run.itemsOf
  split
  · rename_i items hitems
    exact Run.agree_pure hstores ((D.hereditary first).items hterm hitems)
  · exact Run.agree_fail hstores _

theorem agree_extendBy (law : D.Lawful machine) (hstores : D.related first second)
    {frame : FrameId} {names values : Term} (hhome : D.home first frame)
    (hopened : D.opened first frame) (hnames : D.Holds first names)
    (hvalues : D.Holds first values) :
    D.Agrees D.Holds (Run.extendBy frame names values) first second := by
  apply (agree_itemsOf hstores hnames).bind
  intro names middle middle' _ hmiddle hresumes _
  apply (agree_itemsOf hmiddle (law.stays.holds hresumes.toLater hvalues)).bind
  intro values after after' _ hafter hresumes' hitems
  split_ifs
  · exact Run.agree_fail hafter _
  have hnew : D.Agrees (fun _ texts => ∀ text ∈ texts, True) (names.mapM Run.newName) after
      after' :=
    Run.agree_mapM hafter (fun _ _ _ _ _ => trivial) fun name _ _ _ hlater _ =>
      agree_newName hlater name
  apply hnew.bind
  intro texts later later' _ hlater hresumes'' _
  have hlaters := (hresumes.trans hresumes').trans hresumes''
  have hopened' := law.stays.opened hlaters.toLater hopened
  apply (law.agree_extend hlater (law.stays.home hlaters.toLater hhome)
    (law.stays.forall_holds hresumes''.toLater hitems)).map
  exact fun store new hinside => .scope (hinside.opened hopened')

theorem agree_isBound (law : D.Lawful machine) (hstores : D.related first second)
    {frame : FrameId} (hopened : D.opened first frame) (term : Term) :
    D.Agrees D.Holds (Run.isBound frame term) first second := by
  unfold Run.isBound
  split
  · apply Run.agree_get
    rw [Store.isBound_eq_isSome_find?, Store.isBound_eq_isSome_find?,
      law.find?_eq_of_opened hstores hopened]
    exact Run.agree_pure hstores ((D.hereditary first).scalar _)
  · split_ifs
    · exact Run.agree_pure hstores ((D.hereditary first).scalar _)
    · exact Run.agree_fail hstores _

theorem agree_callScope (law : D.Lawful machine) (hstores : D.related first second)
    {frame : FrameId} {method : ScopeMethod} {arguments : List Term}
    (hopened : D.opened first frame)
    (hallowed : D.allowed first (.method (.scope method frame)) arguments)
    (harguments : ∀ argument ∈ arguments, D.Holds first argument) :
    D.Agrees D.Holds (Run.callScope frame method arguments) first second := by
  obtain ⟨hhome, hmay⟩ := law.method hallowed hopened
  have hchain := law.opened_chain hstores hopened
  -- The cases are the methods, in the order of the definition.
  unfold Run.callScope
  split
  · apply Run.agree_get
    rw [Store.chain_congr (law.parent hstores)] at hchain ⊢
    apply Run.agree_pure hstores
    apply (D.hereditary first).tuple
    intro item hitem
    obtain ⟨other, hother, rfl⟩ := List.mem_map.mp hitem
    exact .scope (hchain other hother)
  · exact law.agree_extendBy hstores hhome hopened (harguments _ (by simp)) (harguments _ (by simp))
  · apply (law.agree_nameOf hstores (harguments _ (by simp))).bind
    intro name after after' _ hafter hresumes _
    have hopened' := law.stays.opened hresumes.toLater hopened
    have hfind : D.Agrees D.opened (Run.find frame name) after after' := by
      apply Run.agree_get
      rw [← law.find?_eq_of_opened hafter hopened']
      cases hfound : after.find? frame name with
      | none => exact Run.agree_fail hafter _
      | some found =>
          exact Run.agree_pure hafter
            (law.opened_chain hafter hopened' found (Store.mem_chain_of_find? hfound))
    exact hfind.map fun _ _ hfound => .scope hfound
  · apply (law.agree_nameOf hstores (harguments _ (by simp))).bind
    intro name after after' _ hafter hresumes _
    exact law.agree_lookup hafter (law.stays.home hresumes.toLater hhome)
      (law.stays.may hresumes.toLater (hmay _))
  · apply (agree_newName hstores _).bind
    intro name after after' _ hafter hresumes _
    exact law.agree_define hafter (law.stays.home hresumes.toLater hhome)
      (law.stays.may hresumes.toLater (hmay _))
      (law.stays.holds hresumes.toLater (harguments _ (by simp)))
  · apply (law.agree_nameOf hstores (harguments _ (by simp))).bind
    intro name after after' _ hafter hresumes _
    exact law.agree_assign hafter (law.stays.home hresumes.toLater hhome)
      (law.stays.may hresumes.toLater (hmay _))
      (law.stays.holds hresumes.toLater (harguments _ (by simp)))
  · exact law.agree_isBound hstores hopened _
  · apply Run.agree_get
    have hbindings : ∀ other ∈ first.chain frame,
        first.bindings other = second.bindings other ∧
          ∀ binding ∈ first.bindings other, D.Holds first binding.2 :=
      fun other hother => law.opened_bindings hstores (hchain other hother)
    rw [← Store.snapshot_congr (law.parent hstores) fun other hother => (hbindings other hother).1]
    apply Run.agree_pure hstores
    apply Territory.Holds.toTerm
    exact Store.forall_snapshot fun other hother => (hbindings other hother).2
  · exact Run.agree_fail hstores _

theorem agree_bindArguments (law : D.Lawful machine) (hstores : D.related first second)
    {params : List String} {home : FrameId} {arguments : List Term} (hhome : D.home first home)
    (hopened : D.opened first home) (harguments : ∀ argument ∈ arguments, D.Holds first argument) :
    D.Agrees D.Holds (Run.bindArguments params home arguments) first second := by
  unfold Run.bindArguments
  split
  · apply (agree_itemsOf hstores (harguments _ (by simp))).bind
    intro items after after' _ hafter hresumes hitems
    have hopened' := law.stays.opened hresumes.toLater hopened
    apply (law.agree_enter hafter (law.stays.home hresumes.toLater hhome) hitems).map
    exact fun store new hinside => .scope (hinside.opened hopened')
  · exact Run.agree_fail hstores _

/-! ## Core operations and closures -/

theorem agree_close (law : D.Lawful machine) (hstores : D.related first second)
    {params : List String} {body : Term} {home : FrameId} {evaluator : EvaluatorId}
    (hhome : D.home first home) (hbody : D.Holds first body)
    (hmay : ∀ access ∈ body.accesses, D.may first home access) (hruns : D.runs evaluator) :
    D.Agrees D.Holds (Machine.close params body home (some evaluator)) first second := by
  obtain ⟨hdepths, hclosures, hnotes, htrace⟩ := law.framing.rest hstores
  have hrest : Store.SameRest
      ({ first with closures := first.closures + 1 }.log (.closureCreated params))
      ({ second with closures := second.closures + 1 }.log (.closureCreated params)) := by
    refine ⟨hdepths, ?_, hnotes, ?_⟩
    · simp [Store.log, hclosures]
    · simp [Store.log, htrace]
  have hevents : ∃ events, (first.trace.push (.closureCreated params)).toList =
      first.trace.toList ++ events := ⟨[.closureCreated params], by simp⟩
  have hresumes : Store.Resumes first
      ({ first with closures := first.closures + 1 }.log (.closureCreated params)) :=
    .of_frames_eq rfl hevents rfl
  refine ⟨?_, law.framing.keep hstores rfl rfl hrest hevents, hresumes, ?_⟩
  · exact congrArg (fun id => Except.ok (Term.closure id params body home (some evaluator)))
      hclosures
  · rintro _ ⟨⟩
    exact law.stays.holds hresumes.toLater (.closure hhome hbody hmay (some evaluator) hruns _)

theorem opened_eq (law : D.Lawful machine) (hstores : D.related first second) {term : Term}
    (hterm : D.Holds first term) : machine.opened first term = machine.opened second term := by
  unfold Machine.opened
  split
  · rw [law.scopeAttributes_eq hstores hterm.self]
  · rw [Machine.evaluatorAttributes, Machine.evaluatorAttributes,
      (law.framing.rest hstores).callbackDepth]
  · rfl

theorem agree_applyCore (law : D.Lawful machine) (hstores : D.related first second)
    {operation : CorePrimitive} {operands : List Term}
    (hallowed : D.allowed first (.core operation) operands)
    (hoperands : ∀ operand ∈ operands, D.Holds first operand) :
    D.Agrees D.Holds (machine.applyCore operation operands) first second := by
  have hsame : machine.shownOperands first operation operands =
      machine.shownOperands second operation operands := by
    unfold Machine.shownOperands
    split
    · rw [law.opened_eq hstores (hoperands _ List.mem_cons_self)]
    · rw [law.opened_eq hstores (hoperands _ List.mem_cons_self)]
    · rfl
  apply Run.agree_get
  change Run.Agree _ _
    (Run.ofExcept (operation.apply (machine.shownOperands first operation operands)))
    (Run.ofExcept (operation.apply (machine.shownOperands second operation operands))) _ _
  rw [← hsame]
  apply Run.agree_ofExcept hstores
  apply Territory.yields_applyCore
  · exact Territory.holds_opened machine
      (fun hopened => (law.opened_bindings hstores hopened).2) (law.opened_parent hstores)
  · intro id params body home owner key rest value hget hshape hvalue
    subst hget hshape
    have hclosure := hoperands _ List.mem_cons_self
    -- The environment is not asked for unless it may be looked into.
    exact Territory.holds_closureAttribute
      (fun hkey hname => law.opens hallowed hkey hname hclosure.self.1) hclosure hvalue
  · exact hoperands

/-! ## Steps -/

section Steps

variable {self self' : Task → Run Term}

/-- Two ways to run tasks agree on those that fit, and keep to a discipline. -/
def Respects (D : Discipline) (self self' : Task → Run Term) : Prop :=
  ∀ {task first second}, D.related first second → D.Fits first task →
    Run.Agree D.related D.Holds (self task) (self' task) first second

theorem agree_callEvaluator (law : D.Lawful machine) (hself : Respects D self self')
    (hstores : D.related first second) {evaluator : EvaluatorId} {method : EvaluatorMethod}
    {arguments : List Term} (hruns : D.runs evaluator)
    (hallowed : D.allowed first (.method (.evaluator method evaluator)) arguments)
    (harguments : ∀ argument ∈ arguments, D.Holds first argument) :
    Run.Agree D.related D.Holds (Machine.callEvaluator self evaluator method arguments)
      (Machine.callEvaluator self' evaluator method arguments) first second := by
  unfold Machine.callEvaluator
  split
  · rename_i term scope
    apply Run.agree_get
    rw [(law.framing.rest hstores).callbackDepth]
    have hterm : D.Holds first term := harguments _ (by simp)
    split
    · rename_i frame
      have hopened : D.opened first frame := (harguments (.scope frame) (by simp)).self
      obtain ⟨hhome, hmay⟩ := law.method hallowed hopened
      exact hself hstores ⟨hruns, hhome, hterm, fun access _ => hmay access⟩
    · split_ifs
      · exact Run.agree_fail hstores _
      · exact Run.agree_pure hstores hterm
  · rename_i callee items
    have hcallee : D.Holds first callee := harguments _ (by simp)
    split_ifs
    · apply Run.agree_get
      rw [(law.framing.rest hstores).callbackDepth]
      apply (agree_itemsOf hstores (harguments items (by simp))).bind
      intro items after after' _ hafter hresumes hitems
      exact hself hafter ⟨hruns, law.stays.holds hresumes.toLater hcallee, hitems⟩
    · exact law.agree_refuse hstores hcallee
  · exact Run.agree_fail hstores _

theorem agree_ofProgram (law : D.Lawful machine) (hself : Respects D self self') {name : String}
    {arguments : List Term} {program : HostProgram} (hstores : D.related first second)
    (hallowed : D.allowed first (.host name) arguments) (hkeeps : D.Keeps program first) :
    Run.Agree D.related D.Holds
      (Run.ofProgram (fun callee arguments => self (.call callee arguments)) program)
      (Run.ofProgram (fun callee arguments => self' (.call callee arguments)) program)
      first second := by
  induction program generalizing first second with
  | done outcome => exact Run.agree_ofExcept hstores hkeeps
  | call callee operands next ih =>
      obtain ⟨hcallee, hoperands, hnext⟩ := hkeeps
      have hcall : Run.Agree D.related D.Holds (self (.call callee operands))
          (self' (.call callee operands)) first second :=
        hself hstores ⟨hcallee, hoperands, fun _ _ hpermits => law.called hallowed hpermits⟩
      apply hcall.observe.bind
      intro outcome after after' _ hafter hresumes houtcome
      exact ih outcome hafter (law.allowed_later hresumes.toLater hallowed)
        (hnext outcome after hresumes.toLater houtcome)
  | note tag next ih =>
      have hlater : Store.Resumes first { first with notes := first.notes.push tag } :=
        .of_frames_eq rfl ⟨[], (List.append_nil _).symm⟩ rfl
      have hnoted : D.Agrees (fun _ _ => True)
          (modify fun store => { store with notes := store.notes.push tag }) first second :=
        ⟨rfl, law.framing.note hstores tag, hlater, fun _ _ => trivial⟩
      apply hnoted.bind
      intro _ after after' _ hafter hresumes _
      exact ih hafter (law.allowed_later hresumes.toLater hallowed) (hkeeps after hresumes.toLater)

theorem agree_applyPrimitive (law : D.Lawful machine) (hself : Respects D self self')
    (hstores : D.related first second) {callable : Primitive} {arguments : List Term}
    (hallowed : D.allowed first callable arguments)
    (hcallable : D.Holds first (.primitive callable))
    (harguments : ∀ argument ∈ arguments, D.Holds first argument) :
    Run.Agree D.related D.Holds (machine.applyPrimitive self callable arguments)
      (machine.applyPrimitive self' callable arguments) first second := by
  cases callable with
  | core operation => exact law.agree_applyCore hstores hallowed harguments
  | host name =>
      exact law.agree_ofProgram hself hstores hallowed (law.host hallowed harguments)
  | method method =>
      cases method with
      | scope method frame =>
          exact law.agree_callScope hstores hcallable.self hallowed harguments
      | evaluator method evaluator =>
          exact law.agree_callEvaluator hself hstores hcallable.self hallowed harguments
      | bind id params home =>
          have hopened : D.opened first home := hcallable.self
          exact law.agree_bindArguments hstores (law.method hallowed hopened).1 hopened harguments

theorem fits_part (law : D.Lawful machine) {evaluator : EvaluatorId} {term part : Term}
    {frame : FrameId} {depth : Nat} {kind : NodeKind} {before after : Store}
    (hfits : D.Fits before (.eval evaluator term frame depth)) (hkind : term.kind? = some kind)
    (hquoted : kind ≠ .quoted) (hpart : part ∈ term.contents) (hlater : Store.Later before after)
    (other : Nat) : D.Fits after (.eval evaluator part frame other) := by
  obtain ⟨hruns, hhome, hterm, hmay⟩ := hfits
  have haccesses := Term.accesses_subset hkind hquoted hpart
  exact ⟨hruns, law.stays.home hlater hhome, law.stays.holds hlater (hterm.of_mem hpart),
    fun access haccess => law.stays.may hlater (hmay access (haccesses haccess))⟩

theorem agree_enter_fits (law : D.Lawful machine) (hstores : D.related first second)
    {evaluator : EvaluatorId} {id : Nat} {params : List String} {body : Term} {home : FrameId}
    {owner : Option EvaluatorId} {arguments : List Term} {depth : Nat}
    (hfits : D.Fits first (.apply evaluator (.closure id params body home owner) arguments depth)) :
    D.Agrees (fun store frame => D.Fits store (.eval evaluator body frame depth))
      (Run.enter params home arguments) first second := by
  obtain ⟨hruns, hcallee, harguments⟩ := hfits
  obtain ⟨hhome, hmay, _⟩ := hcallee.self
  have hentered : D.Agrees (Inside D first home) (Run.enter params home arguments) first second :=
    law.agree_enter hstores hhome harguments
  refine ⟨hentered.outcome, hentered.related, hentered.resumes, fun frame hframe => ?_⟩
  have hinside := hentered.good frame hframe
  exact ⟨hruns, hinside.home,
    law.stays.holds hentered.resumes.toLater (hcallee.of_mem List.mem_cons_self),
    fun access haccess => hinside.may access (hmay access haccess)⟩

theorem agree_stepNode (law : D.Lawful machine) (hself : Respects D self self')
    (hstores : D.related first second) {evaluator : EvaluatorId} {term : Term} {frame : FrameId}
    {depth : Nat} (hfits : D.Fits first (.eval evaluator term frame depth)) :
    Run.Agree D.related D.Holds (Machine.stepNode self evaluator frame depth term)
      (Machine.stepNode self' evaluator frame depth term) first second := by
  have hpart : ∀ {kind part}, term.kind? = some kind → kind ≠ .quoted → part ∈ term.contents →
      ∀ {after after'}, D.related after after' → Store.Resumes first after →
        Run.Agree D.related D.Holds (self (.eval evaluator part frame (depth + 1)))
          (self' (.eval evaluator part frame (depth + 1))) after after' :=
    fun hkind hquoted hmem _ _ hafter hresumes =>
      hself hafter (law.fits_part hfits hkind hquoted hmem hresumes.toLater (depth + 1))
  obtain ⟨hruns, hhome, hterm, hmay⟩ := hfits
  cases term with
  | «variable» name => exact law.agree_lookup hstores hhome (hmay _ List.mem_cons_self)
  | quoted value => exact Run.agree_pure hstores (hterm.of_mem List.mem_cons_self)
  | assignment target value =>
      apply (hpart rfl (by simp) List.mem_cons_self hstores (.refl first)).bind
      intro result after after' _ hafter hresumes hresult
      exact law.agree_assign hafter (law.stays.home hresumes.toLater hhome)
        (law.stays.may hresumes.toLater (hmay _ List.mem_cons_self)) hresult
  | definition target value =>
      apply (hpart rfl (by simp) List.mem_cons_self hstores (.refl first)).bind
      intro result after after' _ hafter hresumes hresult
      exact law.agree_define hafter (law.stays.home hresumes.toLater hhome)
        (law.stays.may hresumes.toLater (hmay _ List.mem_cons_self)) hresult
  | conditional p c a =>
      apply (hpart rfl (by simp) (by simp [Term.contents]) hstores (.refl first)).bind
      intro condition after after' _ hafter hresumes _
      split_ifs
      · exact hpart rfl (by simp) (by simp [Term.contents]) hafter hresumes
      · exact hpart rfl (by simp) (by simp [Term.contents]) hafter hresumes
  | sequence items =>
      apply Run.agree_foldlM hstores ((D.hereditary first).scalar _)
      intro item hitem _ after after' hafter hresumes
      exact hpart rfl (by simp) hitem hafter hresumes
  | lambda params body =>
      exact law.agree_close hstores hhome (hterm.of_mem List.mem_cons_self) hmay hruns
  | application operator operands =>
      apply (hpart rfl (by simp) List.mem_cons_self hstores (.refl first)).bind
      intro callee middle middle' _ hmiddle hresumes hcallee
      have hoperands : Run.Agree D.related
          (fun store values => ∀ value ∈ values, D.Holds store value)
          (operands.mapM fun operand => self (.eval evaluator operand frame (depth + 1)))
          (operands.mapM fun operand => self' (.eval evaluator operand frame (depth + 1)))
          middle middle' := by
        apply Run.agree_mapM hmiddle law.stays.lasts
        intro operand hoperand after after' hafter hresumes'
        exact hpart rfl (by simp) (List.mem_cons_of_mem _ hoperand) hafter
          (hresumes.trans hresumes')
      apply hoperands.bind
      intro arguments after after' _ hafter hresumes' harguments
      exact hself hafter ⟨hruns, law.stays.holds hresumes'.toLater hcallee, harguments⟩
  | _ => exact Run.agree_fail hstores _

theorem agree_step (law : D.Lawful machine) (hself : Respects D self self')
    (hstores : D.related first second) {task : Task} (hfits : D.Fits first task)
    (hpermits : task.isPermitted D.permits = true) :
    Run.Agree D.related D.Holds (machine.step self task) (machine.step self' task) first
      second := by
  cases task with
  | eval evaluator term frame depth =>
      rw [Machine.step, Machine.step]
      split_ifs
      · split
        · exact Run.agree_fail hstores _
        · exact law.agree_stepNode hself hstores hfits
      · exact Run.agree_pure hstores hfits.2.2.1
  | apply evaluator callee arguments depth =>
      unfold Machine.step
      cases callee with
      | closure id params body home owner =>
          apply (law.agree_enter_fits hstores hfits).bind
          intro frame after after' _ hafter _ hbody
          exact hself hafter hbody
      | primitive callable =>
          obtain ⟨_, hcallee, harguments⟩ := hfits
          apply (Run.agree_log law.framing hstores _).bind
          rintro _ after after' ⟨⟩ hafter hresumes _
          have hdepth := Store.Later.setCallbackDepth
            (first.log (.hostApplied callable arguments)) evaluator depth
          have hlater := hresumes.toLater.trans hdepth
          -- The application is allowed from when it was noted on, so also inside of the host call.
          apply Run.Agree.atCallbackDepth law.framing hafter law.stays.lasts
          exact law.agree_applyPrimitive hself (law.framing.setCallbackDepth hafter evaluator depth)
            (law.allowed_later hdepth (law.applied hstores hpermits))
            (law.stays.holds hlater hcallee) (law.stays.forall_holds hlater harguments)
      | _ => exact law.agree_refuse hstores hfits.2.1
  | call callee arguments =>
      obtain ⟨hcallee, harguments, hallowed⟩ := hfits
      unfold Machine.step
      cases callee with
      | closure id params body home owner =>
          apply Run.agree_get
          rw [(law.framing.rest hstores).callbackDepth]
          exact hself hstores ⟨hcallee.self.2.2, hcallee, harguments⟩
      | primitive callable =>
          exact law.agree_applyPrimitive hself hstores (hallowed callable rfl hpermits) hcallee
            harguments
      | _ => exact Run.agree_fail hstores _

end Steps

/-- Runs of fitting tasks from stores that look the same agree, and keep to the discipline. -/
theorem agree_runWithin (law : D.Lawful machine) (bound : Nat) {task : Task}
    (hstores : D.related first second) (hfits : D.Fits first task) :
    D.Agrees D.Holds (machine.runWithin D.permits bound task) first second := by
  -- Both runs are stopped at the same tasks, since tasks do not depend on the store.
  induction bound generalizing task first second with
  | zero => exact Run.agree_throw hstores _
  | succ bound ih =>
      rw [Machine.runWithin]
      split_ifs with hpermits
      · exact law.agree_step ih hstores hfits hpermits
      · exact Run.agree_throw hstores _

/-- Runs that end without being stopped agree, and the second one ends like the first. -/
theorem agree_run_of_ends (law : D.Lawful machine) {bound : Nat} {task : Task}
    (hstores : D.related first second) (hfits : D.Fits first task)
    (hends : machine.EndsWithin D.permits bound task first) :
    D.Agrees D.Holds (machine.run bound task) first second := by
  have hagree := law.agree_runWithin bound hstores hfits
  have hends' : machine.EndsWithin D.permits bound task second := by
    rwa [Machine.EndsWithin, ← hagree.outcome]
  constructor
  · rw [hends.run_eq, hends'.run_eq]
    exact hagree.outcome
  · rw [hends.run_eq, hends'.run_eq]
    exact hagree.related
  · rw [hends.run_eq]
    exact hagree.resumes
  · rw [hends.run_eq]
    exact hagree.good

/-- Under a discipline that stops no run, runs agree even if they do not end. -/
theorem agree_run (law : D.Lawful machine) (hpermits : D.permits = fun _ _ => true) {bound : Nat}
    {task : Task} (hstores : D.related first second) (hfits : D.Fits first task) :
    D.Agrees D.Holds (machine.run bound task) first second := by
  have hagree := law.agree_runWithin bound hstores hfits
  rwa [hpermits, Machine.runWithin_true] at hagree

theorem agree_evaluate (law : D.Lawful machine) {bound : Nat} {evaluator : EvaluatorId}
    {term : Term} {frame : FrameId} (hstores : D.related first second)
    (hrun : D.Agrees D.Holds (machine.run bound
      (.eval evaluator term frame (first.callbackDepth evaluator))) first second) :
    D.Agrees D.Holds (machine.evaluate bound evaluator term frame) first second := by
  apply Run.agree_get
  rwa [← (law.framing.rest hstores).callbackDepth]

end Lawful

end Discipline

end Rulebook
