import Rulebook.Proofs.Evaluation.Blindness
import Rulebook.Proofs.Evaluation.Mirrors

/-!
# Evaluation of recoded expressions

An evaluation mirrors that of the recoded expression, task by task.  It must not bind the name
`list`, since recoded literals call it, and it must not ask new closures for their bodies, which is
where the recoding shows.  It must not be under a depth limit either, because a literal that calls
`list` is nested deeper than the literal itself.

Host functions are expected to be blind to the bodies of closures.
-/

namespace Rulebook

namespace Recoding

variable {R : Recoding}

/-! ## What is forbidden -/

/-- Whether a primitive may be applied: it binds no `list` and asks no new closure for its body. -/
def allowsPrimitive (R : Recoding) : Primitive → List Term → Bool
  | .core .getProperty, .closure id _ _ _ _ :: key :: _ =>
    !(R.limit ≤ id && key.text? = some "body")
  | .method (.scope .define _), name :: _ | .method (.scope .assign _), name :: _ =>
    name.text? ≠ some "list"
  | .method (.scope .extend _), names :: _ =>
    (names.items?.getD []).all fun name => name.text? ≠ some "list"
  | .method (.bind _ params _), _ => "list" ∉ params
  | _, _ => true

/-- Whether a node may be evaluated: it binds no `list`. -/
def allowsNode : Term → Bool
  | .assignment target _ | .definition target _ => target ≠ "list"
  | _ => true

def allows (R : Recoding) (machine : Machine) : Task → Bool
  | .eval evaluator term _ _ => (machine.limit evaluator).isNone && allowsNode term
  | .apply _ (.closure _ params _ _ _) _ _ => "list" ∉ params
  | .apply _ (.primitive callable) arguments _ | .call (.primitive callable) arguments =>
    R.allowsPrimitive callable arguments
  | _ => true

theorem eval_of_allows {machine : Machine} {evaluator : EvaluatorId} {term : Term} {frame : FrameId}
    {depth : Nat} (hallows : R.allows machine (.eval evaluator term frame depth) = true) :
    machine.limit evaluator = none ∧ allowsNode term = true := by
  rwa [allows, Bool.and_eq_true, Option.isNone_iff_eq_none] at hallows

/-! ## Tasks that are the same -/

/-- Expressions of the same meaning in a frame: alike ones, and one that is recoded. -/
inductive Code (R : Recoding) (store : Store) (frame : FrameId) : Term → Term → Prop where
  | value {a b : Term} (hlike : R.Like store a b) : Code R store frame a b
  | recoded {term : Term} (hlists : store.Lists frame) (hplain : Form.isPlain term = true)
      (hsize : sizeOf term ≤ R.room) : Code R store frame term (Form.recode term)

inductive Same (R : Recoding) (store : Store) : Task → Task → Prop where
  | eval {evaluator : EvaluatorId} {a b : Term} {frame : FrameId}
      (hcode : R.Code store frame a b) (depth : Nat) :
      Same R store (.eval evaluator a frame depth) (.eval evaluator b frame depth)
  | operator {value : Term} (htext : value.text?.isSome = true) (evaluator : EvaluatorId)
      (frame : FrameId) (depth : Nat) :
      Same R store (.eval evaluator (.quoted value) frame depth) (.eval evaluator value frame depth)
  | apply {callee other : Term} {arguments others : List Term}
      (hcallee : R.Like store callee other) (harguments : R.LikeAll store arguments others)
      (evaluator : EvaluatorId) (depth : Nat) :
      Same R store (.apply evaluator callee arguments depth) (.apply evaluator other others depth)
  | call {callee other : Term} {arguments others : List Term}
      (hcallee : R.Like store callee other) (harguments : R.LikeAll store arguments others) :
      Same R store (.call callee arguments) (.call other others)

theorem Code.mono {before after : Store} (hkeeps : before.KeepsLists after) {frame : FrameId}
    {a b : Term} (hcode : R.Code before frame a b) : R.Code after frame a b := by
  cases hcode with
  | value hlike => exact .value (like_mono hkeeps hlike)
  | recoded hlists hplain hsize => exact .recoded (hkeeps frame hlists) hplain hsize

/-! ## Names and frames -/

section Names

variable {side : Side} {first second : Store} {a b c d : Term}

theorem mirrors_newName (htwin : R.Twin first second) (hlike : R.Like first a b) :
    R.Mirrors side (fun _ name other => name = other ∧ a.text? = some name) (Run.newName a)
      (Run.newName b) first second := by
  rw [Run.newName, Run.newName, ← hlike.text?_eq]
  cases a.text? with
  | none => exact mirrors_fail htwin _
  | some name => exact mirrors_pure htwin ⟨rfl, rfl⟩

theorem mirrors_nameOf (htwin : R.Twin first second) (hlike : R.Like first a b) :
    R.Mirrors side (fun _ name other => name = other ∧ a.text? = some name) (Run.nameOf a)
      (Run.nameOf b) first second := by
  rw [Run.nameOf, Run.nameOf, ← hlike.text?_eq]
  cases a.text? with
  | none =>
      apply mirrors_get
      rw [htwin.display?_eq hlike, hlike.isKey_eq]
      exact mirrors_fail htwin _
  | some name => exact mirrors_pure htwin ⟨rfl, rfl⟩

theorem mirrors_itemsOf (htwin : R.Twin first second) (hlike : R.Like first a b) :
    R.Mirrors side (fun store items others => R.LikeAll store items others ∧ a.items? = some items)
      (Run.itemsOf a) (Run.itemsOf b) first second := by
  have hitems := hlike.items?
  rw [Run.itemsOf, Run.itemsOf]
  generalize hfirst : a.items? = x, b.items? = y at hitems
  cases hitems with
  | none => exact mirrors_fail htwin _
  | some hitems => exact mirrors_pure htwin ⟨hitems, rfl⟩

theorem mirrors_lookup (htwin : R.Twin first second) (frame : FrameId) (name : String) :
    R.Mirrors side R.Like (Run.lookup frame name) (Run.lookup frame name) first second := by
  apply mirrors_get
  have hvalue := htwin.lookup?_rel frame name
  generalize first.lookup? frame name = x, second.lookup? frame name = y at hvalue
  cases hvalue with
  | none => exact mirrors_fail htwin _
  | some hvalue => exact mirrors_pure htwin hvalue

theorem mirrors_find (htwin : R.Twin first second) (frame : FrameId) (name : String) :
    R.Mirrors side (fun _ => Eq) (Run.find frame name) (Run.find frame name) first second := by
  apply mirrors_get
  rw [htwin.find?_eq]
  cases second.find? frame name with
  | none => exact mirrors_fail htwin _
  | some found => exact mirrors_pure htwin rfl

theorem mirrors_define (htwin : R.Twin first second) (frame : FrameId) {name : String}
    (hname : name ≠ "list") (hvalue : R.Like first a b) :
    R.Mirrors side R.Like (Run.define frame name a) (Run.define frame name b) first second := by
  have hkeeps := Store.KeepsLists.define hname first frame a
  exact .inr ⟨.ok (like_mono hkeeps hvalue), htwin.define hname frame hvalue, hkeeps⟩

theorem mirrors_assign (htwin : R.Twin first second) (frame : FrameId) {name : String}
    (hname : name ≠ "list") (hvalue : R.Like first a b) :
    R.Mirrors side R.Like (Run.assign frame name a) (Run.assign frame name b) first second := by
  apply mirrors_get
  rw [Store.assign?, Store.assign?, htwin.find?_eq]
  cases second.find? frame name with
  | none => exact mirrors_fail htwin _
  | some found => exact mirrors_define htwin found hname hvalue

/-- A new frame is the same in both stores, and has `list` if its parent has. -/
theorem mirrors_extend (htwin : R.Twin first second) (parent : Option FrameId)
    {names : List String} (hnames : "list" ∉ names) {values others : List Term}
    (hvalues : R.LikeAll first values others) :
    R.Mirrors side (fun store frame other => frame = other ∧
        ∀ home ∈ parent, first.Lists home → store.Lists frame)
      (Run.extend parent names values) (Run.extend parent names others) first second := by
  rw [Run.extend, Run.extend, hvalues.length_eq]
  split_ifs
  · exact mirrors_fail htwin _
  · have hbindings : R.LikeBindings first (Bindings.insertAll [] (names.zip values))
        (Bindings.insertAll [] (names.zip others)) :=
      likeBindings_insertAll .nil (likeBindings_zip hvalues)
    have hpairs : "list" ∉ Bindings.names (names.zip values) := by
      intro hmem
      obtain ⟨pair, hpair, hname⟩ := List.mem_map.mp hmem
      exact hnames (hname ▸ (List.of_mem_zip hpair).1)
    have hbinds : (Bindings.insertAll [] (names.zip values)).binds "list" = false := by
      rw [Bool.eq_false_iff, ne_eq, Bindings.binds_iff_mem_names]
      exact Bindings.notMem_names_insertAll List.not_mem_nil hpairs
    refine .inr ⟨.ok ⟨htwin.size, ?_⟩, htwin.push hbindings parent, .push first _⟩
    rintro home rfl hlists
    exact Store.lookup?_push_size hlists hbinds

theorem mirrors_enter (htwin : R.Twin first second) {params : List String}
    (hparams : "list" ∉ params) (home : FrameId) {arguments others : List Term}
    (harguments : R.LikeAll first arguments others) :
    R.Mirrors side (fun store frame other => frame = other ∧ (first.Lists home → store.Lists frame))
      (Run.enter params home arguments) (Run.enter params home others) first second := by
  rw [Run.enter, Run.enter, harguments.length_eq]
  split_ifs
  · exact mirrors_fail htwin _
  · apply (mirrors_extend htwin (some home) hparams harguments).bind
    rintro frame _ after after' htwin' - ⟨rfl, hlists⟩
    apply (mirrors_log htwin' (.frameEntered params) (.frameEntered params)).bind
    intro _ _ last last' hlast hkeeps _
    exact mirrors_pure hlast ⟨rfl, fun hhome => hkeeps frame (hlists home rfl hhome)⟩

/-! ## Methods of environments and closures -/

theorem mirrors_names (htwin : R.Twin first second) {items others : List Term}
    (hitems : R.LikeAll first items others)
    (hnames : (items.all fun name => name.text? ≠ some "list") = true) :
    R.Mirrors side (fun _ names other => names = other ∧ "list" ∉ names)
      (items.mapM Run.newName) (others.mapM Run.newName) first second := by
  have hfree : List.Forall₂ (fun a b => a.text? ≠ some "list" ∧ R.Like first a b) items others := by
    apply (List.forall₂_and_left _ _).mpr ⟨_, hitems⟩
    simpa using hnames
  have hlasts : Lasts fun store (a b : Term) => a.text? ≠ some "list" ∧ R.Like store a b :=
    fun hkeeps _ _ hlike => ⟨hlike.1, like_mono hkeeps hlike.2⟩
  have hnew : R.Mirrors side
      (fun _ => List.Forall₂ fun name other => name = other ∧ name ≠ "list")
      (items.mapM Run.newName) (others.mapM Run.newName) first second := by
    apply mirrors_mapM htwin hlasts (fun _ _ _ hname => hname) hfree
    intro a b after after' htwin' _ hlike
    apply (mirrors_newName htwin' hlike.2).mono
    exact fun _ name other hname => ⟨hname.1, fun hlist => hlike.1 (hlist ▸ hname.2)⟩
  apply hnew.mono
  intro store names others hall
  induction hall with
  | nil => exact ⟨rfl, List.not_mem_nil⟩
  | cons hname _ ih =>
      obtain ⟨rfl, hname⟩ := hname
      obtain ⟨rfl, hrest⟩ := ih
      exact ⟨rfl, by simp [hname.symm, hrest]⟩

theorem mirrors_extendBy (htwin : R.Twin first second) (frame : FrameId)
    (hnames : ((a.items?.getD []).all fun name => name.text? ≠ some "list") = true)
    (hlike : R.Like first a b) (hlike' : R.Like first c d) :
    R.Mirrors side R.Like (Run.extendBy frame a c) (Run.extendBy frame b d) first second := by
  rw [Run.extendBy, Run.extendBy]
  apply (mirrors_itemsOf htwin hlike).bind
  rintro items others after after' htwin' hkeeps ⟨hitems, hfound⟩
  rw [hfound, Option.getD_some] at hnames
  apply (mirrors_itemsOf htwin' (like_mono hkeeps hlike')).bind
  rintro values values' last last' hlast hkeeps' ⟨hvalues, -⟩
  rw [hitems.length_eq, hvalues.length_eq]
  split_ifs
  · exact mirrors_fail hlast _
  · apply (mirrors_names hlast (likeAll_mono hkeeps' hitems) hnames).bind
    rintro names _ store store' hstores hkeeps'' ⟨rfl, hfree⟩
    apply (mirrors_extend hstores (some frame) hfree (likeAll_mono hkeeps'' hvalues)).map
    rintro _ inner _ ⟨rfl, -⟩
    exact .refl _

theorem mirrors_isBound (htwin : R.Twin first second) (frame : FrameId) (hlike : R.Like first a b) :
    R.Mirrors side R.Like (Run.isBound frame a) (Run.isBound frame b) first second := by
  rw [Run.isBound, Run.isBound, ← hlike.text?_eq, ← hlike.isKey_eq]
  cases a.text? with
  | none =>
      dsimp only
      split_ifs
      · exact mirrors_pure htwin (.refl _)
      · exact mirrors_fail htwin _
  | some name =>
      apply mirrors_get
      rw [htwin.isBound_eq]
      exact mirrors_pure htwin (.refl _)

theorem mirrors_bindArguments (htwin : R.Twin first second) {params : List String}
    (hparams : "list" ∉ params) (home : FrameId) {arguments others : List Term}
    (harguments : R.LikeAll first arguments others) :
    R.Mirrors side R.Like (Run.bindArguments params home arguments)
      (Run.bindArguments params home others) first second := by
  rcases harguments with _ | ⟨hitems, _ | ⟨hsecond, hmore⟩⟩
  · exact mirrors_fail htwin _
  · rw [Run.bindArguments, Run.bindArguments]
    apply (mirrors_itemsOf htwin hitems).bind
    rintro items others after after' htwin' _ ⟨hitems, -⟩
    apply (mirrors_enter htwin' hparams home hitems).map
    rintro _ frame _ ⟨rfl, -⟩
    exact .refl _
  · exact mirrors_fail htwin _

theorem mirrors_callScope (htwin : R.Twin first second) (frame : FrameId) (method : ScopeMethod)
    {arguments others : List Term} (harguments : R.LikeAll first arguments others)
    (hallows : R.allowsPrimitive (.method (.scope method frame)) arguments = true) :
    R.Mirrors side R.Like (Run.callScope frame method arguments)
      (Run.callScope frame method others) first second := by
  cases method with
  | chain =>
      rcases harguments with _ | ⟨hfirst, hrest⟩
      · apply mirrors_get
        rw [htwin.chain_eq]
        exact mirrors_pure htwin (.refl _)
      · exact mirrors_fail htwin _
  | extend =>
      rcases harguments with _ | ⟨hfirst, _ | ⟨hsecond, _ | ⟨hthird, hmore⟩⟩⟩
      · exact mirrors_fail htwin _
      · exact mirrors_fail htwin _
      · exact mirrors_extendBy htwin frame hallows hfirst hsecond
      · exact mirrors_fail htwin _
  | find =>
      rcases harguments with _ | ⟨hfirst, _ | ⟨hsecond, hmore⟩⟩
      · exact mirrors_fail htwin _
      · apply (mirrors_nameOf htwin hfirst).bind
        rintro name _ after after' htwin' _ ⟨rfl, -⟩
        apply (mirrors_find htwin' frame name).map
        rintro _ found _ rfl
        exact .refl _
      · exact mirrors_fail htwin _
  | lookup =>
      rcases harguments with _ | ⟨hfirst, _ | ⟨hsecond, hmore⟩⟩
      · exact mirrors_fail htwin _
      · apply (mirrors_nameOf htwin hfirst).bind
        rintro name _ after after' htwin' _ ⟨rfl, -⟩
        exact mirrors_lookup htwin' frame name
      · exact mirrors_fail htwin _
  | define =>
      rcases harguments with _ | ⟨hfirst, _ | ⟨hsecond, _ | ⟨hthird, hmore⟩⟩⟩
      · exact mirrors_fail htwin _
      · exact mirrors_fail htwin _
      · apply (mirrors_newName htwin hfirst).bind
        rintro name _ after after' htwin' hkeeps ⟨rfl, hname⟩
        -- What is allowed binds no `list`, here or by an assignment.
        have hfree : name ≠ "list" := by
          rintro rfl
          simp [allowsPrimitive, hname] at hallows
        exact mirrors_define htwin' frame hfree (like_mono hkeeps hsecond)
      · exact mirrors_fail htwin _
  | assign =>
      rcases harguments with _ | ⟨hfirst, _ | ⟨hsecond, _ | ⟨hthird, hmore⟩⟩⟩
      · exact mirrors_fail htwin _
      · exact mirrors_fail htwin _
      · apply (mirrors_nameOf htwin hfirst).bind
        rintro name _ after after' htwin' hkeeps ⟨rfl, hname⟩
        have hfree : name ≠ "list" := by
          rintro rfl
          simp [allowsPrimitive, hname] at hallows
        exact mirrors_assign htwin' frame hfree (like_mono hkeeps hsecond)
      · exact mirrors_fail htwin _
  | isBound =>
      rcases harguments with _ | ⟨hfirst, _ | ⟨hsecond, hmore⟩⟩
      · exact mirrors_fail htwin _
      · exact mirrors_isBound htwin frame hfirst
      · exact mirrors_fail htwin _
  | snapshot =>
      rcases harguments with _ | ⟨hfirst, hrest⟩
      · apply mirrors_get
        exact mirrors_pure htwin (like_toTerm (htwin.snapshot frame))
      · exact mirrors_fail htwin _

end Names

/-! ## Primitives -/

def SelfMirrors (R : Recoding) (side : Side) (self further : Task → Run Term) : Prop :=
  ∀ {first second : Store}, R.Twin first second → ∀ {task other : Task},
    R.Same first task other → R.Mirrors side R.Like (self task) (further other) first second

section Primitives

variable {side : Side} {first second : Store} {a b : Term} {self further : Task → Run Term}

theorem mirrors_refuse (htwin : R.Twin first second) (hlike : R.Like first a b) :
    R.Mirrors side R.Like (Machine.refuse a) (Machine.refuse b) first second := by
  apply mirrors_get
  rw [htwin.display?_eq hlike]
  exact mirrors_fail htwin _

theorem like_opened (machine : Machine) (htwin : R.Twin first second) (hlike : R.Like first a b) :
    R.Like first (machine.opened first a) (machine.opened second b) := by
  cases a with
  | scope frame =>
      obtain rfl := hlike.eq_of_contents rfl
      have hdepth : first.depth frame = second.depth frame := by
        rw [Store.depth, Store.depth, htwin.chain_eq]
      apply Term.Like.record_of_entries
      apply Term.Like.fieldsOf
      rw [Store.scopeAttributes, Store.scopeAttributes, htwin.parent, hdepth]
      exact .cons ⟨rfl, like_toTerm (htwin.bindings frame)⟩
        (List.forall₂_same.mpr fun _ _ => ⟨rfl, .refl _⟩)
  | evaluator id =>
      obtain rfl := hlike.eq_of_contents rfl
      rw [Machine.opened, Machine.opened, Machine.evaluatorAttributes, Machine.evaluatorAttributes,
        htwin.depth]
      exact .refl _
  | _ =>
      obtain ⟨parts, rfl⟩ := hlike.exists_rebuild
      exact hlike

theorem not_asksBody {term key : Term} {rest : List Term} (machine : Machine)
    (hallows : R.allowsPrimitive (.core .getProperty) (term :: key :: rest) = true) :
    ¬Term.Like.AsksBody (R.altered first) (machine.opened first term) key := by
  rintro ⟨htext, id, params, body, home, owner, other, hclosure, hlimit, -⟩
  have hterm : term = .closure id params body home owner := by
    cases term <;> first | exact hclosure | cases hclosure
  subst hterm
  simp [allowsPrimitive, hlimit, htext] at hallows

theorem mirrors_applyCore (machine : Machine) (htwin : R.Twin first second)
    (operation : CorePrimitive) {operands others : List Term}
    (hoperands : R.LikeAll first operands others)
    (hallows : R.allowsPrimitive (.core operation) operands = true) :
    R.Mirrors side R.Like (machine.applyCore operation operands)
      (machine.applyCore operation others) first second := by
  have happly : ∀ {items items' : List Term}, R.LikeAll first items items' →
      (operation = .getProperty → ∀ term key rest, items = term :: key :: rest →
        ¬Term.Like.AsksBody (R.altered first) term key) →
      R.Mirrors side R.Like (Run.ofExcept (operation.apply items))
        (Run.ofExcept (operation.apply items')) first second :=
    fun hitems hbody => mirrors_ofExcept htwin (operation.apply_like hitems hbody)
  apply mirrors_get
  by_cases hlooks : operation = .hasProperty ∨ operation = .getProperty
  · rcases hlooks with rfl | rfl
    · rcases hoperands with _ | ⟨hterm, hrest⟩
      · exact happly .nil nofun
      · exact happly (.cons (like_opened machine htwin hterm) hrest) nofun
    · rcases hoperands with _ | ⟨hterm, hrest⟩
      · exact happly .nil fun _ _ _ _ => nofun
      · apply happly (.cons (like_opened machine htwin hterm) hrest)
        rintro - _ key rest ⟨⟩
        exact not_asksBody machine hallows
  · rw [not_or] at hlooks
    cases operation <;> first
      | exact happly hoperands nofun
      | exact absurd rfl hlooks.1
      | exact absurd rfl hlooks.2

theorem mirrors_callEvaluator (htwin : R.Twin first second) (hself : R.SelfMirrors side self further)
    (evaluator : EvaluatorId) (method : EvaluatorMethod) {arguments others : List Term}
    (harguments : R.LikeAll first arguments others) :
    R.Mirrors side R.Like (Machine.callEvaluator self evaluator method arguments)
      (Machine.callEvaluator further evaluator method others) first second := by
  rcases harguments with _ | ⟨hfirst, _ | ⟨hsecond, _ | ⟨hthird, hmore⟩⟩⟩
  · cases method <;> exact mirrors_fail htwin _
  · cases method <;> exact mirrors_fail htwin _
  · rename_i term other scope scope'
    cases method with
    | evaluate =>
        apply mirrors_get
        rw [← htwin.depth]
        cases scope with
        | scope frame =>
            obtain rfl := hsecond.eq_of_contents rfl
            exact hself htwin (.eval (.value hfirst) _)
        | _ =>
            obtain ⟨parts, rfl⟩ := hsecond.exists_rebuild
            dsimp only [Term.rebuild]
            rw [hfirst.isNode_eq]
            split_ifs
            · exact mirrors_fail htwin _
            · exact mirrors_pure htwin hfirst
    | apply =>
        rw [Machine.callEvaluator, Machine.callEvaluator, hfirst.isCallable_eq]
        split_ifs
        · apply mirrors_get
          rw [← htwin.depth]
          apply (mirrors_itemsOf htwin hsecond).bind
          rintro items items' after after' htwin' hkeeps ⟨hitems, -⟩
          exact hself htwin' (.apply (like_mono hkeeps hfirst) hitems evaluator _)
        · exact mirrors_refuse htwin hfirst
  · cases method <;> exact mirrors_fail htwin _

theorem mirrors_ofProgram {call call' : Term → List Term → Run Term}
    (hcall : ∀ {first second : Store}, R.Twin first second → ∀ {callee other arguments others},
      R.Like first callee other → R.LikeAll first arguments others →
        R.Mirrors side R.Like (call callee arguments) (call' other others) first second)
    {altered : Term.Alteration} {program program' : HostProgram}
    (hlike : HostProgram.Like altered program program') {first second : Store}
    (htwin : R.Twin first second)
    (haltered : ∀ id home body other, altered id home body other →
      R.altered first id home body other) :
    R.Mirrors side R.Like (Run.ofProgram call program) (Run.ofProgram call' program') first
      second := by
  induction hlike generalizing first second with
  | done houtcome => exact mirrors_ofExcept htwin (houtcome.mono fun _ _ hlike => hlike.mono haltered)
  | call hcallee harguments hnext ih =>
      have hcalled := hcall htwin (hcallee.mono haltered)
        (harguments.imp fun _ _ hlike => hlike.mono haltered)
      apply hcalled.observe.bind
      intro outcome outcome' after after' htwin' hkeeps houtcome
      exact ih (R.altered after)
        (fun id home body other hbody => altered_mono hkeeps (haltered id home body other hbody))
        outcome outcome' houtcome htwin' fun _ _ _ _ hbody => hbody
  | note htag hnext ih =>
      rename_i altered tag tag' next further
      have hkeeps : first.KeepsLists { first with notes := first.notes.push tag } :=
        .of_frames_eq rfl
      have hnoted : R.Mirrors side (fun _ _ _ => True)
          (modify fun store : Store => { store with notes := store.notes.push tag } : Run Unit)
          (modify fun store : Store => { store with notes := store.notes.push tag' }) first
          second :=
        .inr ⟨.ok trivial, htwin.note (htag.mono haltered), hkeeps⟩
      apply hnoted.bind
      intro _ _ after after' htwin' hkeeps' _
      exact ih htwin' fun id home body other hbody =>
        altered_mono hkeeps' (haltered id home body other hbody)

theorem mirrors_applyPrimitive {machine : Machine} (hblind : machine.host.Blind)
    (htwin : R.Twin first second) (hself : R.SelfMirrors side self further) (callable : Primitive)
    {arguments others : List Term} (harguments : R.LikeAll first arguments others)
    (hallows : R.allowsPrimitive callable arguments = true) :
    R.Mirrors side R.Like (machine.applyPrimitive self callable arguments)
      (machine.applyPrimitive further callable others) first second := by
  cases callable with
  | core operation => exact mirrors_applyCore machine htwin operation harguments hallows
  | host name =>
      refine mirrors_ofProgram ?_ (hblind name _ _ _ harguments) htwin fun _ _ _ _ hbody => hbody
      exact fun htwin' _ _ _ _ hcallee harguments' => hself htwin' (.call hcallee harguments')
  | method method =>
      cases method with
      | scope method frame => exact mirrors_callScope htwin frame method harguments hallows
      | evaluator method evaluator =>
          exact mirrors_callEvaluator htwin hself evaluator method harguments
      | bind id params home =>
          apply mirrors_bindArguments htwin _ home harguments
          simpa [allowsPrimitive] using hallows

end Primitives

end Recoding
end Rulebook
