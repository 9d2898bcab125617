import Rulebook.Proofs.Evaluation.Calls
import Rulebook.Proofs.Evaluation.Guards
import Rulebook.Proofs.Evaluation.Mirroring

/-!
# Steps and runs of recoded expressions

A node and its recoded form have the same parts in the same places, up to recoding, and so they take
the same steps.  There are two exceptions.  A recoded literal calls `list` where the literal has its
value at once, and an operator that is a quoted text comes back as the text; both forms yield the
same value and leave nothing behind.  The size of an expression bounds how much deeper its literals nest.
-/

namespace Rulebook
namespace Recoding

open Form

variable {R : Recoding} {side : Side} {first second : Store}

/-! ## Parts of recoded nodes -/

section Parts

variable {frame : FrameId} {b : Term}

/-- An operator, which comes back as another kind of node if it is a quoted text. -/
def Operates (R : Recoding) (store : Store) (frame : FrameId) (a b : Term) : Prop :=
  R.Code store frame a b ∨ a = .quoted b ∧ b.text?.isSome = true

theorem operates_recoded (hlists : first.Lists frame) {operator : Term}
    (hplain : isPlain operator = true) (hsize : sizeOf operator ≤ R.room) :
    R.Operates first frame operator (recodedOperator operator (recode operator)) := by
  have hcode : R.Code first frame operator (recode operator) := .recoded hlists hplain hsize
  unfold recodedOperator
  split
  · split_ifs with htext
    · exact .inr ⟨rfl, htext⟩
    · exact .inl hcode
  · exact .inl hcode

theorem codes_recoded (hlists : first.Lists frame) {items : List Term}
    (hplain : allPlain items = true) (hsize : ∀ item ∈ items, sizeOf item ≤ R.room) :
    List.Forall₂ (R.Code first frame) items (recodeAll items) := by
  induction items with
  | nil => exact .nil
  | cons item rest ih =>
      rw [allPlain, Bool.and_eq_true] at hplain
      rw [List.forall_mem_cons] at hsize
      exact .cons (.recoded hlists hplain.1 hsize.1) (ih hplain.2 hsize.2)

theorem codes_value {items others : List Term} (hitems : R.LikeAll first items others) :
    List.Forall₂ (R.Code first frame) items others :=
  hitems.imp fun _ _ => .value

theorem sizeOf_le_of_mem {items : List Term} {room : Nat} (hsize : sizeOf items ≤ room) :
    ∀ item ∈ items, sizeOf item ≤ room :=
  fun _ hitem => (List.sizeOf_lt_of_mem hitem).le.trans hsize

theorem Code.application {operator : Term} {operands : List Term}
    (hcode : R.Code first frame (.application operator operands) b) :
    ∃ other others, b = .application other others ∧ R.Operates first frame operator other ∧
      List.Forall₂ (R.Code first frame) operands others := by
  cases hcode with
  | value hlike =>
      obtain ⟨other, others, rfl, hoperator, hoperands⟩ := hlike.application
      exact ⟨other, others, rfl, .inl (.value hoperator), codes_value hoperands⟩
  | recoded hlists hplain hsize =>
      rw [isPlain, Bool.and_eq_true] at hplain
      rw [Term.application.sizeOf_spec] at hsize
      exact ⟨_, _, rfl, operates_recoded hlists hplain.1 (by omega),
        codes_recoded hlists hplain.2 (sizeOf_le_of_mem (by omega))⟩

theorem Code.lambda {params : List String} {body : Term}
    (hcode : R.Code first frame (.lambda params body) b) :
    ∃ other, b = .lambda params other ∧ R.Code first frame body other := by
  cases hcode with
  | value hlike =>
      obtain ⟨other, rfl, hbody⟩ := hlike.lambda
      exact ⟨other, rfl, .value hbody⟩
  | recoded hlists hplain hsize =>
      rw [isPlain, Bool.and_eq_true] at hplain
      rw [Term.lambda.sizeOf_spec] at hsize
      exact ⟨_, rfl, .recoded hlists hplain.2 (by omega)⟩

theorem Code.conditional {p q r : Term} (hcode : R.Code first frame (.conditional p q r) b) :
    ∃ p' q' r', b = .conditional p' q' r' ∧ R.Code first frame p p' ∧ R.Code first frame q q' ∧
      R.Code first frame r r' := by
  cases hcode with
  | value hlike =>
      obtain ⟨p', q', r', rfl, hp, hq, hr⟩ := hlike.conditional
      exact ⟨p', q', r', rfl, .value hp, .value hq, .value hr⟩
  | recoded hlists hplain hsize =>
      simp only [isPlain, Bool.and_eq_true] at hplain
      rw [Term.conditional.sizeOf_spec] at hsize
      exact ⟨_, _, _, rfl, .recoded hlists hplain.1.1 (by omega),
        .recoded hlists hplain.1.2 (by omega), .recoded hlists hplain.2 (by omega)⟩

theorem Code.assignment {target : String} {value : Term}
    (hcode : R.Code first frame (.assignment target value) b) :
    ∃ other, b = .assignment target other ∧ R.Code first frame value other := by
  cases hcode with
  | value hlike =>
      obtain ⟨other, rfl, hvalue⟩ := hlike.assignment
      exact ⟨other, rfl, .value hvalue⟩
  | recoded hlists hplain hsize =>
      rw [isPlain] at hplain
      rw [Term.assignment.sizeOf_spec] at hsize
      exact ⟨_, rfl, .recoded hlists hplain (by omega)⟩

theorem Code.definition {target : String} {value : Term}
    (hcode : R.Code first frame (.definition target value) b) :
    ∃ other, b = .definition target other ∧ R.Code first frame value other := by
  cases hcode with
  | value hlike =>
      obtain ⟨other, rfl, hvalue⟩ := hlike.definition
      exact ⟨other, rfl, .value hvalue⟩
  | recoded hlists hplain hsize =>
      rw [isPlain] at hplain
      rw [Term.definition.sizeOf_spec] at hsize
      exact ⟨_, rfl, .recoded hlists hplain (by omega)⟩

theorem Code.sequence {items : List Term} (hcode : R.Code first frame (.sequence items) b) :
    ∃ others, b = .sequence others ∧ List.Forall₂ (R.Code first frame) items others := by
  cases hcode with
  | value hlike =>
      obtain ⟨others, rfl, hitems⟩ := hlike.sequence
      exact ⟨others, rfl, codes_value hitems⟩
  | recoded hlists hplain hsize =>
      rw [isPlain, Bool.and_eq_true] at hplain
      rw [Term.sequence.sizeOf_spec] at hsize
      exact ⟨_, rfl, codes_recoded hlists hplain.2 (sizeOf_le_of_mem (by omega))⟩

theorem Code.quoted {value : Term} (hcode : R.Code first frame (.quoted value) b) :
    ∃ other, b = .quoted other ∧ R.Like first value other := by
  cases hcode with
  | value hlike => exact hlike.quoted
  | recoded hlists hplain hsize => exact ⟨value, rfl, .refl value⟩

theorem Code.variable {name : String} (hcode : R.Code first frame (.variable name) b) :
    b = .variable name := by
  cases hcode with
  | value hlike => exact (hlike.eq_of_contents rfl).symm
  | recoded hlists hplain hsize => rfl

theorem Code.mystery (hcode : R.Code first frame .mystery b) : b = .mystery := by
  cases hcode with
  | value hlike => exact (hlike.eq_of_contents rfl).symm
  | recoded hlists hplain hsize => rfl

end Parts

/-! ## Steps -/

section Steps

variable {self further : Task → Run Term} {machine : Machine} {evaluator : EvaluatorId}
  {frame : FrameId} {a b : Term} {depth : Nat}

theorem lasts_code (frame : FrameId) : Lasts fun store => R.Code store frame :=
  fun hkeeps _ _ hcode => hcode.mono hkeeps

theorem Operates.same (hoperates : R.Operates first frame a b) :
    R.Same first (.eval evaluator a frame depth) (.eval evaluator b frame depth) := by
  obtain hcode | ⟨rfl, htext⟩ := hoperates
  · exact .eval hcode depth
  · exact .operator htext evaluator frame depth

theorem mirrors_close (htwin : R.Twin first second) (hcode : R.Code first frame a b)
    (params : List String) (owner : Option EvaluatorId) :
    R.Mirrors side R.Like (Machine.close params a frame owner) (Machine.close params b frame owner)
      first second := by
  let event := Event.closureCreated params
  let after := { first with closures := first.closures + 1 }.log event
  have hkeeps : first.KeepsLists after := .of_frames_eq rfl
  have hclosure : R.Like first (.closure first.closures params a frame owner)
      (.closure second.closures params b frame owner) := by
    rw [← htwin.closures]
    cases hcode with
    | value hlike => exact .closure_body hlike
    | recoded hlists hplain hsize =>
        exact .body ⟨htwin.fresh, hlists, hplain, hsize, rfl⟩ params owner
  have hclosure' : R.Like after _ _ := like_mono hkeeps hclosure
  exact .inr ⟨.ok hclosure', htwin.close.log event event, hkeeps⟩

theorem mirrors_stepNode (hself : R.SelfMirrors side self further) (htwin : R.Twin first second)
    (hcode : R.Code first frame a b) (hnode : a.isNode = true) (hallows : allowsNode a = true) :
    R.Mirrors side R.Like (Machine.stepNode self evaluator frame depth a)
      (Machine.stepNode further evaluator frame depth b) first second := by
  have heval : ∀ {x y : Term} {store store' : Store}, R.Twin store store' →
      R.Code store frame x y →
      R.Mirrors side R.Like (self (.eval evaluator x frame (depth + 1)))
        (further (.eval evaluator y frame (depth + 1))) store store' :=
    fun htwin' hcode' => hself htwin' (.eval hcode' (depth + 1))
  cases a with
  | «variable» name =>
      obtain rfl := hcode.variable
      exact mirrors_lookup htwin frame name
  | quoted value =>
      obtain ⟨other, rfl, hvalue⟩ := hcode.quoted
      exact mirrors_pure htwin hvalue
  | assignment target value =>
      obtain ⟨other, rfl, hvalue⟩ := hcode.assignment
      apply (heval htwin hvalue).bind
      intro x y after after' htwin' _ hlike
      exact mirrors_assign htwin' frame (of_decide_eq_true hallows) hlike
  | definition target value =>
      obtain ⟨other, rfl, hvalue⟩ := hcode.definition
      apply (heval htwin hvalue).bind
      intro x y after after' htwin' _ hlike
      exact mirrors_define htwin' frame (of_decide_eq_true hallows) hlike
  | conditional p q r =>
      obtain ⟨p', q', r', rfl, hp, hq, hr⟩ := hcode.conditional
      apply (heval htwin hp).bind
      intro x y after after' htwin' hkeeps hlike
      rw [hlike.isTruthy_eq]
      split_ifs
      · exact heval htwin' (hq.mono hkeeps)
      · exact heval htwin' (hr.mono hkeeps)
  | sequence items =>
      obtain ⟨others, rfl, hitems⟩ := hcode.sequence
      apply mirrors_foldlM htwin (lasts_code frame) hitems (.refl _)
      intro _ _ x y after after' htwin' _ hcode'
      exact heval htwin' hcode'
  | lambda params body =>
      obtain ⟨other, rfl, hbody⟩ := hcode.lambda
      exact mirrors_close htwin hbody params (some evaluator)
  | application operator operands =>
      obtain ⟨other, others, rfl, hoperator, hoperands⟩ := hcode.application
      apply (hself htwin hoperator.same).bind
      intro callee callee' after after' htwin' hkeeps hcallee
      have hoperands' : List.Forall₂ (R.Code after frame) operands others :=
        hoperands.imp fun _ _ hcode' => hcode'.mono hkeeps
      have harguments := mirrors_mapM htwin' (lasts_code frame) like_mono hoperands'
        fun x y last last' hlast _ hcode' => heval hlast hcode'
      apply harguments.bind
      intro arguments arguments' last last' hlast hkeeps' hlikes
      exact hself hlast (.apply (like_mono hkeeps' hcallee) hlikes evaluator (depth + 1))
  | mystery =>
      obtain rfl := hcode.mystery
      exact mirrors_fail htwin _
  | _ => cases hnode

/-- Literals that come back as nodes are left aside, since these take more steps. -/
theorem mirrors_step_eval (hself : R.SelfMirrors side self further) (htwin : R.Twin first second)
    (hcode : R.Code first frame a b) (hnodes : a.isNode = b.isNode)
    (hallows : R.allows machine (.eval evaluator a frame depth) = true) :
    R.Mirrors side R.Like (machine.step self (.eval evaluator a frame depth))
      (machine.step further (.eval evaluator b frame depth)) first second := by
  obtain ⟨hlimit, hallows⟩ := eval_of_allows hallows
  cases hnode : a.isNode with
  | true =>
      rw [Machine.step_node hlimit hnode, Machine.step_node hlimit (hnodes ▸ hnode)]
      exact mirrors_stepNode hself htwin hcode hnode hallows
  | false =>
      rw [Machine.step_data hnode, Machine.step_data (hnodes ▸ hnode)]
      apply mirrors_pure htwin
      cases hcode with
      | value hlike => exact hlike
      | recoded hlists hplain hsize =>
          rw [recode_of_not_isNode (isData_of_isPlain hplain hnode) (hnodes ▸ hnode)]
          exact .refl _

theorem mirrors_step_operator (htwin : R.Twin first second) {value : Term}
    (htext : value.text?.isSome = true)
    (hallows : R.allows machine (.eval evaluator (.quoted value) frame depth) = true) :
    R.Mirrors side R.Like (machine.step self (.eval evaluator (.quoted value) frame depth))
      (machine.step further (.eval evaluator value frame depth)) first second := by
  have hnode : value.isNode = false := by
    cases value <;> first | rfl | cases htext
  rw [Machine.step_node (eval_of_allows hallows).1 rfl, Machine.step_data hnode]
  exact mirrors_pure htwin (.refl value)

theorem mirrors_step_apply (hblind : machine.host.Blind) (hself : R.SelfMirrors side self further)
    (htwin : R.Twin first second) {arguments others : List Term} (hcallee : R.Like first a b)
    (harguments : R.LikeAll first arguments others)
    (hallows : R.allows machine (.apply evaluator a arguments depth) = true) :
    R.Mirrors side R.Like (machine.step self (.apply evaluator a arguments depth))
      (machine.step further (.apply evaluator b others depth)) first second := by
  cases a with
  | closure id params body home owner =>
      obtain ⟨other, rfl, hbody⟩ := hcallee.closure
      apply (mirrors_enter htwin (of_decide_eq_true hallows) home harguments).bind
      rintro frame _ after after' htwin' hkeeps ⟨rfl, hlists⟩
      refine hself htwin' (.eval ?_ depth)
      obtain hlike | ⟨-, hhome, hplain, hsize, rfl⟩ := hbody
      · exact .value (like_mono hkeeps hlike)
      · exact .recoded (hlists hhome) hplain hsize
  | primitive callable =>
      obtain rfl := hcallee.eq_of_contents rfl
      apply (mirrors_log htwin (.hostApplied callable arguments) (.hostApplied callable others)).bind
      intro _ _ after after' htwin' hkeeps _
      apply Mirrors.atCallbackDepth htwin' like_mono
      have hkeeps' : after.KeepsLists (after.setCallbackDepth evaluator depth) := .of_frames_eq rfl
      exact mirrors_applyPrimitive hblind (htwin'.setCallbackDepth evaluator depth) hself callable
        (likeAll_mono (hkeeps.trans hkeeps') harguments) hallows
  | _ =>
      have hrefuse : R.Mirrors side R.Like _ _ first second := mirrors_refuse htwin hcallee
      obtain ⟨parts, rfl⟩ := hcallee.exists_rebuild
      exact hrefuse

theorem mirrors_step_call (hblind : machine.host.Blind) (hself : R.SelfMirrors side self further)
    (htwin : R.Twin first second) {arguments others : List Term} (hcallee : R.Like first a b)
    (harguments : R.LikeAll first arguments others)
    (hallows : R.allows machine (.call a arguments) = true) :
    R.Mirrors side R.Like (machine.step self (.call a arguments))
      (machine.step further (.call b others)) first second := by
  cases a with
  | closure id params body home owner =>
      have hlike := hcallee
      obtain ⟨other, rfl, -⟩ := hcallee.closure
      apply mirrors_get
      rw [← htwin.depth]
      exact hself htwin (.apply hlike harguments _ _)
  | primitive callable =>
      obtain rfl := hcallee.eq_of_contents rfl
      exact mirrors_applyPrimitive hblind htwin hself callable harguments hallows
  | _ =>
      obtain ⟨parts, rfl⟩ := hcallee.exists_rebuild
      exact mirrors_fail htwin _

/-- Both forms of a literal have the same value, which a recoded one may have to call `list` for. -/
def LiteralsMirror (R : Recoding) (side : Side) (machine : Machine) (self further : Task → Run Term) :
    Prop :=
  ∀ {first second : Store}, R.Twin first second →
    ∀ {evaluator : EvaluatorId} {term : Term} {frame : FrameId} {depth : Nat},
      isData term = true → first.Lists frame → sizeOf term ≤ R.room →
        R.allows machine (.eval evaluator term frame depth) = true →
          R.Mirrors side R.Like (machine.step self (.eval evaluator term frame depth))
            (machine.step further (.eval evaluator (recode term) frame depth)) first second

/-- What one step preserves. -/
theorem mirrors_step (hblind : machine.host.Blind) (hself : R.SelfMirrors side self further)
    (hliterals : R.LiteralsMirror side machine self further) (htwin : R.Twin first second)
    {task other : Task} (hsame : R.Same first task other) (hallows : R.allows machine task = true) :
    R.Mirrors side R.Like (machine.step self task) (machine.step further other) first second := by
  cases hsame with
  | @eval evaluator a b frame hcode depth =>
      by_cases hnodes : a.isNode = b.isNode
      · exact mirrors_step_eval hself htwin hcode hnodes hallows
      · cases hcode with
        | value hlike => exact absurd hlike.isNode_eq hnodes
        | recoded hlists hplain hsize =>
            have hdata : isData a = true := by
              apply isData_of_isPlain hplain
              by_contra hnode
              rw [Bool.not_eq_false] at hnode
              exact hnodes (hnode.trans (isNode_recode hnode).symm)
            exact hliterals htwin hdata hlists hsize hallows
  | operator htext evaluator frame depth => exact mirrors_step_operator htwin htext hallows
  | apply hcallee harguments evaluator depth =>
      exact mirrors_step_apply hblind hself htwin hcallee harguments hallows
  | call hcallee harguments =>
      exact mirrors_step_call hblind hself htwin hcallee harguments hallows

end Steps

/-! ## Literals -/

section Literals

variable {machine : Machine} {evaluator : EvaluatorId} {frame : FrameId}

theorem yields_recode (hlimit : machine.limit evaluator = none) {base : Store}
    (hlists : base.Lists frame) {term : Term} (hdata : isData term = true) {bound : Nat}
    (hbound : sizeOf term ≤ bound) (depth : Nat) :
    Run.Yields base.frames (machine.run bound (.eval evaluator (recode term) frame depth))
      (· = term) := by
  induction term using Term.contents_induct generalizing bound depth with
  | h term ih =>
      -- A recoded list is a call, whose operands have one less of the bound and are smaller.
      have hpos : 0 < sizeOf term := by cases term <;> simp
      obtain ⟨bound, rfl⟩ := Nat.exists_eq_add_one_of_ne_zero (hpos.trans_le hbound).ne'
      cases hnode : (recode term).isNode with
      | false =>
          have hsame := recode_of_not_isNode hdata hnode
          rw [hsame] at hnode ⊢
          rw [Machine.run, Machine.step_data hnode]
          exact Run.yields_pure rfl
      | true =>
          cases term with
          | mapping entries =>
              rw [recode] at hnode ⊢
              split_ifs at hnode ⊢
              · rw [Machine.run, Machine.step_node hlimit rfl]
                exact Run.yields_pure rfl
              · cases hnode
          | list items =>
              rw [recode, ofItems] at hnode ⊢
              split_ifs at hnode ⊢
              · rw [isData, allData_iff] at hdata
                rw [Term.list.sizeOf_spec] at hbound
                have hitems : 0 < sizeOf items := by cases items <;> simp
                have hoperands : Run.Yields base.frames ((recodeAll items).mapM fun operand =>
                    machine.run bound (.eval evaluator operand frame (depth + 1)))
                    (· = items) := by
                  rw [recodeAll_eq_map]
                  apply Run.yields_mapM_map
                  intro item hitem
                  have hlt := List.sizeOf_lt_of_mem hitem
                  exact ih item hitem (hdata item hitem) (by omega) (depth + 1)
                apply Machine.yields_call .list hlimit (by decide) hlists (by omega) hoperands
                rintro values rfl
                exact ⟨_, rfl, rfl⟩
              · cases hnode
          | _ => cases (isNode_of_isData hdata).symm.trans hnode

theorem Twin.lists (htwin : R.Twin first second) (hlists : first.Lists frame) :
    second.Lists frame := by
  have hvalue := htwin.lookup?_rel frame "list"
  rw [Store.Lists] at hlists ⊢
  rw [hlists] at hvalue
  generalize second.lookup? frame "list" = y at hvalue
  cases hvalue with
  | some hlike => rw [hlike.eq_of_contents rfl]

theorem ends_of_yields {run : Run Term} (htwin : R.Twin first second) {term : Term}
    (hyields : Run.Yields second.frames run (· = term)) :
    R.Ends R.Like first (.ok term, first) (run second) := by
  obtain ⟨_, after, hrun, rfl, hlogs⟩ := hyields second rfl
  rw [hrun]
  refine ⟨.ok (.refl _), ?_, .refl first⟩
  refine htwin.of_rest rfl hlogs.frames (fun evaluator => ?_) rfl hlogs.closures rfl hlogs.notes
  rw [hlogs.depth, htwin.depth]

/-- A literal is done at once, and its recoded form needs no more than the room. -/
theorem literalsMirror_first (machine : Machine) (self : Task → Run Term) (bound : Nat) :
    R.LiteralsMirror .first machine self (machine.run (bound + R.room)) := by
  intro first second htwin evaluator term frame depth hdata hlists hsize hallows
  have hle : sizeOf term ≤ bound + R.room + 1 := by omega
  have hyields := yields_recode (eval_of_allows hallows).1 (htwin.lists hlists) hdata hle depth
  rw [Machine.step_data (isNode_of_isData hdata)]
  exact .inr (ends_of_yields htwin hyields)

/-- If the recoded form is done within a bound, then with the value that it has with any larger
one. -/
theorem literalsMirror_second (machine : Machine) (self : Task → Run Term) (mark bound : Nat) :
    R.LiteralsMirror (.second mark) machine self (machine.run bound) := by
  intro first second htwin evaluator term frame depth hdata hlists hsize hallows
  have hle : sizeOf term ≤ bound + 1 + R.room := by omega
  have hyields := yields_recode (eval_of_allows hallows).1 (htwin.lists hlists) hdata hle depth
  have hbelow := machine.below_run (Nat.le_add_right (bound + 1) R.room)
    (.eval evaluator (recode term) frame depth) second
  rw [Machine.step_data (isNode_of_isData hdata)]
  rcases hbelow with hunfinished | hlarger
  · exact .inl (.inr ⟨hunfinished, nofun⟩)
  · have hends := ends_of_yields htwin hyields
    rw [← hlarger] at hends
    exact .inr hends

end Literals

/-! ## Runs -/

section Runs

variable {machine : Machine}

/-- If the first run ends, the other one ends in the same way once it has room for literals. -/
theorem selfMirrors_first (hblind : machine.host.Blind) (mark bound : Nat) :
    R.SelfMirrors .first (machine.runGuarded (R.allows machine) (Machine.stop mark) bound)
      (machine.run (bound + R.room)) := by
  induction bound with
  | zero => exact fun _ _ _ _ => .inl (.inl ⟨rfl, trivial⟩)
  | succ bound ih =>
      intro first second htwin task other hsame
      have hrun : machine.run (bound + 1 + R.room) = machine.step (machine.run (bound + R.room)) := by
        rw [Nat.add_right_comm]
        rfl
      rw [Machine.runGuarded, hrun]
      split_ifs with hallows
      · exact mirrors_step hblind ih (literalsMirror_first machine _ bound) htwin hsame hallows
      · exact .inl (.inl ⟨rfl, trivial⟩)

/-- If the other run ends, the first one ends in the same way unless it is stopped. -/
theorem selfMirrors_second (hblind : machine.host.Blind) (mark bound : Nat) :
    R.SelfMirrors (.second mark) (machine.runGuarded (R.allows machine) (Machine.stop mark) bound)
      (machine.run bound) := by
  induction bound with
  | zero => exact fun _ _ _ _ => .inl (.inr ⟨rfl, nofun⟩)
  | succ bound ih =>
      intro first second htwin task other hsame
      rw [Machine.runGuarded, Machine.run]
      split_ifs with hallows
      · exact mirrors_step hblind ih (literalsMirror_second machine _ mark bound) htwin hsame hallows
      · exact .inl (.inl ⟨rfl, rfl⟩)

variable {task other : Task}

/-- A run that heeds the guard ends within some bound as the recoded one does with more room. -/
theorem ends_of_heeds (hblind : machine.host.Blind) (htwin : R.Twin first second)
    (hsame : R.Same first task other) (hheeds : machine.Heeds (R.allows machine) task first)
    {bound : Nat} (hends : (machine.run bound task first).1 ≠ .error .unfinished) :
    R.Ends R.Like first (machine.run bound task first)
      (machine.run (bound + R.room) other second) := by
  have hmirrors := selfMirrors_first hblind 0 bound htwin hsame
  rw [Mirrors, hheeds] at hmirrors
  obtain (⟨hunfinished, -⟩ | ⟨-, hside⟩) | hended := hmirrors
  · exact absurd hunfinished hends
  · exact absurd rfl hside
  · exact hended

/-- If the recoded run ends, so does one that heeds the guard: were it stopped, it would end with
whatever mark is left. -/
theorem ends_of_heeds_recoded (hblind : machine.host.Blind) (htwin : R.Twin first second)
    (hsame : R.Same first task other) (hheeds : machine.Heeds (R.allows machine) task first)
    {bound : Nat} (hends : (machine.run bound other second).1 ≠ .error .unfinished) :
    R.Ends R.Like first (machine.run bound task first) (machine.run bound other second) := by
  have hmarked : ∀ mark, (machine.run bound task first).2.closures = mark ∨
      R.Ends R.Like first (machine.run bound task first) (machine.run bound other second) := by
    intro mark
    have hmirrors := selfMirrors_second hblind mark bound htwin hsame
    rw [Mirrors, hheeds] at hmirrors
    obtain (⟨-, hmark⟩ | ⟨hunfinished, -⟩) | hended := hmirrors
    · exact .inl hmark
    · exact absurd hunfinished hends
    · exact .inr hended
  obtain hzero | hended := hmarked 0
  · exact (hmarked 1).resolve_left (by rw [hzero]; exact Nat.zero_ne_one)
  · exact hended

end Runs

end Recoding
end Rulebook
