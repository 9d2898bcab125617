import Rulebook.Condition.Reader
import Rulebook.Proofs.Evaluation.Yielding
import Rulebook.Proofs.Lending.Limits
import Rulebook.Proofs.Lending.Requests
import Rulebook.Proofs.Primitive.Ordering

/-!
# Top-ups are held between their limits

The rule for top-ups computes two limits with the accessors and applies a lambda to them, whose body
looks the amount up where the rule is applied.  What it gives is the number between the limits that
is nearest to the amount.  So applying it again changes nothing, and it keeps the order of amounts.
-/

namespace Rulebook

namespace Lending

/-- No property of environments and evaluators is called a segment. -/
theorem property?_segment_opened (machine : Machine) (store : Store) (customer : Term) :
    (machine.opened store customer).property? (.str "segment") =
      customer.property? (.str "segment") := by
  cases customer <;> rfl

/-! ## What is computed -/

def clampBody : Term :=
  .conditional (.call "<" [.variable "amount", .variable "lo"]) (.variable "lo")
    (.conditional (.call ">" [.variable "amount", .variable "hi"]) (.variable "hi")
      (.variable "amount"))

/-- The amount that is nearest to a given one between two limits. -/
def clamp (lo hi amount : Int) : Int :=
  max lo (min amount hi)

section Evaluation

variable {machine : Machine} {evaluator : EvaluatorId} {base : Store} {frame : FrameId}
  {customer region : Term} {amount : Int} (hhost : machine.host = standardLibrary)
  (hlimit : machine.limit evaluator = none) (hsees : Sees base frame customer region amount)
include hlimit hsees

/-! ## The condition -/

theorem yields_comparison (comparison : Comparison) {left right : Term} {m n : Int}
    {bound depth : Nat}
    (hleft : Run.Yields base.frames
      (machine.run (bound + 1) (.eval evaluator left frame (depth + 1))) (· = .int m))
    (hright : Run.Yields base.frames
      (machine.run (bound + 1) (.eval evaluator right frame (depth + 1))) (· = .int n)) :
    Run.Yields base.frames (machine.run (bound + 2)
      (.eval evaluator (.call comparison.primitive.name [left, right]) frame depth))
      (· = .bool (comparison.holds (fun x y => decide (x < y)) m n)) := by
  apply Machine.yields_primitive_call hlimit (hsees.core comparison.primitive)
  · exact Run.yields_mapM_cons hleft (Run.yields_mapM_cons hright (Run.yields_mapM_nil _))
  · apply Machine.yields_applyCore _ (comparison.apply_int m n)
    cases comparison <;> decide

theorem yields_condition {segment : Option Term}
    (hsegment : customer.property? (.str "segment") = .ok segment) (bound depth : Nat) :
    Run.Yields base.frames
      (machine.run (bound + 3) (.eval evaluator amountLimits.condition frame depth))
      (· = .bool (segment.isSome && decide (0 < amount))) := by
  have hcustomer := Machine.yields_variable hlimit hsees.customer bound (depth + 2)
  have hamount := Machine.yields_variable hlimit hsees.amount bound (depth + 2)
  have hproperty : Run.Yields base.frames
      (machine.run (bound + 2) (.eval evaluator hasSegment frame (depth + 1)))
      (· = .bool segment.isSome) := by
    apply Machine.yields_primitive_call hlimit (hsees.core .hasProperty)
    · exact Run.yields_mapM_cons hcustomer
        (Run.yields_mapM_cons (Machine.yields_data rfl bound _) (Run.yields_mapM_nil _))
    · apply Machine.yields_hasProperty
      intro store
      rw [property?_segment_opened, hsegment]
  have hzero : Run.Yields base.frames
      (machine.run (bound + 1) (.eval evaluator (.int 0) frame (depth + 2))) (· = .int 0) :=
    Machine.yields_data rfl bound _
  have hpositive := yields_comparison hlimit hsees .greater hamount hzero
  apply Machine.yields_primitive_call hlimit (hsees.core .and)
  · exact Run.yields_mapM_cons hproperty (Run.yields_mapM_cons hpositive (Run.yields_mapM_nil _))
  · apply Machine.yields_applyCore (by decide)
    cases segment <;> cases hlt : decide (0 < amount) <;>
      simp [CorePrimitive.apply, Term.isTruthy, Comparison.holds, hlt]

/-! ## The limits -/

section Limits

include hhost

theorem yields_accessor {name : String} {compute : List Term → Except Fault Term}
    (haccessor : (name, compute) ∈ accessors) {operands values : List Term} {value : Term}
    {bound depth : Nat}
    (hoperands : Run.Yields base.frames (operands.mapM fun operand =>
      machine.run (bound + 1) (.eval evaluator operand frame (depth + 1))) (· = values))
    (hvalue : compute values = .ok value) :
    Run.Yields base.frames
      (machine.run (bound + 2) (.eval evaluator (.call name operands) frame depth))
      (· = value) := by
  have hcompute : machine.host name = HostProgram.pure compute := by
    rw [hhost]
    exact standardLibrary_accessor haccessor
  exact Machine.yields_primitive_call hlimit (hsees.accessor _ haccessor) hoperands
    (Machine.yields_applyHost hcompute hvalue _)

theorem yields_segment {segment : String}
    (hsegment : customer.property? (.str "segment") = .ok (some (.str segment)))
    (bound depth : Nat) :
    Run.Yields base.frames (machine.run (bound + 2) (.eval evaluator segmentCall frame depth))
      (· = orNull Segment.toTerm (segment? segment)) := by
  have haccessor : ("get-customer-segment",
      unary fun customer => (customerSegment customer).map (orNull Segment.toTerm)) ∈
        accessors := by
    simp [accessors]
  have hcustomer := Machine.yields_variable hlimit hsees.customer bound (depth + 1)
  apply yields_accessor hhost hlimit hsees haccessor
    (Run.yields_mapM_cons hcustomer (Run.yields_mapM_nil _))
  rw [unary, customerSegment, hsegment]
  rfl

theorem yields_region {code : String} (hregion : regionCode region = .ok (.str code))
    (bound depth : Nat) :
    Run.Yields base.frames (machine.run (bound + 2) (.eval evaluator regionCall frame depth))
      (· = .str code) := by
  have haccessor : ("get-region-code", unary regionCode) ∈ accessors := by simp [accessors]
  have hregionRun := Machine.yields_variable hlimit hsees.region bound (depth + 1)
  exact yields_accessor hhost hlimit hsees haccessor
    (Run.yields_mapM_cons hregionRun (Run.yields_mapM_nil _)) hregion

variable {segment code : String}
  (hsegment : customer.property? (.str "segment") = .ok (some (.str segment)))
  (hregion : regionCode region = .ok (.str code))
include hsegment hregion

/-- A limit is called for with the segment as it is shown, and with the code of the region. -/
theorem yields_limit {name : String} {limit : Term → Term → Except Fault Int}
    (haccessor : (name, binary fun segment region => (limit segment region).map Term.int) ∈
      accessors) {n : Int}
    (hvalue : limit (orNull Segment.toTerm (segment? segment)) (.str code) = .ok n)
    (bound depth : Nat) :
    Run.Yields base.frames
      (machine.run (bound + 3) (.eval evaluator (accessorCall name) frame depth))
      (· = .int n) := by
  have hcustomer := yields_segment hhost hlimit hsees hsegment bound (depth + 1)
  have hcode := yields_region hhost hlimit hsees hregion bound (depth + 1)
  apply yields_accessor hhost hlimit hsees haccessor
    (Run.yields_mapM_cons hcustomer (Run.yields_mapM_cons hcode (Run.yields_mapM_nil _)))
  rw [binary, hvalue]
  rfl

theorem yields_limits {lo hi : Int}
    (hlo : minTopup (orNull Segment.toTerm (segment? segment)) (.str code) = .ok lo)
    (hhi : maxTopup (orNull Segment.toTerm (segment? segment)) (.str code) = .ok hi)
    (bound depth : Nat) :
    Run.Yields base.frames
      ([accessorCall "get-segment-min-topup", accessorCall "get-segment-max-topup"].mapM
        fun operand => machine.run (bound + 3) (.eval evaluator operand frame depth))
      (· = [.int lo, .int hi]) := by
  have hleast : ("get-segment-min-topup",
      binary fun segment region => (minTopup segment region).map Term.int) ∈ accessors := by
    simp [accessors]
  have hgreatest : ("get-segment-max-topup",
      binary fun segment region => (maxTopup segment region).map Term.int) ∈ accessors := by
    simp [accessors]
  have hminimum := yields_limit hhost hlimit hsees hsegment hregion hleast hlo bound depth
  have hmaximum := yields_limit hhost hlimit hsees hsegment hregion hgreatest hhi bound depth
  exact Run.yields_mapM_cons hminimum (Run.yields_mapM_cons hmaximum (Run.yields_mapM_nil _))

end Limits

/-! ## The lambda -/

theorem yields_clampBody {lo hi : Int}
    (hlo : base.lookup? frame "lo" = some (.int lo))
    (hhi : base.lookup? frame "hi" = some (.int hi)) (hle : lo ≤ hi) (bound depth : Nat) :
    Run.Yields base.frames (machine.run (bound + 4) (.eval evaluator clampBody frame depth))
      (· = .int (clamp lo hi amount)) := by
  have htruth : ∀ truth value, value = Term.bool truth → value.isTruthy = truth := by
    rintro (_ | _) _ rfl <;> rfl
  have hvariable : ∀ {name : String} {value : Term}, base.lookup? frame name = some value →
      ∀ bound depth, Run.Yields base.frames
        (machine.run (bound + 1) (.eval evaluator (.variable name) frame depth)) (· = value) :=
    Machine.yields_variable hlimit
  have hless := yields_comparison hlimit hsees .less
    (hvariable hsees.amount (bound + 1) (depth + 2)) (hvariable hlo (bound + 1) (depth + 2))
  have hgreater := yields_comparison hlimit hsees .greater
    (hvariable hsees.amount bound (depth + 3)) (hvariable hhi bound (depth + 3))
  apply Machine.yields_conditional hlimit (hless.mono (htruth _))
  · intro hlt
    have hclamp : clamp lo hi amount = lo := by
      rw [Comparison.holds, decide_eq_true_eq] at hlt
      rw [clamp]
      omega
    rw [hclamp]
    exact hvariable hlo (bound + 2) (depth + 1)
  · intro hnlt
    rw [Comparison.holds, decide_eq_false_iff_not] at hnlt
    apply Machine.yields_conditional hlimit (hgreater.mono (htruth _))
    · intro hgt
      have hclamp : clamp lo hi amount = hi := by
        rw [Comparison.holds, decide_eq_true_eq] at hgt
        rw [clamp]
        omega
      rw [hclamp]
      exact hvariable hhi (bound + 1) (depth + 2)
    · intro hngt
      have hclamp : clamp lo hi amount = amount := by
        rw [Comparison.holds, decide_eq_false_iff_not] at hngt
        rw [clamp]
        omega
      rw [hclamp]
      exact hvariable hsees.amount (bound + 1) (depth + 2)

end Evaluation

/-! ## The rule -/

variable {evaluator : EvaluatorId} {machine : Machine} {base : Store} {frame : FrameId}
  {customer region : Term} {amount : Int}

theorem enter_limits (store : Store) (frame : FrameId) (lo hi : Term) :
    Run.enter ["lo", "hi"] frame [lo, hi] store =
      (.ok store.frames.size, (store.push
        { bindings := [("lo", lo), ("hi", hi)], parent := some frame }).1.log
          (.frameEntered ["lo", "hi"])) := rfl

/-- The action gives the amount held between the limits, and leaves behind the frame in which it
has bound them. -/
theorem run_action (hhost : machine.host = standardLibrary)
    (hlimit : machine.limit evaluator = none) {store : Store}
    (hsees : Sees store frame customer region amount) {segment code : String}
    (hsegment : customer.property? (.str "segment") = .ok (some (.str segment)))
    (hregion : regionCode region = .ok (.str code)) {lo hi : Int}
    (hlo : minTopup (orNull Segment.toTerm (segment? segment)) (.str code) = .ok lo)
    (hhi : maxTopup (orNull Segment.toTerm (segment? segment)) (.str code) = .ok hi)
    (hle : lo ≤ hi) (bound depth : Nat) :
    ∃ inner after, machine.run (bound + 6) (.eval evaluator amountLimits.action frame depth) store =
        (.ok (.int (clamp lo hi amount)), after) ∧
      after.frames = (store.push inner).1.frames := by
  obtain ⟨id, created, hclose, hcreated⟩ := Machine.run_lambda hlimit ["lo", "hi"] clampBody store
    (bound + 4) (depth + 1)
  obtain ⟨_, called, harguments, rfl, hcalled⟩ := yields_limits hhost hlimit hsees hsegment hregion
    hlo hhi (bound + 2) (depth + 1) created hcreated
  -- So far no frame has been added: the closure is no frame, and the accessors leave none behind.
  have hframes : called.frames = store.frames := hcalled.frames.trans hcreated
  let inner : Frame := { bindings := [("lo", .int lo), ("hi", .int hi)], parent := some frame }
  let entered := (called.push inner).1.log (.frameEntered ["lo", "hi"])
  have hentered : entered.frames = (store.push inner).1.frames := congrArg (·.push inner) hframes
  have hlo' : (store.push inner).1.lookup? store.frames.size "lo" = some (.int lo) :=
    Store.lookup?_push_own rfl
  have hhi' : (store.push inner).1.lookup? store.frames.size "hi" = some (.int hi) :=
    Store.lookup?_push_own rfl
  obtain ⟨_, after, hvalue, rfl, hafter⟩ := yields_clampBody hlimit
    (hsees.push_limits (.int lo) (.int hi)) hlo' hhi' hle bound (depth + 1) entered hentered
  refine ⟨inner, after, ?_, hafter.frames.trans hentered⟩
  have haction : amountLimits.action = .application (.lambda ["lo", "hi"] clampBody)
      [accessorCall "get-segment-min-topup", accessorCall "get-segment-max-topup"] := rfl
  have hentering := enter_limits called frame (.int lo) (.int hi)
  rw [hframes] at hentering
  rw [haction, Machine.run_application hlimit hclose harguments,
    Machine.run_apply_closure hentering]
  exact hvalue

def least (segment code : String) : Int :=
  limitOf Segment.minTopups regionMinimums defaultMinimum (segment? segment) code

def greatest (segment code : String) : Int :=
  limitOf Segment.maxTopups regionMaximums defaultMaximum (segment? segment) code

theorem least_le_greatest (segment code : String) :
    0 < least segment code ∧ least segment code ≤ greatest segment code :=
  limits_ordered (fun _ hsegment => mem_segments_of_segment? hsegment) code

/-- What a top-up is granted: nothing without a segment or a positive amount. -/
def granted (segment : Option String) (code : String) (amount : Int) : Term :=
  match segment with
  | none => .null
  | some text =>
    if 0 < amount then .int (clamp (least text code) (greatest text code) amount) else .null

section Applied

variable {runner : Runner} {segment : Option String} {code : String}

theorem applyRule_amountLimits (hhost : runner.machine.host = standardLibrary)
    (hlimit : runner.machine.limit runner.evaluator = none) (hbound : 6 ≤ runner.bound)
    (hsegment : customer.property? (.str "segment") = .ok (segment.map Term.str))
    (hregion : regionCode region = .ok (.str code))
    (hsees : Sees base frame customer region amount) :
    ∃ after, runner.applyRule amountLimits frame base = (.ok (granted segment code amount), after) ∧
      (after.frames = base.frames ∨ ∃ inner, after.frames = (base.push inner).1.frames) := by
  obtain ⟨bound, hbound⟩ := Nat.exists_eq_add_of_le' hbound
  obtain ⟨_, middle, hcondition, rfl, hmiddle⟩ := yields_condition hlimit hsees hsegment
    (bound + 3) (base.callbackDepth runner.evaluator) base rfl
  have hvalue : runner.evaluate amountLimits.condition frame base =
      (.ok (.bool ((segment.map Term.str).isSome && decide (0 < amount))), middle) := by
    rw [← hcondition, Runner.evaluate, hbound]
    rfl
  have hpassed : (middle.log (.rulePassed amountLimits.id)).frames = base.frames := hmiddle.frames
  have hfired : (middle.log (.ruleFired amountLimits.id)).frames = base.frames := hmiddle.frames
  rw [Runner.applyRule, Run.bind_of_ok hvalue]
  cases segment with
  | none => exact ⟨_, rfl, .inl hpassed⟩
  | some text =>
      rw [granted]
      by_cases hpositive : 0 < amount
      · obtain ⟨inner, after, haction, hafter⟩ := run_action hhost hlimit
          (hsees.of_frames_eq hfired) hsegment hregion
          (topupLimit_eq (segmentOf_segmentCode text) code)
          (topupLimit_eq (segmentOf_segmentCode text) code) (least_le_greatest text code).2 bound
          (middle.callbackDepth runner.evaluator)
        have hresult : runner.evaluate amountLimits.action frame
            (middle.log (.ruleFired amountLimits.id)) =
              (.ok (.int (clamp (least text code) (greatest text code) amount)), after) := by
          rw [Runner.evaluate, hbound]
          exact haction
        have hframes : after.frames = (base.push inner).1.frames :=
          hafter.trans (congrArg (·.push inner) hfired)
        rw [decide_eq_true hpositive, if_pos hpositive]
        exact ⟨after, hresult, .inr ⟨inner, hframes⟩⟩
      · rw [decide_eq_false hpositive, if_neg hpositive]
        exact ⟨_, rfl, .inl hpassed⟩

/-- Applied in a root frame, whatever else the store holds, the rule grants what the limits allow,
and can be applied there again. -/
theorem applyRuleWith_amountLimits (hhost : runner.machine.host = standardLibrary)
    (hlimit : runner.machine.limit runner.evaluator = none) (hbound : 6 ≤ runner.bound)
    (hsegment : customer.property? (.str "segment") = .ok (segment.map Term.str))
    (hregion : regionCode region = .ok (.str code)) {store : Store} {root : FrameId}
    (hroot : IsRoot store root) {bindings : Bindings}
    (hbindings : bindings.Perm (requestBindings customer region amount)) :
    ∃ after, runner.applyRuleWith amountLimits root bindings store =
      (.ok (granted segment code amount), after) ∧ IsRoot after root := by
  obtain ⟨after, hresult, hframes⟩ := applyRule_amountLimits hhost hlimit hbound hsegment hregion
    (sees_extend hroot hbindings)
  refine ⟨after, ?_, ?_⟩
  · rw [Runner.applyRuleWith_eq, hresult]
  · have hinside : IsRoot (store.extend (some root) bindings).1 root := hroot.push _
    rcases hframes with hsame | ⟨inner, hpushed⟩
    · exact hinside.of_frames_eq hsame
    · exact (hinside.push inner).of_frames_eq hpushed

end Applied

/-! ## What is granted -/

/-- What the rule for top-ups grants in a root frame, by the amount that it is asked for. -/
structure HoldsTopups (runner : Runner) (root : FrameId) (customer region : Term)
    (segment : Option String) (code : String) (grant : Int → Term) : Prop where
  applied : ∀ store, IsRoot store root → ∀ amount bindings,
    bindings.Perm (requestBindings customer region amount) →
      ∃ after, runner.applyRuleWith amountLimits root bindings store =
        (.ok (grant amount), after) ∧ IsRoot after root
  null_iff : ∀ amount, grant amount = .null ↔ segment = none ∨ amount ≤ 0
  held : ∀ text ∈ segment, ∃ lo hi, minTopup (.str text) (.str code) = .ok lo ∧
    maxTopup (.str text) (.str code) = .ok hi ∧ lo ≤ hi ∧
      ∀ amount, 0 < amount → grant amount = .int (max lo (min amount hi))
  again : ∀ amount result, grant amount = .int result → grant result = .int result
  monotone : ∀ amount larger result, amount ≤ larger → grant amount = .int result →
    ∃ other, grant larger = .int other ∧ result ≤ other

theorem granted_eq_int {segment : Option String} {code : String} {amount result : Int}
    (hresult : granted segment code amount = .int result) :
    ∃ text, segment = some text ∧ 0 < amount ∧
      result = clamp (least text code) (greatest text code) amount := by
  cases segment with
  | none => cases hresult
  | some text =>
      rw [granted] at hresult
      by_cases hpositive : 0 < amount
      · rw [if_pos hpositive] at hresult
        cases hresult
        exact ⟨text, rfl, hpositive, rfl⟩
      · rw [if_neg hpositive] at hresult
        cases hresult

theorem granted_of_pos {amount : Int} (hpositive : 0 < amount) (text code : String) :
    granted (some text) code amount =
      .int (clamp (least text code) (greatest text code) amount) := by
  rw [granted, if_pos hpositive]

theorem clamp_pos {lo hi : Int} (hlo : 0 < lo) (amount : Int) : 0 < clamp lo hi amount :=
  lt_max_of_lt_left hlo

theorem clamp_clamp {lo hi : Int} (hle : lo ≤ hi) (amount : Int) :
    clamp lo hi (clamp lo hi amount) = clamp lo hi amount := by
  rw [clamp, clamp]
  omega

theorem clamp_mono {amount larger : Int} (hle : amount ≤ larger) (lo hi : Int) :
    clamp lo hi amount ≤ clamp lo hi larger :=
  max_le_max_left lo (min_le_min_right hi hle)

/-- The condition of a text asks for a segment and a positive amount. -/
theorem ofTerm_amountLimits :
    Condition.ofTerm (.str "has-property(customer, 'segment') AND amount > 0") =
      .ok amountLimits.condition := rfl

/-- The rule for top-ups never grants an amount beyond the limits: it grants nothing exactly if the
customer has no segment or asks for nothing, and else the amount held between the limits of the
segment in the region, which are in order.  Applied again to what it grants it changes nothing, and
for more it never grants less. -/
theorem holdsTopups_amountLimits {initial store : Store} {root : FrameId}
    (hroot : bootstrap .core initial = (.ok root, store)) {runner : Runner}
    (hhost : runner.machine.host = standardLibrary)
    (hlimit : runner.machine.limit runner.evaluator = none) (hbound : 6 ≤ runner.bound)
    {customer region : Term} {segment : Option String} {code : String}
    (hsegment : customer.property? (.str "segment") = .ok (segment.map Term.str))
    (hregion : regionCode region = .ok (.str code)) :
    Condition.ofTerm (.str "has-property(customer, 'segment') AND amount > 0") =
        .ok amountLimits.condition ∧
      IsRoot store root ∧
      ∃ grant, HoldsTopups runner root customer region segment code grant := by
  refine ⟨ofTerm_amountLimits, isRoot_bootstrap hroot, granted segment code, ?_⟩
  constructor
  · intro store hstore amount bindings hbindings
    exact applyRuleWith_amountLimits hhost hlimit hbound hsegment hregion hstore hbindings
  · intro amount
    cases segment with
    | none => simp [granted]
    | some text =>
        by_cases hpositive : 0 < amount
        · rw [granted_of_pos hpositive]
          simp [hpositive]
        · simp [granted, hpositive, Int.not_lt.mp hpositive]
  · rintro text rfl
    have hcode : segmentOf (segmentCode (.str text)) = .ok (segment? text) := segmentOf_str text
    exact ⟨least text code, greatest text code, topupLimit_eq hcode code, topupLimit_eq hcode code,
      (least_le_greatest text code).2, fun amount hpositive => granted_of_pos hpositive text code⟩
  · intro amount result hresult
    obtain ⟨text, rfl, -, rfl⟩ := granted_eq_int hresult
    obtain ⟨hlo, hle⟩ := least_le_greatest text code
    rw [granted_of_pos (clamp_pos hlo amount), clamp_clamp hle]
  · intro amount larger result hle hresult
    obtain ⟨text, rfl, hpositive, rfl⟩ := granted_eq_int hresult
    exact ⟨_, granted_of_pos (hpositive.trans_le hle) text code, clamp_mono hle _ _⟩

def lendingStore : Store :=
  (bootstrap .core {}).2

/-- Runs with what an application supplies, and without a limit. -/
def lendingRunner : Runner where
  machine := { host := standardLibrary, limit := fun _ => none }
  bound := 6
  evaluator := defaultEvaluator

/-- For Singapore the segment of most customers sets no limits, so that those of the region hold. -/
theorem holdsTopups_amountLimits_singapore :
    let customer : Term := .record .plain [(.str "segment", .str "Basic")]
    customer.property? (.str "segment") = .ok (some (.str "Basic")) ∧
      regionCode singapore.toTerm = .ok (.str "SG") ∧ IsRoot lendingStore 0 ∧
      ∃ grant, HoldsTopups lendingRunner 0 customer singapore.toTerm (some "Basic") "SG" grant ∧
        grant 40000 = .int 30000 := by
  intro customer
  have hsegment : customer.property? (.str "segment") = .ok (some (.str "Basic")) := rfl
  have hregion : regionCode singapore.toTerm = .ok (.str "SG") := rfl
  have hroot : bootstrap .core {} = (.ok 0, lendingStore) := rfl
  have hbound : 6 ≤ lendingRunner.bound := by decide
  have hheld : _ ∧ IsRoot lendingStore 0 ∧
      ∃ grant, HoldsTopups lendingRunner 0 customer singapore.toTerm (some "Basic") "SG" grant :=
    holdsTopups_amountLimits hroot rfl rfl hbound hsegment hregion
  obtain ⟨-, hstore, grant, hgrant⟩ := hheld
  refine ⟨hsegment, hregion, hstore, grant, hgrant, ?_⟩
  obtain ⟨lo, hi, hlo, hhi, -, hbetween⟩ := hgrant.held "Basic" rfl
  obtain rfl : lo = 1500 := by
    cases hlo
    rfl
  obtain rfl : hi = 30000 := by
    cases hhi
    rfl
  exact hbetween 40000 (by decide)

end Lending
end Rulebook
