import Rulebook.Evaluation.Host
import Rulebook.Lending.Reference
import Rulebook.Term.Arithmetic
import Rulebook.Term.Order
import Rulebook.Term.Property

/-!
# Accessors of lending

The functions through which rules see the reference data.  Codes come from rules and customers and
can be any term: one that cannot be a key is refused, one that names nothing is unknown.
-/

namespace Rulebook
namespace Lending

/-- The text that a code is, if it can be a key at all. -/
def code? (code : Term) : Except Fault (Option String) :=
  if code.isKey then .ok code.text? else .error .unfit

def regionOf (code : Term) : Except Fault (Option Region) := do
  .ok ((← code? code).bind region?)

def segmentOf (code : Term) : Except Fault (Option Segment) := do
  .ok ((← code? code).bind segment?)

def entryOf (table : List (String × α)) (code : Term) : Except Fault (Option α) := do
  .ok ((← code? code).bind fun text => table.lookup text)

/-- The code of a segment, given as a record or as the code itself. -/
def segmentCode (segment : Term) : Term :=
  match segment with
  | .record type fields =>
    if type = segmentType then (Entries.find? (.str "code") fields).getD .null else segment
  | other => other

/-- The code of a region, given as a record, as a mapping with a code, or as the code itself. -/
def regionCode (region : Term) : Except Fault Term :=
  match region with
  | .record type fields =>
    .ok (if type = regionType then (Entries.find? (.str "code") fields).getD .null else region)
  | .mapping entries => match Entries.find? (.str "code") entries with
    | some code => .ok code
    | none => .error .noKey
  | other => .ok other

def customerSegment (customer : Term) : Except Fault (Option Segment) := do
  segmentOf ((← customer.property? (.str "segment")).getD .null)

/-- A limit: the one of the segment for the region, or else the one of the region, or else the
default. -/
def topupLimit (ofSegment : Segment → List (String × Int)) (ofRegions : List (String × Int))
    (default : Int) (segment region : Term) : Except Fault Int := do
  let own ← match ← segmentOf (segmentCode segment) with
    | some s => entryOf (ofSegment s) region
    | none => .ok none
  match own with
  | some limit => .ok limit
  | none => .ok ((← entryOf ofRegions region).getD default)

def minTopup (segment region : Term) : Except Fault Int :=
  topupLimit Segment.minTopups regionMinimums defaultMinimum segment region

def maxTopup (segment region : Term) : Except Fault Int :=
  topupLimit Segment.maxTopups regionMaximums defaultMaximum segment region

def interestRate (segment region : Term) : Except Fault Float := do
  match ← segmentOf (segmentCode segment) with
  | some s => .ok ((← entryOf s.interestRates region).getD defaultRate)
  | none => .ok defaultRate

def benefits (segment region : Term) : Except Fault (List String) := do
  match ← segmentOf (segmentCode segment) with
  | some s => .ok ((← entryOf s.benefits region).getD [])
  | none => .ok []

def compareWith (comparison : Comparison) (term : Term) (n : Int) : Except Fault Bool :=
  match term.compare? comparison (.int n) with
  | some holds => .ok holds
  | none => .error .unfit

/-- The base amount times the multiplier of the segment, within the limits of the region. -/
def limitedAmount (region segment base : Term) : Except Fault Term := do
  let multiplier := ((← segmentOf segment).map Segment.multiplier).getD 1.0
  let greatest := (← entryOf regionMaximums region).getD defaultMaximum
  let least := (← entryOf regionMinimums region).getD defaultMinimum
  let amount ← base.multiply (.float multiplier)
  if ← compareWith .greater amount greatest then .ok (.int greatest)
  else if ← compareWith .less amount least then .ok (.int least)
  else .ok amount

/-- The property of a customer record, which has to be a mapping. -/
def customerEntry (customer : Term) (key : String) (default : Term) : Except Fault Term :=
  match customer with
  | .mapping entries => .ok ((Entries.find? (.str key) entries).getD default)
  | other =>
    if Entries.contains (.str "get") other.attributes then .error .unfit
    else .error .noAttribute

def ineligible (reason : String) : Term :=
  .mapping [(.str "eligible", .bool false), (.str "reason", .str reason)]

/-- Whether a customer may top up a loan.  Age, income and age of the account are checked in this
order, and the first that fails is the reason. -/
def eligibility (customer region : Term) : Except Fault Term := do
  let segmentTerm ← customerEntry customer "segment" .null
  let segment ← segmentOf segmentTerm
  let minIncome ← match segment with
    | some s => .ok ((← entryOf s.minIncomes region).getD 0)
    | none => .ok 0
  let minAccountAge := (segment.map Segment.minAccountAge).getD defaultAccountAge
  if ← compareWith .less (← customerEntry customer "age" (.int 0)) minimumAge then
    .ok (ineligible ("Customer must be at least " ++ toString minimumAge ++ " years old"))
  else if ← compareWith .less (← customerEntry customer "annualIncome" (.int 0)) minIncome then
    .ok (ineligible "Customer income below minimum requirement")
  else if ← compareWith .less (← customerEntry customer "accountAgeMonths" (.int 0))
      minAccountAge then
    .ok (ineligible "Account not established long enough")
  else
    let offers ← benefits segmentTerm region
    .ok (.mapping [(.str "eligible", .bool true), (.str "benefits", .list (offers.map Term.str))])

/-- The interest rate, lower for large amounts and higher for small ones. -/
def rateForAmount (segment region amount : Term) : Except Fault Float := do
  let rate ← interestRate segment region
  if ← compareWith .greater amount 50000 then .ok (rate - 0.25)
  else if ← compareWith .less amount 5000 then .ok (rate + 0.5)
  else .ok rate

def orNull (toTerm : α → Term) (value : Option α) : Term :=
  (value.map toTerm).getD .null

def unary (f : Term → Except Fault Term) : List Term → Except Fault Term
  | [a] => f a
  | _ => .error .unfit

def binary (f : Term → Term → Except Fault Term) : List Term → Except Fault Term
  | [a, b] => f a b
  | _ => .error .unfit

def ternary (f : Term → Term → Term → Except Fault Term) : List Term → Except Fault Term
  | [a, b, c] => f a b c
  | _ => .error .unfit

/-- The accessors that rules can call, in the order in which they are registered. -/
def accessors : List (String × (List Term → Except Fault Term)) :=
  [("get-region", unary fun code => (regionOf code).map (orNull Region.toTerm)),
   ("get-region-code", unary regionCode),
   ("get-customer-segment",
    unary fun customer => (customerSegment customer).map (orNull Segment.toTerm)),
   ("get-segment-min-topup", binary fun segment region => (minTopup segment region).map Term.int),
   ("get-segment-max-topup", binary fun segment region => (maxTopup segment region).map Term.int),
   ("get-segment-interest-rate",
    binary fun segment region => (interestRate segment region).map Term.float),
   ("get-segment-benefits",
    binary fun segment region =>
      (benefits segment region).map fun offers => .list (offers.map Term.str)),
   ("has-segment-benefits",
    binary fun segment region =>
      (benefits segment region).map fun offers => .bool !offers.isEmpty),
   ("apply-amount-rule", ternary limitedAmount),
   ("apply-eligibility-rule", binary eligibility),
   ("calculate-interest-rate",
    ternary fun segment region amount => (rateForAmount segment region amount).map Term.float)]

def getSegment : List Term → Except Fault Term :=
  unary fun code => (segmentOf code).map (orNull Segment.toTerm)

def hostFunctions : List (String × (List Term → HostProgram)) :=
  accessors.map fun (name, f) => (name, HostProgram.pure f)

end Lending
end Rulebook
