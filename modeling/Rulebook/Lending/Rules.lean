import Rulebook.Lending.Accessors
import Rulebook.Primitive.Registry
import Rulebook.Rule.Basic

/-!
# Rules of lending

The business rules for topping up loans, and the registry that they are evaluated with.  The rules
speak of a customer, a region and an amount, which whoever applies them has to bind.
-/

namespace Rulebook
namespace Lending

def register (registry : Registry) : Registry :=
  registry.withHost (accessors.map Prod.fst)

def regionBindings : Bindings :=
  regions.map fun region => (region.code, region.toTerm)

/-- Creates a root frame with a registry, the accessors and the regions. -/
def bootstrap (registry : Registry) : Run FrameId :=
  (register registry).bootstrap regionBindings

def segmentCall : Term :=
  .call "get-customer-segment" [.variable "customer"]

def regionCall : Term :=
  .call "get-region-code" [.variable "region"]

def accessorCall (name : String) : Term :=
  .call name [segmentCall, regionCall]

def hasSegment : Term :=
  .call "has-property" [.variable "customer", .str "segment"]

/-- Holds an amount between two limits. -/
def clampLambda : Term :=
  .lambda ["lo", "hi"]
    (.conditional (.call "<" [.variable "amount", .variable "lo"]) (.variable "lo")
      (.conditional (.call ">" [.variable "amount", .variable "hi"]) (.variable "hi")
        (.variable "amount")))

/-- Holds the amount between the limits of the segment in the region. -/
def amountLimits : Rule where
  id := "BR001"
  condition := .call "and" [hasSegment, .call ">" [.variable "amount", .int 0]]
  action := .application clampLambda
    [accessorCall "get-segment-min-topup", accessorCall "get-segment-max-topup"]
  note := .described
    { description := "Top-up amount must be between the minimum and maximum pre-approved " ++
        "limits for the customer's segment and region"
      rationale := "Ensures the additional borrowing is within affordability parameters " ++
        "appropriate for customer segment and local market conditions"
      errorKey := some "amount_limit_error"
      given := ["description", "rationale", "error_key"] }
  priority := 30

def interestRateRule : Rule where
  id := "BR002"
  condition := hasSegment
  action := accessorCall "get-segment-interest-rate"
  note := .described
    { description := "Interest rates must be determined based on customer segment and region"
      rationale := "Different customer segments qualify for different rates in each region"
      errorKey := some "interest_rate_calculation"
      given := ["description", "rationale", "error_key"] }
  priority := 20

def segmentBenefits : Rule where
  id := "BR005"
  condition := accessorCall "has-segment-benefits"
  action := accessorCall "get-segment-benefits"
  note := .described
    { description := "Customer benefits must be determined based on customer segment and region"
      rationale := "Different customer segments qualify for different benefits in each region"
      errorKey := some "segment_benefits"
      given := ["description", "rationale", "error_key"] }
  priority := 10

def rules : List Rule :=
  [amountLimits, interestRateRule, segmentBenefits]

end Lending
end Rulebook
