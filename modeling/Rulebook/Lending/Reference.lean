import Rulebook.Term.Basic

/-!
# Reference data of lending

The regions in which loans are topped up, the segments of customers, and the limits that hold
where a segment sets none.
-/

namespace Rulebook
namespace Lending

structure Region where
  code : String
  name : String
  currency : String
  currencySymbol : String
  regulatoryBody : String
  coolingOffPeriod : Int
  language : String
  dateFormat : String := "DD/MM/YYYY"

/-- A segment of customers, with prices and limits by region code. -/
structure Segment where
  code : String
  description : String
  multiplier : Float
  interestRates : List (String × Float)
  minIncomes : List (String × Int)
  minAccountAge : Int
  benefits : List (String × List String)
  minTopups : List (String × Int) := []
  maxTopups : List (String × Int) := []

def regionType : RecordType where
  name := "Region"
  label := "Region"
  frozen := true

def segmentType : RecordType where
  name := "CustomerSegment"
  label := "CustomerSegment"
  frozen := true

def Region.toTerm (region : Region) : Term :=
  .record regionType
    [(.str "code", .str region.code), (.str "name", .str region.name),
     (.str "currency", .str region.currency),
     (.str "currency_symbol", .str region.currencySymbol),
     (.str "regulatory_body", .str region.regulatoryBody),
     (.str "cooling_off_period", .int region.coolingOffPeriod),
     (.str "language", .str region.language), (.str "date_format", .str region.dateFormat)]

def tableTerm (value : α → Term) (table : List (String × α)) : Term :=
  .mapping (table.map fun (code, x) => (.str code, value x))

def Segment.toTerm (segment : Segment) : Term :=
  .record segmentType
    [(.str "code", .str segment.code), (.str "description", .str segment.description),
     (.str "multiplier", .float segment.multiplier),
     (.str "interest_rates", tableTerm Term.float segment.interestRates),
     (.str "min_incomes", tableTerm Term.int segment.minIncomes),
     (.str "min_account_age", .int segment.minAccountAge),
     (.str "benefits", tableTerm (fun texts => .list (texts.map Term.str)) segment.benefits),
     (.str "min_topup_amounts", tableTerm Term.int segment.minTopups),
     (.str "max_topup_amounts", tableTerm Term.int segment.maxTopups)]

def unitedKingdom : Region where
  code := "UK"
  name := "United Kingdom"
  currency := "GBP"
  currencySymbol := "£"
  regulatoryBody := "FCA"
  coolingOffPeriod := 14
  language := "en-GB"

def hongKong : Region where
  code := "HK"
  name := "Hong Kong"
  currency := "HKD"
  currencySymbol := "HK$"
  regulatoryBody := "HKMA"
  coolingOffPeriod := 10
  language := "zh-HK"

def singapore : Region where
  code := "SG"
  name := "Singapore"
  currency := "SGD"
  currencySymbol := "S$"
  regulatoryBody := "MAS"
  coolingOffPeriod := 7
  language := "en-SG"

def regions : List Region :=
  [unitedKingdom, hongKong, singapore]

def everywhere (value : α) : List (String × α) :=
  regions.map fun region => (region.code, value)

def basic : Segment where
  code := "Basic"
  description := "Standard retail banking customers"
  multiplier := 1.0
  interestRates := [("UK", 6.5), ("HK", 6.9), ("SG", 6.7)]
  minIncomes := [("UK", 15000), ("HK", 120000), ("SG", 24000)]
  minAccountAge := 6
  benefits := everywhere ["Standard processing"]
  minTopups := [("UK", 1000), ("HK", 10000)]
  maxTopups := [("UK", 25000), ("HK", 200000)]

def wealth : Segment where
  code := "Wealth"
  description := "Premier or priority banking customers with higher value accounts"
  multiplier := 1.5
  interestRates := [("UK", 5.4), ("HK", 5.8), ("SG", 5.5)]
  minIncomes := [("UK", 75000), ("HK", 600000), ("SG", 120000)]
  minAccountAge := 3
  benefits :=
    [("UK", ["Preferential rates", "Dedicated relationship manager", "Fee waivers"]),
     ("HK", ["Priority processing", "Jade status points", "Fee waivers"]),
     ("SG", ["Preferential rates", "Dedicated relationship manager", "Fee waivers"])]
  minTopups := [("UK", 5000), ("HK", 50000)]
  maxTopups := [("UK", 100000), ("HK", 800000)]

/-- The segment of customers with most money, who have no limits of their own. -/
def privateBanking : Segment where
  code := "Private"
  description := "Private banking customers"
  multiplier := 2.0
  interestRates := [("UK", 4.9), ("HK", 5.2), ("SG", 5.0)]
  minIncomes := [("UK", 150000), ("HK", 1200000), ("SG", 240000)]
  minAccountAge := 1
  benefits := everywhere
    ["Bespoke rates", "Dedicated private banker", "All fees waived", "Expedited processing"]

def segments : List Segment :=
  [basic, wealth, privateBanking]

def region? (code : String) : Option Region :=
  regions.find? fun region => region.code = code

def segment? (code : String) : Option Segment :=
  segments.find? fun segment => segment.code = code

def regionMinimums : List (String × Int) :=
  [("UK", 1000), ("HK", 5000), ("SG", 1500)]

def regionMaximums : List (String × Int) :=
  [("UK", 25000), ("HK", 150000), ("SG", 30000)]

def defaultMinimum : Int := 500

def defaultMaximum : Int := 10000

def defaultRate : Float := 7.5

/-- The least age of an account, in months, where none is set. -/
def defaultAccountAge : Int := 12

def minimumAge : Int := 21

end Lending
end Rulebook
