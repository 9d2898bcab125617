import Mathlib
import Rulebook.Lending.Accessors

/-!
# Limits of lending

A least and a greatest top-up are looked up independently: either one comes from the segment, from
the region or from the default, and nothing makes them come from the same table.  They fit together
all the same, for every segment and every region, known or not.
-/

namespace Rulebook
namespace Lending

def limitOf (ofSegment : Segment → List (String × Int)) (ofRegions : List (String × Int))
    (default : Int) (segment : Option Segment) (code : String) : Int :=
  (segment.bind fun s => (ofSegment s).lookup code).getD ((ofRegions.lookup code).getD default)

theorem segmentOf_str (text : String) : segmentOf (.str text) = .ok (segment? text) := rfl

theorem entryOf_str (table : List (String × α)) (code : String) :
    entryOf table (.str code) = .ok (table.lookup code) := rfl

/-- A limit is the one for the segment that a term is the code of. -/
theorem topupLimit_eq {ofSegment : Segment → List (String × Int)}
    {ofRegions : List (String × Int)} {default : Int} {term : Term} {segment : Option Segment}
    (hsegment : segmentOf (segmentCode term) = .ok segment) (code : String) :
    topupLimit ofSegment ofRegions default term (.str code) =
      .ok (limitOf ofSegment ofRegions default segment code) := by
  rw [topupLimit, hsegment]
  cases segment with
  | none => rfl
  | some s =>
      rw [limitOf, Option.bind_some]
      simp only [entryOf_str]
      cases hown : (ofSegment s).lookup code <;> simp [bind, Except.bind, hown]

/-- A segment that was found by its code is found again by what it is shown as. -/
theorem segmentOf_segmentCode (text : String) :
    segmentOf (segmentCode (orNull Segment.toTerm (segment? text))) = .ok (segment? text) := by
  cases hsegment : segment? text with
  | none => rfl
  | some s =>
      have hcode : s.code = text := by simpa using List.find?_some hsegment
      have hshown : segmentCode (orNull Segment.toTerm (some s)) = .str s.code := rfl
      rw [hshown, hcode, segmentOf_str, hsegment]

def limitedCodes : List String :=
  ["UK", "HK", "SG"]

theorem lookup_eq_none {table : List (String × Int)}
    (htable : ∀ entry ∈ table, entry.1 ∈ limitedCodes) {code : String}
    (hcode : code ∉ limitedCodes) : table.lookup code = none := by
  rw [List.lookup_eq_none_iff]
  intro entry hentry
  rw [bne_iff_ne]
  rintro rfl
  exact hcode (htable entry hentry)

/-- Elsewhere the defaults hold, whatever the segment. -/
theorem limitOf_elsewhere {ofSegment : Segment → List (String × Int)}
    (hsegments : ∀ s ∈ segments, ∀ entry ∈ ofSegment s, entry.1 ∈ limitedCodes)
    {ofRegions : List (String × Int)} (hregions : ∀ entry ∈ ofRegions, entry.1 ∈ limitedCodes)
    {segment : Option Segment} (hsegment : ∀ s ∈ segment, s ∈ segments) {code : String}
    (hcode : code ∉ limitedCodes) (default : Int) :
    limitOf ofSegment ofRegions default segment code = default := by
  rw [limitOf, lookup_eq_none hregions hcode]
  cases segment with
  | none => rfl
  | some s => rw [Option.bind_some, lookup_eq_none (hsegments s (hsegment s rfl)) hcode]; rfl

/-- The least top-up is positive and at most the greatest. -/
theorem limits_ordered {segment : Option Segment} (hsegment : ∀ s ∈ segment, s ∈ segments)
    (code : String) :
    0 < limitOf Segment.minTopups regionMinimums defaultMinimum segment code ∧
      limitOf Segment.minTopups regionMinimums defaultMinimum segment code ≤
        limitOf Segment.maxTopups regionMaximums defaultMaximum segment code := by
  by_cases hcode : code ∈ limitedCodes
  · have hlisted : ∀ segment ∈ none :: segments.map some, ∀ code ∈ limitedCodes,
        0 < limitOf Segment.minTopups regionMinimums defaultMinimum segment code ∧
          limitOf Segment.minTopups regionMinimums defaultMinimum segment code ≤
            limitOf Segment.maxTopups regionMaximums defaultMaximum segment code := by
      decide
    apply hlisted _ _ code hcode
    cases segment with
    | none => exact List.mem_cons_self
    | some s => exact List.mem_cons_of_mem _ (List.mem_map_of_mem (hsegment s rfl))
  · rw [limitOf_elsewhere (by decide) (by decide) hsegment hcode,
      limitOf_elsewhere (by decide) (by decide) hsegment hcode]
    decide

theorem mem_segments_of_segment? {text : String} {segment : Segment}
    (hsegment : segment ∈ segment? text) : segment ∈ segments :=
  List.mem_of_find?_eq_some hsegment

end Lending
end Rulebook
