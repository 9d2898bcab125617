import Rulebook.Proofs.Term.Contents

/-!
# Equality is symmetric and transitive

Equal terms need not be the same: numbers of different kinds have the same value, the entries of
mappings come in different orders, and the kind of a node counts as its word.  Equality is a partial
equivalence nevertheless, because it compares what terms stand for.  It is not reflexive, since a
NaN equals nothing.

A mapping can be looked up in another one from either side only because keys differ.
-/

namespace Rulebook

/-! ## Scalars -/

/-- What a scalar stands for in comparisons. -/
inductive Scalar.Sense where
  | null
  | text (s : String)
  | moment (moment : Moment)
  | number (magnitude : Double.Magnitude)

namespace Scalar

/-- A NaN stands for nothing. -/
def sense? : Scalar → Option Sense
  | .null => some .null
  | .str s => some (.text s)
  | .moment m => some (.moment m)
  | other => other.magnitude?.map Sense.number

theorem equal_iff_sense? (a b : Scalar) :
    a.equal b = true ↔ a.sense? ≠ none ∧ a.sense? = b.sense? := by
  have hnull : Scalar.null.magnitude? = none := rfl
  have hstr : ∀ s, (Scalar.str s).magnitude? = none := fun _ => rfl
  have hmoment : ∀ m, (Scalar.moment m).magnitude? = none := fun _ => rfl
  -- Magnitudes are numbers of many digits, and must not be computed.
  rcases ha : a.magnitude? with _ | x <;> rcases hb : b.magnitude? with _ | y <;>
    cases a <;> cases b <;>
      simp_all only [equal, sense?, reduceCtorEq, Option.map_none, Option.map_some, beq_iff_eq] <;>
        simp

theorem equal_symm {a b : Scalar} (hequal : a.equal b = true) : b.equal a = true := by
  rw [equal_iff_sense?] at hequal ⊢
  obtain ⟨hsense, hsame⟩ := hequal
  exact ⟨hsame ▸ hsense, hsame.symm⟩

theorem equal_trans {a b c : Scalar} (hab : a.equal b = true) (hbc : b.equal c = true) :
    a.equal c = true := by
  rw [equal_iff_sense?] at hab hbc ⊢
  exact ⟨hab.1, hab.2.trans hbc.2⟩

end Scalar

/-! ## Entries -/

namespace Entries

/-- No two entries have equal keys. -/
def Distinct (entries : List (Scalar × Term)) : Prop :=
  entries.Pairwise fun entry other => entry.1.equal other.1 = false

theorem Distinct.index_eq {entries : List (Scalar × Term)} (hdistinct : Distinct entries)
    {i j : Nat} (hi : i < entries.length) (hj : j < entries.length)
    (hkey : entries[i].1.equal entries[j].1 = true) : i = j := by
  rw [Distinct, List.pairwise_iff_getElem] at hdistinct
  rcases Nat.lt_trichotomy i j with hlt | heq | hgt
  · rw [hdistinct i j hi hj hlt] at hkey
    cases hkey
  · exact heq
  · have hback := Scalar.equal_symm hkey
    rw [hdistinct j i hj hi hgt] at hback
    cases hback

theorem find?_of_mem {entries : List (Scalar × Term)} (hdistinct : Distinct entries)
    {entry : Scalar × Term} (hentry : entry ∈ entries) {key : Scalar}
    (hkey : entry.1.equal key = true) : find? key entries = some entry.2 := by
  induction entries with
  | nil => exact absurd hentry List.not_mem_nil
  | cons first rest ih =>
      rw [Distinct, List.pairwise_cons] at hdistinct
      rw [find?, List.find?_cons]
      rcases List.mem_cons.mp hentry with rfl | hrest
      · simp only [hkey, Option.map_some]
      · have hfirst : first.1.equal key = false := by
          by_contra htrue
          rw [Bool.not_eq_false] at htrue
          have hsame := Scalar.equal_trans htrue (Scalar.equal_symm hkey)
          rw [hdistinct.1 entry hrest] at hsame
          cases hsame
        simp only [hfirst]
        exact ih hdistinct.2 hrest

end Entries

namespace Term

theorem equalEntries_iff {entries others : List (Scalar × Term)}
    (hothers : Entries.Distinct others) :
    equalEntries entries others = true ↔ ∀ entry ∈ entries, ∃ other ∈ others,
      other.1.equal entry.1 = true ∧ entry.2.equal other.2 = true := by
  induction entries with
  | nil => simp [equalEntries]
  | cons entry rest ih =>
      obtain ⟨key, value⟩ := entry
      rw [equalEntries, Bool.and_eq_true, ih, List.forall_mem_cons]
      apply and_congr_left'
      constructor
      · intro hfound
        cases hfind : Entries.find? key others with
        | none =>
            rw [hfind] at hfound
            cases hfound
        | some found =>
            rw [hfind] at hfound
            obtain ⟨other, hother, hkey, rfl⟩ := Hereditary.mem_of_entries_find? hfind
            exact ⟨other, hother, hkey, hfound⟩
      · rintro ⟨other, hother, hkey, hvalue⟩
        rw [Entries.find?_of_mem hothers hother hkey]
        exact hvalue

/-- Each entry has its counterpart, and different entries have different ones.  So among as many
others none is left over. -/
theorem equalEntries_symm {entries others : List (Scalar × Term)}
    (hlength : entries.length = others.length) (hentries : Entries.Distinct entries)
    (hothers : Entries.Distinct others)
    (hsymm : ∀ entry ∈ entries, ∀ other ∈ others, entry.2.equal other.2 = true →
      other.2.equal entry.2 = true)
    (hequal : equalEntries entries others = true) : equalEntries others entries = true := by
  rw [equalEntries_iff hothers] at hequal
  rw [equalEntries_iff hentries]
  have hpartner : ∀ i : Fin entries.length, ∃ j : Fin others.length,
      others[j].1.equal entries[i].1 = true ∧ entries[i].2.equal others[j].2 = true := by
    intro i
    obtain ⟨other, hother, hkey, hvalue⟩ := hequal entries[i] (List.getElem_mem i.isLt)
    obtain ⟨j, hj, rfl⟩ := List.mem_iff_getElem.mp hother
    exact ⟨⟨j, hj⟩, hkey, hvalue⟩
  choose partner hkeys hvalues using hpartner
  have hinjective : Function.Injective partner := by
    intro i k hpartner
    have hi := Scalar.equal_symm (hkeys i)
    rw [hpartner] at hi
    exact Fin.ext (hentries.index_eq i.isLt k.isLt (Scalar.equal_trans hi (hkeys k)))
  have hsurjective : Function.Surjective partner :=
    (Finite.injective_iff_surjective_of_equiv (finCongr hlength)).mp hinjective
  intro other hother
  obtain ⟨j, hj, rfl⟩ := List.mem_iff_getElem.mp hother
  obtain ⟨i, hi⟩ := hsurjective ⟨j, hj⟩
  have hkey := hkeys i
  have hvalue := hvalues i
  rw [hi] at hkey hvalue
  have hmem : entries[i] ∈ entries := List.getElem_mem i.isLt
  exact ⟨entries[i], hmem, Scalar.equal_symm hkey, hsymm _ hmem _ hother hvalue⟩

theorem equalEntries_trans {entries others lasts : List (Scalar × Term)}
    (hothers : Entries.Distinct others) (hlasts : Entries.Distinct lasts)
    (htrans : ∀ entry ∈ entries, ∀ other ∈ others, ∀ last ∈ lasts,
      entry.2.equal other.2 = true → other.2.equal last.2 = true → entry.2.equal last.2 = true)
    (hequal : equalEntries entries others = true) (hequal' : equalEntries others lasts = true) :
    equalEntries entries lasts = true := by
  rw [equalEntries_iff hothers] at hequal
  rw [equalEntries_iff hlasts] at hequal' ⊢
  intro entry hentry
  obtain ⟨other, hother, hkey, hvalue⟩ := hequal entry hentry
  obtain ⟨last, hlast, hkey', hvalue'⟩ := hequal' other hother
  exact ⟨last, hlast, Scalar.equal_trans hkey' hkey,
    htrans entry hentry other hother last hlast hvalue hvalue'⟩

/-! ## Lists -/

theorem equalAll_symm {items others : List Term}
    (hsymm : ∀ item ∈ items, ∀ other ∈ others, item.equal other = true → other.equal item = true)
    (hequal : equalAll items others = true) : equalAll others items = true := by
  induction items generalizing others with
  | nil =>
      cases others with
      | nil => rfl
      | cons other rest => cases hequal
  | cons item rest ih =>
      cases others with
      | nil => cases hequal
      | cons other more =>
          rw [equalAll, Bool.and_eq_true] at hequal ⊢
          constructor
          · exact hsymm item List.mem_cons_self other List.mem_cons_self hequal.1
          · apply ih _ hequal.2
            intro part hpart counterpart hcounterpart
            exact hsymm part (List.mem_cons_of_mem item hpart) counterpart
              (List.mem_cons_of_mem other hcounterpart)

theorem equalAll_trans {items others lasts : List Term}
    (htrans : ∀ item ∈ items, ∀ other ∈ others, ∀ last ∈ lasts,
      item.equal other = true → other.equal last = true → item.equal last = true)
    (hequal : equalAll items others = true) (hequal' : equalAll others lasts = true) :
    equalAll items lasts = true := by
  induction items generalizing others lasts with
  | nil =>
      cases others with
      | nil => exact hequal'
      | cons other rest => cases hequal
  | cons item rest ih =>
      cases others with
      | nil => cases hequal
      | cons other more =>
          cases lasts with
          | nil => cases hequal'
          | cons last tail =>
              rw [equalAll, Bool.and_eq_true] at hequal hequal' ⊢
              constructor
              · exact htrans item List.mem_cons_self other List.mem_cons_self last
                  List.mem_cons_self hequal.1 hequal'.1
              · apply ih _ hequal.2 hequal'.2
                intro first hfirst second hsecond third hthird
                exact htrans first (List.mem_cons_of_mem item hfirst) second
                  (List.mem_cons_of_mem other hsecond) third (List.mem_cons_of_mem last hthird)

/-! ## Terms -/

theorem sizeOf_lt_of_mem_contents {part term : Term} (hpart : part ∈ term.contents) :
    sizeOf part < sizeOf term := by
  have hitems : ∀ {items : List Term}, part ∈ items → sizeOf part < sizeOf items :=
    fun hmem => List.sizeOf_lt_of_mem hmem
  have hentries : ∀ {entries : List (Scalar × Term)}, part ∈ entries.map Prod.snd →
      sizeOf part < sizeOf entries := by
    intro entries hmem
    obtain ⟨entry, hentry, rfl⟩ := List.mem_map.mp hmem
    have hlt := List.sizeOf_lt_of_mem hentry
    have hsize : sizeOf entry = 1 + sizeOf entry.1 + sizeOf entry.2 := Prod.mk.sizeOf_spec _ _
    omega
  cases term <;> simp only [contents, List.mem_cons, List.not_mem_nil, or_false] at hpart <;>
    simp only [list.sizeOf_spec, tuple.sizeOf_spec, mapping.sizeOf_spec, record.sizeOf_spec,
      closure.sizeOf_spec, application.sizeOf_spec, lambda.sizeOf_spec, conditional.sizeOf_spec,
      assignment.sizeOf_spec, definition.sizeOf_spec, sequence.sizeOf_spec, quoted.sizeOf_spec]
  case list | tuple | sequence =>
    have := hitems hpart
    omega
  case mapping | record =>
    have := hentries hpart
    omega
  case application operator operands =>
    rcases hpart with rfl | hpart
    · omega
    · have := hitems hpart
      omega
  case conditional => rcases hpart with rfl | rfl | rfl <;> omega
  all_goals
    subst hpart
    omega

theorem contents_induct {p : Term → Prop}
    (h : ∀ term : Term, (∀ part ∈ term.contents, p part) → p term) (term : Term) : p term :=
  h term fun part _hpart => contents_induct h part
termination_by sizeOf term
decreasing_by exact sizeOf_lt_of_mem_contents _hpart

/-- What two equal terms have in common before their parts are compared. -/
inductive Head where
  | sense (sense : Scalar.Sense)
  | list
  | tuple
  | mapping
  | record (type : RecordType)
  | primitive (callable : Primitive)
  | scope (frame : FrameId)
  | evaluator (id : EvaluatorId)
  | closure (id : Nat)
  | variable (name : String)
  | application
  | lambda (params : List String)
  | conditional
  | assignment (target : String)
  | definition (target : String)
  | sequence
  | quoted
  | mystery

def head? : Term → Option Head
  | .scalar s => s.sense?.map .sense
  | .kind k => some (.sense (.text k.word))
  | .list _ => some .list
  | .tuple _ => some .tuple
  | .mapping _ => some .mapping
  | .record type _ => some (.record type)
  | .primitive callable => some (.primitive callable)
  | .scope frame => some (.scope frame)
  | .evaluator id => some (.evaluator id)
  | .closure id .. => some (.closure id)
  | .variable name => some (.variable name)
  | .application .. => some .application
  | .lambda params _ => some (.lambda params)
  | .conditional .. => some .conditional
  | .assignment target _ => some (.assignment target)
  | .definition target _ => some (.definition target)
  | .sequence _ => some .sequence
  | .quoted _ => some .quoted
  | .mystery => some .mystery

/-- The parts that are compared in order.  Closures are not compared by their bodies. -/
def orderedParts : Term → List Term
  | .mapping _ | .record .. | .closure .. => []
  | term => term.contents

def keyedParts : Term → List (Scalar × Term)
  | .mapping entries | .record _ entries => entries
  | _ => []

theorem mem_contents_of_orderedParts {part term : Term} (hpart : part ∈ term.orderedParts) :
    part ∈ term.contents := by
  unfold orderedParts at hpart
  split at hpart
  case h_4 => exact hpart
  all_goals exact absurd hpart List.not_mem_nil

theorem mem_contents_of_keyedParts {entry : Scalar × Term} {term : Term}
    (hentry : entry ∈ term.keyedParts) : entry.2 ∈ term.contents := by
  unfold keyedParts at hentry
  split at hentry
  case h_3 => exact absurd hentry List.not_mem_nil
  all_goals exact List.mem_map_of_mem hentry

theorem word_injective {k l : NodeKind} (hword : k.word = l.word) : k = l := by
  cases k <;> cases l <;> first | rfl | exact absurd hword (by decide)

theorem equal_iff (a b : Term) : a.equal b = true ↔
    a.head? ≠ none ∧ a.head? = b.head? ∧ equalAll a.orderedParts b.orderedParts = true ∧
      a.keyedParts.length = b.keyedParts.length ∧
        equalEntries a.keyedParts b.keyedParts = true := by
  -- Most pairs of constructors differ in their heads, and are equal on neither side.
  cases a <;> cases b <;>
    first
      | refine iff_of_false Bool.noConfusion ?_
        rintro ⟨-, hhead, -⟩
        cases hhead
      | simp [Term.equal, head?, orderedParts, keyedParts, contents, equalAll, equalEntries]
  case scalar.scalar s t =>
    rw [Scalar.equal_iff_sense?, (Option.map_injective fun _ _ => Head.sense.inj).eq_iff]
  case scalar.kind s k => cases s <;> simp [Term.equal, Scalar.sense?]
  case kind.scalar k s => cases s <;> simp [Term.equal, Scalar.sense?, @eq_comm String]
  case kind.kind => exact ⟨congrArg NodeKind.word, word_injective⟩
  case record.record => rw [and_assoc]
  case conditional.conditional => rw [and_assoc]

/-- The keys of a mapping differ, and so do the names of the fields of a record. -/
def KeysDiffer (term : Term) : Prop :=
  Entries.Distinct term.keyedParts

theorem equal_symm {a b : Term} (ha : Throughout KeysDiffer a) (hb : Throughout KeysDiffer b)
    (hequal : a.equal b = true) : b.equal a = true := by
  induction a using contents_induct generalizing b with
  | h a ih =>
      rw [equal_iff] at hequal ⊢
      obtain ⟨hhead, hsame, hordered, hlength, hkeyed⟩ := hequal
      have hparts : ∀ item ∈ a.contents, ∀ other ∈ b.contents, item.equal other = true →
          other.equal item = true :=
        fun item hitem other hother => ih item hitem (ha.of_mem hitem) (hb.of_mem hother)
      refine ⟨hsame ▸ hhead, hsame.symm, ?_, hlength.symm, ?_⟩
      · apply equalAll_symm _ hordered
        intro item hitem other hother
        exact hparts item (mem_contents_of_orderedParts hitem) other
          (mem_contents_of_orderedParts hother)
      · apply equalEntries_symm hlength ha.self hb.self _ hkeyed
        intro entry hentry other hother
        exact hparts entry.2 (mem_contents_of_keyedParts hentry) other.2
          (mem_contents_of_keyedParts hother)

theorem equal_trans {a b c : Term} (ha : Throughout KeysDiffer a) (hb : Throughout KeysDiffer b)
    (hc : Throughout KeysDiffer c) (hab : a.equal b = true) (hbc : b.equal c = true) :
    a.equal c = true := by
  induction a using contents_induct generalizing b c with
  | h a ih =>
      rw [equal_iff] at hab hbc ⊢
      obtain ⟨hhead, hsame, hordered, hlength, hkeyed⟩ := hab
      obtain ⟨-, hsame', hordered', hlength', hkeyed'⟩ := hbc
      have hparts : ∀ item ∈ a.contents, ∀ other ∈ b.contents, ∀ last ∈ c.contents,
          item.equal other = true → other.equal last = true → item.equal last = true :=
        fun item hitem other hother last hlast =>
          ih item hitem (ha.of_mem hitem) (hb.of_mem hother) (hc.of_mem hlast)
      refine ⟨hhead, hsame.trans hsame', ?_, hlength.trans hlength', ?_⟩
      · apply equalAll_trans _ hordered hordered'
        intro item hitem other hother last hlast
        exact hparts item (mem_contents_of_orderedParts hitem) other
          (mem_contents_of_orderedParts hother) last (mem_contents_of_orderedParts hlast)
      · apply equalEntries_trans hb.self hc.self _ hkeyed hkeyed'
        intro entry hentry other hother last hlast
        exact hparts entry.2 (mem_contents_of_keyedParts hentry) other.2
          (mem_contents_of_keyedParts hother) last.2 (mem_contents_of_keyedParts hlast)

end Term
end Rulebook
