import Rulebook.Primitive.Core
import Rulebook.Proofs.Term.Likeness

/-!
# Core operations on alike terms

The core operations give alike results for alike operands, and the same faults.  What asks for a
property has to keep off the bodies of closures that may have been altered.
-/

namespace Rulebook
namespace Term
namespace Like

variable {altered : Alteration} {a b c d : Term}

/-! ## Items -/

theorem items? (hlike : Like altered a b) :
    Option.Rel (List.Forall₂ (Like altered)) a.items? b.items? := by
  cases a with
  | list items =>
      obtain ⟨others, rfl, hothers⟩ := hlike.list
      exact .some hothers
  | tuple items =>
      obtain ⟨others, rfl, hothers⟩ := hlike.tuple
      exact .some hothers
  | mapping entries =>
      obtain ⟨others, rfl, hothers⟩ := hlike.mapping
      refine .some ?_
      rw [List.forall₂_map_left_iff, List.forall₂_map_right_iff]
      exact hothers.imp fun entry other hentry => hentry.1 ▸ refl _
  | scalar value =>
      obtain rfl := hlike.eq_of_contents rfl
      exact rel_refl forall₂_refl _
  | kind k =>
      obtain rfl := hlike.eq_of_contents rfl
      exact rel_refl forall₂_refl _
  | _ =>
      obtain ⟨parts, rfl⟩ := hlike.exists_rebuild
      exact .none

theorem worded (hlike : Like altered a b) : Like altered a.worded b.worded := by
  cases a with
  | kind k =>
      obtain rfl := hlike.eq_of_contents rfl
      exact refl _
  | _ =>
      obtain ⟨parts, rfl⟩ := hlike.exists_rebuild
      exact hlike

/-! ## Order -/

theorem compareAll?_eq {comparison : Comparison} {items others lasts finals : List Term}
    (hitems : List.Forall₂ (Like altered) items others)
    (hlasts : List.Forall₂ (Like altered) lasts finals)
    (hcompare : ∀ item ∈ items, ∀ {b c d}, Like altered item b → Like altered c d →
      item.compare? comparison c = b.compare? comparison d) :
    compareAll? comparison items lasts = compareAll? comparison others finals := by
  induction hitems generalizing lasts finals with
  | nil => rw [compareAll?, compareAll?, hlasts.length_eq]
  | @cons item other items others hitem hrest ih =>
      cases hlasts with
      | nil => simp [compareAll?, hrest.length_eq]
      | cons hlast hmore =>
          rw [compareAll?, compareAll?, equal_eq hitem hlast,
            hcompare item List.mem_cons_self hitem hlast,
            ih hmore fun item hmem => hcompare item (List.mem_cons_of_mem _ hmem)]

theorem compare?_eq (comparison : Comparison) (hlike : Like altered a b)
    (hlike' : Like altered c d) : a.compare? comparison c = b.compare? comparison d := by
  induction a using contents_induct generalizing b c d with
  | h a ih =>
      cases a with
      | scalar value =>
          obtain rfl := hlike.eq_of_contents rfl
          obtain ⟨parts, rfl⟩ := hlike'.exists_rebuild
          cases c <;> rfl
      | kind k =>
          obtain rfl := hlike.eq_of_contents rfl
          obtain ⟨parts, rfl⟩ := hlike'.exists_rebuild
          cases c <;> rfl
      | list items =>
          obtain ⟨others, rfl, hothers⟩ := hlike.list
          cases c with
          | list lasts =>
              obtain ⟨finals, rfl, hfinals⟩ := hlike'.list
              exact compareAll?_eq hothers hfinals fun item hitem _ _ _ => ih item hitem
          | _ =>
              obtain ⟨parts, rfl⟩ := hlike'.exists_rebuild
              rfl
      | tuple items =>
          obtain ⟨others, rfl, hothers⟩ := hlike.tuple
          cases c with
          | tuple lasts =>
              obtain ⟨finals, rfl, hfinals⟩ := hlike'.tuple
              exact compareAll?_eq hothers hfinals fun item hitem _ _ _ => ih item hitem
          | _ =>
              obtain ⟨parts, rfl⟩ := hlike'.exists_rebuild
              rfl
      | _ =>
          obtain ⟨parts, rfl⟩ := hlike.exists_rebuild
          rfl

/-! ## Arithmetic -/

theorem onNumbers (operation : Number → Number → Except Fault Number) (hlike : Like altered a b)
    (hlike' : Like altered c d) :
    Outcomes (Like altered) (Term.onNumbers operation a c) (Term.onNumbers operation b d) := by
  rw [Term.onNumbers, Term.onNumbers, hlike.number?_eq, hlike'.number?_eq]
  exact .refl refl _

theorem add (hlike : Like altered a b) (hlike' : Like altered c d) :
    Outcomes (Like altered) (a.add c) (b.add d) := by
  have hnumbers := onNumbers (Number.combine (· + ·) (· + ·)) hlike.worded hlike'.worded
  have hworded := hlike.worded
  have hworded' := hlike'.worded
  unfold Term.add
  generalize a.worded = x, b.worded = y, c.worded = z, d.worded = w at *
  cases x with
  | list items =>
      obtain ⟨others, rfl, hothers⟩ := hworded.list
      cases z with
      | list lasts =>
          obtain ⟨finals, rfl, hfinals⟩ := hworded'.list
          exact .ok (.parts (List.rel_append hothers hfinals))
      | _ =>
          obtain ⟨parts, rfl⟩ := hworded'.exists_rebuild
          exact hnumbers
  | tuple items =>
      obtain ⟨others, rfl, hothers⟩ := hworded.tuple
      cases z with
      | tuple lasts =>
          obtain ⟨finals, rfl, hfinals⟩ := hworded'.tuple
          exact .ok (.parts (List.rel_append hothers hfinals))
      | _ =>
          obtain ⟨parts, rfl⟩ := hworded'.exists_rebuild
          exact hnumbers
  | scalar value =>
      obtain rfl := hworded.eq_of_contents rfl
      cases z with
      | scalar value' =>
          obtain rfl := hworded'.eq_of_contents rfl
          exact .refl refl _
      | _ =>
          obtain ⟨parts, rfl⟩ := hworded'.exists_rebuild
          cases value <;> exact hnumbers
  | _ =>
      obtain ⟨parts, rfl⟩ := hworded.exists_rebuild
      exact hnumbers

theorem repeated {items others : List Term} (hitems : List.Forall₂ (Like altered) items others)
    (count : Int) (overlong : Fault) :
    Outcomes (List.Forall₂ (Like altered)) (Rulebook.repeated items count overlong)
      (Rulebook.repeated others count overlong) := by
  have hempty : items.isEmpty = others.isEmpty := by cases hitems <;> rfl
  have hcopies : ∀ n, List.Forall₂ (List.Forall₂ (Like altered)) (List.replicate n items)
      (List.replicate n others) := by
    intro n
    induction n with
    | zero => exact .nil
    | succ n ih => exact .cons hitems ih
  simp only [Rulebook.repeated, hitems.length_eq, hempty]
  split_ifs
  · exact .error _
  · exact .error _
  · exact .error _
  · exact .ok .nil
  · exact .ok (List.rel_flatten (hcopies _))

theorem repeat? (hlike : Like altered a b) (count : Int) :
    Outcomes (Like altered) (a.repeat? count) (b.repeat? count) := by
  have hworded := hlike.worded
  unfold Term.repeat?
  generalize a.worded = x, b.worded = y at hworded
  cases x with
  | list items =>
      obtain ⟨others, rfl, hothers⟩ := hworded.list
      exact (repeated hothers count _).map fun _ _ hcopies => .parts hcopies
  | tuple items =>
      obtain ⟨others, rfl, hothers⟩ := hworded.tuple
      exact (repeated hothers count _).map fun _ _ hcopies => .parts hcopies
  | scalar value =>
      obtain rfl := hworded.eq_of_contents rfl
      exact .refl refl _
  | _ =>
      obtain ⟨parts, rfl⟩ := hworded.exists_rebuild
      exact .error _

theorem multiply (hlike : Like altered a b) (hlike' : Like altered c d) :
    Outcomes (Like altered) (a.multiply c) (b.multiply d) := by
  have hnumbers := onNumbers (Number.combine (· * ·) (· * ·)) hlike hlike'
  have hrepeats := hlike.repeat?
  have hrepeats' := hlike'.repeat?
  unfold Term.multiply
  rw [← hlike.number?_eq, ← hlike'.number?_eq, ← hlike.whole?_eq, ← hlike'.whole?_eq]
  split
  · exact hnumbers
  · split
    · exact hrepeats _
    · exact hrepeats' _
    · exact .error _

theorem negate (hlike : Like altered a b) :
    Outcomes (Like altered) a.negate b.negate := by
  rw [Term.negate, Term.negate, hlike.number?_eq]
  exact .refl refl _

/-! ## Properties -/

theorem entry? {entries others : List (Scalar × Term)} (hentries : LikeEntries altered entries others)
    (hkey : Like altered c d) :
    Outcomes (Option.Rel (Like altered)) (Term.entry? entries c) (Term.entry? others d) := by
  rw [Term.entry?, Term.entry?, hkey.isKey_eq]
  split_ifs
  · have hworded := hkey.worded
    generalize c.worded = x, d.worded = y at hworded
    cases x with
    | scalar value =>
        obtain rfl := hworded.eq_of_contents rfl
        exact .ok (find? hentries value)
    | _ =>
        obtain ⟨parts, rfl⟩ := hworded.exists_rebuild
        exact .ok .none
  · exact .error _

theorem fieldsOf {fields others : List (String × Term)}
    (hfields : List.Forall₂ (fun field other => field.1 = other.1 ∧ Like altered field.2 other.2)
      fields others) : LikeEntries altered (Term.fieldsOf fields) (Term.fieldsOf others) := by
  rw [Term.fieldsOf, Term.fieldsOf, LikeEntries, List.forall₂_map_left_iff,
    List.forall₂_map_right_iff]
  exact hfields.imp fun field other hfield => ⟨congrArg Scalar.str hfield.1, hfield.2⟩

theorem attributes (hlike : Like altered a b) (hclosure : a.isClosure = false) :
    LikeEntries altered a.attributes b.attributes := by
  cases a with
  | closure => cases hclosure
  | record type fields =>
      obtain ⟨others, rfl, hothers⟩ := hlike.record
      exact hothers
  | application operator operands =>
      obtain ⟨other, others, rfl, hoperator, hoperands⟩ := hlike.application
      exact fieldsOf (.cons ⟨rfl, hoperator⟩ (.cons ⟨rfl, .parts hoperands⟩
        (.cons ⟨rfl, refl _⟩ .nil)))
  | lambda params body =>
      obtain ⟨other, rfl, hother⟩ := hlike.lambda
      exact fieldsOf (.cons ⟨rfl, refl _⟩ (.cons ⟨rfl, hother⟩ (.cons ⟨rfl, refl _⟩ .nil)))
  | conditional p q r =>
      obtain ⟨p', q', r', rfl, hp, hq, hr⟩ := hlike.conditional
      exact fieldsOf (.cons ⟨rfl, hp⟩ (.cons ⟨rfl, hq⟩ (.cons ⟨rfl, hr⟩
        (.cons ⟨rfl, refl _⟩ .nil))))
  | assignment target value =>
      obtain ⟨other, rfl, hother⟩ := hlike.assignment
      exact fieldsOf (.cons ⟨rfl, refl _⟩ (.cons ⟨rfl, hother⟩ (.cons ⟨rfl, refl _⟩ .nil)))
  | definition target value =>
      obtain ⟨other, rfl, hother⟩ := hlike.definition
      exact fieldsOf (.cons ⟨rfl, refl _⟩ (.cons ⟨rfl, hother⟩ (.cons ⟨rfl, refl _⟩ .nil)))
  | sequence items =>
      obtain ⟨others, rfl, hothers⟩ := hlike.sequence
      exact fieldsOf (.cons ⟨rfl, .parts hothers⟩ (.cons ⟨rfl, refl _⟩ .nil))
  | quoted value =>
      obtain ⟨other, rfl, hother⟩ := hlike.quoted
      exact fieldsOf (.cons ⟨rfl, hother⟩ (.cons ⟨rfl, refl _⟩ .nil))
  | kind k =>
      obtain rfl := hlike.eq_of_contents rfl
      exact List.forall₂_same.mpr fun entry _ => ⟨rfl, refl _⟩
  | «variable» name =>
      obtain rfl := hlike.eq_of_contents rfl
      exact List.forall₂_same.mpr fun entry _ => ⟨rfl, refl _⟩
  | _ =>
      obtain ⟨parts, rfl⟩ := hlike.exists_rebuild
      exact .nil

/-- Whether a property is the body of a closure that may have been altered. -/
def AsksBody (altered : Alteration) (term key : Term) : Prop :=
  key.text? = some "body" ∧ ∃ id params body home owner other,
    term = .closure id params body home owner ∧ altered id home body other

theorem find?_closureAttributes {name : String} (hname : name ≠ "body") (id : Nat)
    (params : List String) (body other : Term) (home : FrameId) (owner : Option EvaluatorId) :
    Entries.find? (.str name) (Term.fieldsOf (closureAttributes id params body home owner)) =
      Entries.find? (.str name) (Term.fieldsOf (closureAttributes id params other home owner)) := by
  have hbody : ("body" == name) = false := beq_eq_false_iff_ne.mpr hname.symm
  simp only [Term.fieldsOf, closureAttributes, List.map_cons, List.map_nil, Entries.find?,
    List.find?_cons, Scalar.equal, hbody]

theorem property? (hlike : Like altered a b) (hkey : Like altered c d)
    (hbody : ¬AsksBody altered a c) :
    Outcomes (Option.Rel (Like altered)) (a.property? c) (b.property? d) := by
  have hother : (∀ name, c.text? = some name →
      Option.Rel (Like altered) (Entries.find? (.str name) a.attributes)
        (Entries.find? (.str name) b.attributes)) →
      Outcomes (Option.Rel (Like altered)) ((Term.record .plain a.attributes).property? c)
        ((Term.record .plain b.attributes).property? d) := by
    intro hfound
    dsimp only [Term.property?]
    rw [← hkey.text?_eq]
    cases htext : c.text? with
    | none => exact .error _
    | some name => exact .ok (hfound name htext)
  cases a with
  | scalar value =>
      obtain rfl := hlike.eq_of_contents rfl
      cases value with
      | null => exact .ok .none
      | _ => exact hother fun name _ => .none
  | mapping entries =>
      obtain ⟨others, rfl, hothers⟩ := hlike.mapping
      exact entry? hothers hkey
  | closure id params body home owner =>
      obtain ⟨other, rfl, hbodies⟩ := hlike.closure
      apply hother
      intro name hname
      by_cases hasked : name = "body"
      · subst hasked
        have hlikeBody : Like altered body other := hbodies.resolve_right fun haltered =>
          hbody ⟨hname, id, params, body, home, owner, other, rfl, haltered⟩
        exact .some hlikeBody
      · rw [Term.attributes, Term.attributes, find?_closureAttributes hasked id params body other]
        exact rel_refl refl _
  | _ =>
      have hattributes := hlike.attributes rfl
      obtain ⟨parts, rfl⟩ := hlike.exists_rebuild
      exact hother fun name _ => find? hattributes (.str name)

/-- Whether there is such a property does not depend on the body. -/
theorem hasProperty (hlike : Like altered a b) (hkey : Like altered c d) :
    (a.property? c).map Option.isSome = (b.property? d).map Option.isSome := by
  by_cases hbody : AsksBody altered a c
  · obtain ⟨htext, id, params, body, home, owner, -, rfl, -⟩ := hbody
    obtain ⟨other, rfl, -⟩ := hlike.closure
    have htext' : d.text? = some "body" := hkey.text?_eq ▸ htext
    rw [Term.property?, Term.property?, htext, htext']
    · rfl
    all_goals simp
  · have hproperty := hlike.property? hkey hbody
    generalize a.property? c = x, b.property? d = y at hproperty
    cases hproperty with
    | error fault => rfl
    | ok hvalue => cases hvalue <;> rfl

/-! ## Core operations -/

theorem chained {related : Term → Term → Except Fault Bool} {items others : List Term}
    (hitems : List.Forall₂ (Like altered) items others)
    (hrelated : ∀ {a b c d}, Like altered a b → Like altered c d → related a c = related b d) :
    Outcomes (Like altered) (CorePrimitive.chained related items)
      (CorePrimitive.chained related others) := by
  have hneighbours : CorePrimitive.neighbours related items =
      CorePrimitive.neighbours related others := by
    induction hitems with
    | nil => rfl
    | cons hfirst hrest ih =>
        cases hrest with
        | nil => rfl
        | cons hsecond hmore =>
            rw [CorePrimitive.neighbours, CorePrimitive.neighbours, ih, hrelated hfirst hsecond]
  rw [CorePrimitive.chained, CorePrimitive.chained, hneighbours]
  exact .refl refl _

theorem folded {operation : Term → Term → Except Fault Term} {alone : Term → Except Fault Term}
    {items others : List Term} (hitems : List.Forall₂ (Like altered) items others)
    (hoperation : ∀ {a b c d}, Like altered a b → Like altered c d →
      Outcomes (Like altered) (operation a c) (operation b d))
    (halone : ∀ {a b}, Like altered a b → Outcomes (Like altered) (alone a) (alone b)) :
    Outcomes (Like altered) (CorePrimitive.folded operation alone items)
      (CorePrimitive.folded operation alone others) := by
  cases hitems with
  | nil => exact .error _
  | cons hfirst hrest =>
      cases hrest with
      | nil => exact halone hfirst
      | cons hsecond hmore =>
          exact Outcomes.foldlM (.cons hsecond hmore) hfirst fun _ _ _ _ => hoperation

theorem binary {operation : Term → Term → Except Fault Term} {items others : List Term}
    (hitems : List.Forall₂ (Like altered) items others)
    (hoperation : ∀ {a b c d}, Like altered a b → Like altered c d →
      Outcomes (Like altered) (operation a c) (operation b d)) :
    Outcomes (Like altered) (CorePrimitive.binary operation items)
      (CorePrimitive.binary operation others) := by
  rcases hitems with _ | ⟨hfirst, _ | ⟨hsecond, _ | ⟨hthird, hmore⟩⟩⟩
  · exact .error _
  · exact .error _
  · exact hoperation hfirst hsecond
  · exact .error _

end Like
end Term

open Term (Like)

namespace CorePrimitive

variable {altered : Term.Alteration} {operands others : List Term}

/-- Alike operands give alike results. -/
theorem apply_like (operation : CorePrimitive)
    (hoperands : List.Forall₂ (Like altered) operands others)
    (hbody : operation = .getProperty → ∀ term key rest, operands = term :: key :: rest →
      ¬Like.AsksBody altered term key) :
    Outcomes (Like altered) (operation.apply operands) (operation.apply others) := by
  have htruth : ∀ {item other : Term}, Like altered item other → item.isTruthy = other.isTruthy :=
    Like.isTruthy_eq
  have hcompare : ∀ comparison : Comparison, ∀ {a b c d}, Like altered a b → Like altered c d →
      compare comparison a c = compare comparison b d := by
    intro comparison a b c d hlike hlike'
    rw [compare, compare, Like.compare?_eq comparison hlike hlike']
  have hsubtract : ∀ {a b c d}, Like altered a b → Like altered c d →
      Outcomes (Like altered) (a.subtract c) (b.subtract d) := Like.onNumbers _
  have hdivide : ∀ {a b c d}, Like altered a b → Like altered c d →
      Outcomes (Like altered) (a.divide c) (b.divide d) := Like.onNumbers _
  -- Operations go through their operands in a few ways, each with its lemma above.
  cases operation with
  | and =>
      rw [apply, apply, Like.all_eq hoperands fun item _ other hitem => htruth hitem]
      exact .refl .refl _
  | or =>
      have hnone := Like.all_eq hoperands fun item _ other hitem =>
        congrArg Bool.not (htruth hitem)
      rw [apply, apply, List.any_eq_not_all_not, List.any_eq_not_all_not, hnone]
      exact .refl .refl _
  | not =>
      rcases hoperands with _ | ⟨hfirst, _ | ⟨hsecond, hmore⟩⟩
      · exact .error _
      · rw [apply, apply, htruth hfirst]
        exact .refl .refl _
      · exact .error _
  | equal =>
      exact Like.chained hoperands fun hlike hlike' =>
        congrArg Except.ok (Like.equal_eq hlike hlike')
  | notEqual =>
      apply Like.binary hoperands
      intro a b c d hlike hlike'
      rw [Like.equal_eq hlike hlike']
      exact .refl .refl _
  | less => exact Like.chained hoperands (hcompare .less)
  | greater => exact Like.chained hoperands (hcompare .greater)
  | atMost => exact Like.chained hoperands (hcompare .atMost)
  | atLeast => exact Like.chained hoperands (hcompare .atLeast)
  | plus =>
      cases hoperands with
      | nil => exact .ok (.refl _)
      | cons hfirst hrest => exact Outcomes.foldlM hrest hfirst fun _ _ _ _ => Like.add
  | minus => exact Like.folded hoperands hsubtract Like.negate
  | times => exact Outcomes.foldlM hoperands (.refl _) fun _ _ _ _ => Like.multiply
  | divide => exact Like.folded hoperands hdivide (hdivide (.refl _))
  | same =>
      apply Like.binary hoperands
      intro a b c d hlike hlike'
      rw [Like.equal_eq hlike hlike']
      exact .refl .refl _
  | add => exact Like.binary hoperands Like.add
  | subtract => exact Like.binary hoperands hsubtract
  | multiply => exact Like.binary hoperands Like.multiply
  | hasProperty =>
      rcases hoperands with _ | ⟨hterm, _ | ⟨hkey, _ | ⟨hthird, hmore⟩⟩⟩
      · exact .error _
      · exact .error _
      · have hmap : ∀ x : Except Fault (Option Term), (x.map fun value => .bool value.isSome) =
            (x.map Option.isSome).map Term.bool := fun x => by cases x <;> rfl
        rw [apply, apply, hmap, hmap, Like.hasProperty hterm hkey]
        exact .refl .refl _
      · exact .error _
  | getProperty =>
      rcases hoperands with _ | ⟨hterm, _ | ⟨hkey, _ | ⟨hdefault, _ | ⟨hfourth, hmore⟩⟩⟩⟩
      · exact .error _
      · exact .error _
      · apply (hterm.property? hkey (hbody rfl _ _ _ rfl)).map
        intro value other hvalue
        cases hvalue with
        | none => exact .refl _
        | some hvalue => exact hvalue
      · apply (hterm.property? hkey (hbody rfl _ _ _ rfl)).map
        intro value other hvalue
        cases hvalue with
        | none => exact hdefault
        | some hvalue => exact hvalue
      · exact .error _
  | list => exact .ok (.parts hoperands)

end CorePrimitive
end Rulebook
