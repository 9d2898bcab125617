import Mathlib
import Rulebook.Primitive.Core

/-!
# How core operations fail

A core operation fails only by refusing its operands: they do not fit it, or what would come of them
has no value or is too large.  None of this is a fault of the rule language, such as a wrong number
of arguments or a node without a meaning.
-/

namespace Rulebook

/-- The faults that are refusals by an operation. -/
def Fault.isRefusal : Fault → Bool
  | .unfit | .divisionByZero | .tooLarge | .outOfMemory => true
  | _ => false

/-- A computation fails only by a refusal. -/
def Refuses (outcome : Except Fault α) : Prop :=
  ∀ fault, outcome = .error fault → fault.isRefusal = true

section Outcomes

variable {α β : Type}

theorem refuses_ok (value : α) : Refuses (.ok value) := by
  intro fault hfault
  cases hfault

theorem refuses_error {fault : Fault} (hfault : fault.isRefusal = true) :
    Refuses (.error fault : Except Fault α) := by
  intro other hother
  cases hother
  exact hfault

theorem Refuses.bind {first : Except Fault α} {next : α → Except Fault β} (hfirst : Refuses first)
    (hnext : ∀ value, Refuses (next value)) : Refuses (first >>= next) := by
  cases first with
  | error fault => exact refuses_error (hfirst fault rfl)
  | ok value => exact hnext value

theorem Refuses.map {first : Except Fault α} (hfirst : Refuses first) (f : α → β) :
    Refuses (first.map f) := by
  cases first with
  | error fault => exact refuses_error (hfirst fault rfl)
  | ok value => exact refuses_ok (f value)

theorem refuses_foldlM {f : β → α → Except Fault β} (hf : ∀ value item, Refuses (f value item))
    (items : List α) (start : β) : Refuses (items.foldlM f start) := by
  induction items generalizing start with
  | nil => exact refuses_ok start
  | cons item rest ih =>
      rw [List.foldlM_cons]
      exact (hf start item).bind fun value => ih value

end Outcomes

/-! ## Arithmetic -/

namespace Number

theorem refuses_toDouble (n : Number) : Refuses n.toDouble := by
  unfold toDouble
  split
  · split
    · exact refuses_ok _
    · exact refuses_error rfl
  · exact refuses_ok _

theorem refuses_combine (precise : Int → Int → Int) (rounded : Float → Float → Float)
    (a b : Number) : Refuses (combine precise rounded a b) := by
  unfold combine
  split
  · exact refuses_ok _
  · exact (refuses_toDouble a).bind fun x => (refuses_toDouble b).bind fun y => refuses_ok _

theorem refuses_divide (a b : Number) : Refuses (divide a b) := by
  unfold divide
  split
  · split
    · exact refuses_error rfl
    · split
      · exact refuses_ok _
      · exact refuses_error rfl
  · refine (refuses_toDouble a).bind fun x => (refuses_toDouble b).bind fun y => ?_
    split
    · exact refuses_error rfl
    · exact refuses_ok _

end Number

theorem refuses_repeated {α : Type} (items : List α) (count : Int) {overlong : Fault}
    (hoverlong : overlong.isRefusal = true) : Refuses (repeated items count overlong) := by
  unfold repeated
  dsimp only
  split_ifs
  · exact refuses_error rfl
  · exact refuses_error hoverlong
  · exact refuses_error rfl
  · exact refuses_ok _
  · exact refuses_ok _

namespace Term

theorem refuses_onNumbers {operation : Number → Number → Except Fault Number}
    (hoperation : ∀ m n, Refuses (operation m n)) (a b : Term) :
    Refuses (onNumbers operation a b) := by
  unfold onNumbers
  split
  · exact (hoperation _ _).map _
  · exact refuses_error rfl

theorem refuses_add (a b : Term) : Refuses (a.add b) := by
  unfold add
  split
  · exact refuses_ok _
  · exact refuses_ok _
  · exact refuses_ok _
  · exact refuses_onNumbers (Number.refuses_combine _ _) _ _

theorem refuses_subtract (a b : Term) : Refuses (a.subtract b) :=
  refuses_onNumbers (Number.refuses_combine _ _) a b

theorem refuses_repeat? (term : Term) (count : Int) : Refuses (term.repeat? count) := by
  unfold repeat?
  split
  · exact (refuses_repeated _ count rfl).map _
  · exact (refuses_repeated _ count rfl).map _
  · exact (refuses_repeated _ count rfl).map _
  · exact refuses_error rfl

theorem refuses_multiply (a b : Term) : Refuses (a.multiply b) := by
  unfold multiply
  split
  · exact refuses_onNumbers (Number.refuses_combine _ _) _ _
  · split
    · exact refuses_repeat? _ _
    · exact refuses_repeat? _ _
    · exact refuses_error rfl

theorem refuses_divide (a b : Term) : Refuses (a.divide b) :=
  refuses_onNumbers Number.refuses_divide a b

theorem refuses_negate (term : Term) : Refuses term.negate := by
  unfold negate
  split
  · exact refuses_ok _
  · exact refuses_error rfl

theorem refuses_property? (term key : Term) : Refuses (term.property? key) := by
  unfold property?
  split
  · exact refuses_ok _
  · unfold entry?
    split
    · exact refuses_ok _
    · exact refuses_error rfl
  · split
    · exact refuses_ok _
    · exact refuses_error rfl

end Term

/-! ## Core operations -/

namespace CorePrimitive

theorem refuses_compare (comparison : Comparison) (a b : Term) :
    Refuses (compare comparison a b) := by
  unfold compare
  split
  · exact refuses_ok _
  · exact refuses_error rfl

theorem refuses_chained {related : Term → Term → Except Fault Bool}
    (hrelated : ∀ a b, Refuses (related a b)) (operands : List Term) :
    Refuses (chained related operands) := by
  refine Refuses.map ?_ _
  induction operands with
  | nil => exact refuses_ok _
  | cons a rest ih =>
      cases rest with
      | nil => exact refuses_ok _
      | cons b rest =>
          rw [neighbours]
          refine (hrelated a b).bind fun holds => ?_
          split
          · exact ih
          · exact refuses_ok _

theorem refuses_folded {operation : Term → Term → Except Fault Term}
    {alone : Term → Except Fault Term} (hoperation : ∀ a b, Refuses (operation a b))
    (halone : ∀ a, Refuses (alone a)) (operands : List Term) :
    Refuses (folded operation alone operands) := by
  unfold folded
  split
  · exact refuses_error rfl
  · exact halone _
  · exact refuses_foldlM hoperation _ _

theorem refuses_binary {operation : Term → Term → Except Fault Term}
    (hoperation : ∀ a b, Refuses (operation a b)) (operands : List Term) :
    Refuses (binary operation operands) := by
  unfold binary
  split
  · exact hoperation _ _
  · exact refuses_error rfl

/-- Whatever the operands and however many, a core operation refuses them or has a value. -/
theorem refuses_apply (operation : CorePrimitive) (operands : List Term) :
    Refuses (operation.apply operands) := by
  unfold apply
  split
  · exact refuses_ok _
  · exact refuses_ok _
  · exact refuses_ok _
  · exact refuses_error rfl
  · exact refuses_chained (fun a b => refuses_ok _) _
  · exact refuses_binary (fun a b => refuses_ok _) _
  · exact refuses_chained (refuses_compare _) _
  · exact refuses_chained (refuses_compare _) _
  · exact refuses_chained (refuses_compare _) _
  · exact refuses_chained (refuses_compare _) _
  · exact refuses_ok _
  · exact refuses_foldlM Term.refuses_add _ _
  · exact refuses_folded Term.refuses_subtract Term.refuses_negate _
  · exact refuses_foldlM Term.refuses_multiply _ _
  · exact refuses_folded Term.refuses_divide (Term.refuses_divide _) _
  · exact refuses_binary (fun a b => refuses_ok _) _
  · exact refuses_binary Term.refuses_add _
  · exact refuses_binary Term.refuses_subtract _
  · exact refuses_binary Term.refuses_multiply _
  · exact (Term.refuses_property? _ _).map _
  · exact refuses_error rfl
  · exact (Term.refuses_property? _ _).map _
  · exact (Term.refuses_property? _ _).map _
  · exact refuses_error rfl
  · exact refuses_ok _

end CorePrimitive

end Rulebook
