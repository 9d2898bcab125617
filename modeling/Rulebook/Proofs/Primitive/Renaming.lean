import Rulebook.Primitive.Core
import Rulebook.Proofs.Term.Renaming

/-!
# Core operations on renamed terms

A core operation gives for renamed operands what it gives for the operands themselves, renamed.  It
refers to no frame and no closure but those that its operands refer to.
-/

namespace Rulebook

abbrev renamedOutcome (ρ : Renaming) (outcome : Except Fault Term) : Except Fault Term :=
  outcome.map (Term.rename ρ)

namespace Term

variable {ρ : Renaming}

/-! ## Order -/

theorem compareAll?_rename {comparison : Comparison} {items others : List Term}
    (hcompare : ∀ item ∈ items, ∀ other : Term,
      (item.rename ρ).compare? comparison (other.rename ρ) = item.compare? comparison other) :
    compareAll? comparison (items.map (rename ρ)) (others.map (rename ρ)) =
      compareAll? comparison items others := by
  induction items generalizing others with
  | nil => cases others <;> simp [compareAll?]
  | cons item rest ih =>
      cases others with
      | nil => simp [compareAll?]
      | cons other others =>
          rw [List.map_cons, List.map_cons, compareAll?, compareAll?, equal_rename,
            hcompare item List.mem_cons_self, ih fun item hmem =>
              hcompare item (List.mem_cons_of_mem _ hmem)]

theorem compare?_rename (comparison : Comparison) (a b : Term) :
    (a.rename ρ).compare? comparison (b.rename ρ) = a.compare? comparison b := by
  induction a using contents_induct generalizing b with
  | h a ih =>
      cases a with
      | list items =>
          cases b with
          | list others => simpa [rename, compare?, contents] using compareAll?_rename ih
          | _ => rfl
      | tuple items =>
          cases b with
          | tuple others => simpa [rename, compare?, contents] using compareAll?_rename ih
          | _ => rfl
      | scalar value => cases b <;> rfl
      | kind k => cases b <;> rfl
      | _ => rfl

/-! ## Arithmetic -/

@[simp] theorem rename_number (n : Number) : n.toTerm.rename ρ = n.toTerm := by
  cases n <;> rfl

theorem onNumbers_rename (operation : Number → Number → Except Fault Number) (a b : Term) :
    onNumbers operation (a.rename ρ) (b.rename ρ) = renamedOutcome ρ (onNumbers operation a b) := by
  rw [onNumbers, onNumbers, number?_rename, number?_rename]
  cases Number.ofTerm? a with
  | none => rfl
  | some m =>
      cases Number.ofTerm? b with
      | none => rfl
      | some n =>
          dsimp only
          cases operation m n with
          | error fault => rfl
          | ok n => exact congrArg Except.ok (rename_number n).symm

theorem add_rename (a b : Term) :
    (a.rename ρ).add (b.rename ρ) = renamedOutcome ρ (a.add b) := by
  have hnumbers := onNumbers_rename (ρ := ρ) (Number.combine (· + ·) (· + ·)) a.worded b.worded
  unfold add
  rw [worded_rename, worded_rename]
  generalize a.worded = x, b.worded = y at hnumbers
  cases x with
  | list items =>
      cases y with
      | list others => simp [Except.map]
      | _ => exact hnumbers
  | tuple items =>
      cases y with
      | tuple others => simp [Except.map]
      | _ => exact hnumbers
  | scalar value =>
      cases y with
      | scalar value' => cases value <;> cases value' <;> first | rfl | exact hnumbers
      | _ => cases value <;> exact hnumbers
  | _ => exact hnumbers

theorem repeated_map (f : α → β) (items : List α) (count : Int) (overlong : Fault) :
    repeated (items.map f) count overlong = (repeated items count overlong).map (List.map f) := by
  simp only [repeated, List.length_map, List.isEmpty_map]
  split_ifs
  · rfl
  · rfl
  · rfl
  · rfl
  · simp [Except.map]

theorem repeat?_rename (a : Term) (count : Int) :
    (a.rename ρ).repeat? count = renamedOutcome ρ (a.repeat? count) := by
  have hitems : ∀ (build : List Term → Term) (items : List Term),
      (∀ items, build (items.map (rename ρ)) = (build items).rename ρ) →
      (repeated (items.map (rename ρ)) count .outOfMemory).map build =
        renamedOutcome ρ ((repeated items count .outOfMemory).map build) := by
    intro build items hbuild
    rw [repeated_map]
    cases repeated items count .outOfMemory with
    | error fault => rfl
    | ok copies => exact congrArg Except.ok (hbuild copies)
  unfold repeat?
  rw [worded_rename]
  cases a.worded with
  | list items => simpa using hitems .list items (by simp)
  | tuple items => simpa using hitems .tuple items (by simp)
  | scalar value =>
      cases value with
      | str s =>
          dsimp only [rename]
          cases repeated s.toList count .tooLarge <;> rfl
      | _ => rfl
  | _ => rfl

theorem whole?_rename (a : Term) : (a.rename ρ).whole? = a.whole? := by
  rw [whole?, whole?, number?_rename]

theorem multiply_rename (a b : Term) :
    (a.rename ρ).multiply (b.rename ρ) = renamedOutcome ρ (a.multiply b) := by
  unfold multiply
  rw [number?_rename, number?_rename, whole?_rename, whole?_rename, onNumbers_rename]
  split
  · rfl
  · split
    · exact repeat?_rename a _
    · exact repeat?_rename b _
    · rfl

theorem negate_rename (a : Term) : (a.rename ρ).negate = renamedOutcome ρ a.negate := by
  rw [negate, negate, number?_rename]
  cases Number.ofTerm? a with
  | none => rfl
  | some n => exact congrArg Except.ok (rename_number n.negate).symm

/-! ## Properties -/

theorem entry?_rename (entries : List (Scalar × Term)) (key : Term) :
    Term.entry? (renamedEntries ρ entries) (key.rename ρ) =
      (Term.entry? entries key).map (Option.map (rename ρ)) := by
  rw [Term.entry?, Term.entry?, isKey_rename, worded_rename]
  split_ifs
  · cases key.worded with
    | scalar value => exact congrArg Except.ok (find?_renamedEntries value entries)
    | _ => rfl
  · rfl

theorem renamedEntries_fieldsOf (attributes : List (String × Term)) :
    renamedEntries ρ (fieldsOf attributes) = fieldsOf (attributes.map (Prod.map id (rename ρ))) := by
  simp [fieldsOf, renamedEntries, Function.comp_def, Prod.map]

theorem attributes_rename (term : Term) :
    (term.rename ρ).attributes = renamedEntries ρ term.attributes := by
  cases term with
  | record type fields => simp [attributes]
  | closure id params body home owner =>
      have howner : ((owner.map Term.evaluator).getD .null).rename ρ =
          (owner.map Term.evaluator).getD .null := by cases owner <;> rfl
      rw [attributes, renamedEntries_fieldsOf]
      simp [attributes, closureAttributes, howner, Primitive.rename, Method.rename,
        Function.comp_def]
  | lambda params body => simp [attributes, parts, kind?, fieldsOf, Function.comp_def]
  | _ => simp [attributes, parts, kind?, fieldsOf]

theorem property?_rename (term key : Term) :
    (term.rename ρ).property? (key.rename ρ) =
      (term.property? key).map (Option.map (rename ρ)) := by
  have hfound : ∀ name, Entries.find? (.str name) (term.rename ρ).attributes =
      (Entries.find? (.str name) term.attributes).map (rename ρ) := by
    intro name
    rw [attributes_rename]
    exact find?_renamedEntries (.str name) term.attributes
  unfold property?
  rw [text?_rename]
  cases key.text? with
  | none =>
      cases term with
      | mapping entries => simpa using entry?_rename entries key
      | scalar value => cases value <;> rfl
      | _ => rfl
  | some name =>
      cases term with
      | mapping entries => simpa using entry?_rename entries key
      | scalar value => cases value <;> rfl
      | _ => exact congrArg Except.ok (hfound name)

end Term

namespace CorePrimitive

open Term

variable {ρ : Renaming}

theorem chained_rename {related : Term → Term → Except Fault Bool}
    (hrelated : ∀ a b : Term, related (a.rename ρ) (b.rename ρ) = related a b)
    (operands : List Term) :
    chained related (operands.map (rename ρ)) = renamedOutcome ρ (chained related operands) := by
  have hneighbours : neighbours related (operands.map (rename ρ)) =
      neighbours related operands := by
    induction operands with
    | nil => rfl
    | cons first rest ih =>
        cases rest with
        | nil => rfl
        | cons second rest =>
            rw [List.map_cons] at ih ⊢
            rw [List.map_cons, neighbours, neighbours, ih, hrelated]
  rw [chained, chained, hneighbours]
  cases neighbours related operands <;> rfl

theorem foldlM_rename {operation : Term → Term → Except Fault Term}
    (hoperation : ∀ a b : Term, operation (a.rename ρ) (b.rename ρ) =
      renamedOutcome ρ (operation a b)) (operands : List Term) (start : Term) :
    (operands.map (rename ρ)).foldlM operation (start.rename ρ) =
      renamedOutcome ρ (operands.foldlM operation start) := by
  induction operands generalizing start with
  | nil => rfl
  | cons first rest ih =>
      rw [List.map_cons, List.foldlM_cons, List.foldlM_cons, hoperation]
      cases operation start first with
      | error fault => rfl
      | ok value => exact ih value

theorem folded_rename {operation : Term → Term → Except Fault Term}
    {alone : Term → Except Fault Term}
    (hoperation : ∀ a b : Term, operation (a.rename ρ) (b.rename ρ) =
      renamedOutcome ρ (operation a b))
    (halone : ∀ a : Term, alone (a.rename ρ) = renamedOutcome ρ (alone a))
    (operands : List Term) :
    folded operation alone (operands.map (rename ρ)) =
      renamedOutcome ρ (folded operation alone operands) := by
  rcases operands with _ | ⟨first, _ | ⟨second, rest⟩⟩
  · rfl
  · exact halone first
  · exact foldlM_rename hoperation (second :: rest) first

theorem binary_rename {operation : Term → Term → Except Fault Term}
    (hoperation : ∀ a b : Term, operation (a.rename ρ) (b.rename ρ) =
      renamedOutcome ρ (operation a b)) (operands : List Term) :
    binary operation (operands.map (rename ρ)) = renamedOutcome ρ (binary operation operands) := by
  rcases operands with _ | ⟨first, _ | ⟨second, _ | ⟨third, rest⟩⟩⟩
  · rfl
  · rfl
  · exact hoperation first second
  · rfl

/-- A core operation does not tell renamed operands from the operands themselves. -/
theorem apply_rename (operation : CorePrimitive) (operands : List Term) :
    operation.apply (operands.map (rename ρ)) = renamedOutcome ρ (operation.apply operands) := by
  have htruthy : isTruthy ∘ rename ρ = isTruthy := funext isTruthy_rename
  have hequal : ∀ a b : Term, (a.rename ρ).equal (b.rename ρ) = a.equal b := equal_rename
  have hcompare : ∀ comparison : Comparison, ∀ a b : Term,
      compare comparison (a.rename ρ) (b.rename ρ) = compare comparison a b := by
    intro comparison a b
    rw [compare, compare, compare?_rename]
  have hproperty : ∀ term key default : Term,
      ((term.rename ρ).property? (key.rename ρ)).map (·.getD (default.rename ρ)) =
        renamedOutcome ρ ((term.property? key).map (·.getD default)) := by
    intro term key default
    rw [property?_rename]
    rcases term.property? key with fault | (_ | value) <;> rfl
  cases operation with
  | and => simp [apply, htruthy, Except.map]
  | or => simp [apply, htruthy, Except.map]
  | not =>
      rcases operands with _ | ⟨first, _ | ⟨second, rest⟩⟩
      · rfl
      · simp [apply, Except.map]
      · rfl
  | equal => exact chained_rename (fun a b => by rw [hequal]) operands
  | notEqual => exact binary_rename (fun a b => by rw [hequal]; rfl) operands
  | less => exact chained_rename (hcompare _) operands
  | greater => exact chained_rename (hcompare _) operands
  | atMost => exact chained_rename (hcompare _) operands
  | atLeast => exact chained_rename (hcompare _) operands
  | plus =>
      cases operands with
      | nil => rfl
      | cons first rest => exact foldlM_rename add_rename rest first
  | minus => exact folded_rename (onNumbers_rename _) negate_rename operands
  | times => exact foldlM_rename multiply_rename operands (.int 1)
  | divide =>
      exact folded_rename (onNumbers_rename _) (fun a => onNumbers_rename _ (.int 1) a) operands
  | same => exact binary_rename (fun a b => by rw [hequal]; rfl) operands
  | add => exact binary_rename add_rename operands
  | subtract => exact binary_rename (onNumbers_rename _) operands
  | multiply => exact binary_rename multiply_rename operands
  | hasProperty =>
      rcases operands with _ | ⟨term, _ | ⟨key, _ | ⟨third, rest⟩⟩⟩
      · rfl
      · rfl
      · change ((term.rename ρ).property? (key.rename ρ)).map _ =
          renamedOutcome ρ ((term.property? key).map _)
        rw [property?_rename]
        rcases term.property? key with fault | (_ | value) <;> rfl
      · rfl
  | getProperty =>
      rcases operands with _ | ⟨term, _ | ⟨key, _ | ⟨default, _ | ⟨fourth, rest⟩⟩⟩⟩
      · rfl
      · rfl
      · exact hproperty term key .null
      · exact hproperty term key default
      · rfl
  | list => simp [apply, Except.map]

end CorePrimitive

end Rulebook
