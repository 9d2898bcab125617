import Rulebook.Proofs.Term.Likeness

/-!
# Renamed terms

Frames and closures are known by numbers, which are given out in order.  Where other frames and
closures have come in between, the same evaluation gives out other numbers, and what it computes is
the same up to a renaming of them.

Nothing that looks at terms depends on the numbers, except that two of them are the same or not, which
a renaming keeps because it is injective.  It also keeps the order of frames, so that parents still
come before what is inside of them.
-/

namespace Rulebook

/-- New numbers for frames and closures. -/
structure Renaming where
  frame : FrameId ↪o FrameId
  closure : Nat ↪ Nat

def Method.rename (ρ : Renaming) : Method → Method
  | .scope method frame => .scope method (ρ.frame frame)
  | .evaluator method id => .evaluator method id
  | .bind closure params home => .bind (ρ.closure closure) params (ρ.frame home)

def Primitive.rename (ρ : Renaming) : Primitive → Primitive
  | .method m => .method (m.rename ρ)
  | callable => callable

theorem Primitive.rename_injective (ρ : Renaming) : Function.Injective (Primitive.rename ρ) := by
  intro p q hsame
  rcases p with _ | _ | (_ | _ | _) <;> rcases q with _ | _ | (_ | _ | _) <;>
    simp_all [Primitive.rename, Method.rename]

namespace Term

mutual

/-- A term with new numbers in place of those that it refers to. -/
@[simp] def rename (ρ : Renaming) : Term → Term
  | .list items => .list (renameAll ρ items)
  | .tuple items => .tuple (renameAll ρ items)
  | .mapping entries => .mapping (renameEntries ρ entries)
  | .record type fields => .record type (renameEntries ρ fields)
  | .primitive callable => .primitive (callable.rename ρ)
  | .scope frame => .scope (ρ.frame frame)
  | .closure id params body home owner =>
    .closure (ρ.closure id) params (body.rename ρ) (ρ.frame home) owner
  | .application operator operands => .application (operator.rename ρ) (renameAll ρ operands)
  | .lambda params body => .lambda params (body.rename ρ)
  | .conditional p c a => .conditional (p.rename ρ) (c.rename ρ) (a.rename ρ)
  | .assignment target value => .assignment target (value.rename ρ)
  | .definition target value => .definition target (value.rename ρ)
  | .sequence items => .sequence (renameAll ρ items)
  | .quoted value => .quoted (value.rename ρ)
  | term => term
termination_by structural t => t

def renameAll (ρ : Renaming) : List Term → List Term
  | [] => []
  | item :: rest => item.rename ρ :: renameAll ρ rest
termination_by structural ts => ts

def renameEntries (ρ : Renaming) : List (Scalar × Term) → List (Scalar × Term)
  | [] => []
  | (key, value) :: rest => (key, value.rename ρ) :: renameEntries ρ rest
termination_by structural es => es

end

abbrev renamedEntries (ρ : Renaming) (entries : List (Scalar × Term)) : List (Scalar × Term) :=
  entries.map (Prod.map id (rename ρ))

section Rename

variable {ρ : Renaming}

@[simp] theorem renameAll_eq_map (items : List Term) :
    renameAll ρ items = items.map (rename ρ) := by
  induction items with
  | nil => rfl
  | cons item rest ih => rw [renameAll, ih, List.map_cons]

@[simp] theorem renameEntries_eq_map (entries : List (Scalar × Term)) :
    renameEntries ρ entries = renamedEntries ρ entries := by
  induction entries with
  | nil => rfl
  | cons entry rest ih =>
      rw [renameEntries, ih]
      rfl

@[simp] theorem isNode_rename (term : Term) : (term.rename ρ).isNode = term.isNode := by
  cases term <;> rfl

@[simp] theorem isTruthy_rename (term : Term) : (term.rename ρ).isTruthy = term.isTruthy := by
  cases term <;> rfl

@[simp] theorem text?_rename (term : Term) : (term.rename ρ).text? = term.text? := by
  cases term <;> rfl

@[simp] theorem number?_rename (term : Term) :
    Number.ofTerm? (term.rename ρ) = Number.ofTerm? term := by
  cases term <;> rfl

theorem worded_rename (term : Term) : (term.rename ρ).worded = term.worded.rename ρ := by
  cases term <;> rfl

/-! ## Equality -/

theorem orderedParts_rename (term : Term) :
    (term.rename ρ).orderedParts = term.orderedParts.map (rename ρ) := by
  cases term <;> simp [orderedParts, contents]

theorem keyedParts_rename (term : Term) :
    (term.rename ρ).keyedParts = renamedEntries ρ term.keyedParts := by
  cases term <;> simp [keyedParts]

theorem find?_renamedEntries (key : Scalar) (entries : List (Scalar × Term)) :
    Entries.find? key (renamedEntries ρ entries) =
      (Entries.find? key entries).map (rename ρ) := by
  induction entries with
  | nil => rfl
  | cons entry rest ih =>
      simp only [Entries.find?, List.map_cons, List.find?_cons, Prod.map_fst, id] at ih ⊢
      cases entry.1.equal key with
      | true => rfl
      | false => exact ih

theorem equalAll_rename {items : List Term} (others : List Term)
    (hequal : ∀ item ∈ items, ∀ other : Term,
      (item.rename ρ).equal (other.rename ρ) = item.equal other) :
    equalAll (items.map (rename ρ)) (others.map (rename ρ)) = equalAll items others := by
  induction items generalizing others with
  | nil => cases others <;> rfl
  | cons item rest ih =>
      cases others with
      | nil => rfl
      | cons other others =>
          rw [List.map_cons, List.map_cons, equalAll, equalAll,
            hequal item List.mem_cons_self, ih others fun item hmem =>
              hequal item (List.mem_cons_of_mem _ hmem)]

theorem equalEntries_rename {entries : List (Scalar × Term)} (others : List (Scalar × Term))
    (hequal : ∀ entry ∈ entries, ∀ other : Term,
      (entry.2.rename ρ).equal (other.rename ρ) = entry.2.equal other) :
    equalEntries (renamedEntries ρ entries) (renamedEntries ρ others) =
      equalEntries entries others := by
  induction entries with
  | nil => rfl
  | cons entry rest ih =>
      have hrest := ih fun entry hmem => hequal entry (List.mem_cons_of_mem _ hmem)
      obtain ⟨key, value⟩ := entry
      have hcons : renamedEntries ρ ((key, value) :: rest) =
          (key, value.rename ρ) :: renamedEntries ρ rest := rfl
      rw [hcons, equalEntries, equalEntries, hrest, find?_renamedEntries]
      cases Entries.find? key others with
      | none => rfl
      | some other => simp only [Option.map_some, hequal _ List.mem_cons_self]

theorem head?_rename_eq_iff (a b : Term) :
    (a.rename ρ).head? = (b.rename ρ).head? ↔ a.head? = b.head? := by
  cases a <;> cases b <;> simp [head?, (Primitive.rename_injective ρ).eq_iff]

theorem head?_rename_eq_none_iff (a : Term) : (a.rename ρ).head? = none ↔ a.head? = none := by
  cases a <;> simp [head?]

theorem equal_rename (a b : Term) : (a.rename ρ).equal (b.rename ρ) = a.equal b := by
  induction a using contents_induct generalizing b with
  | h a ih =>
      have hordered := equalAll_rename b.orderedParts fun item hitem =>
        ih item (mem_contents_of_orderedParts hitem)
      have hkeyed := equalEntries_rename b.keyedParts fun entry hentry =>
        ih entry.2 (mem_contents_of_keyedParts hentry)
      rw [Bool.eq_iff_iff, equal_iff, equal_iff, head?_rename_eq_iff, orderedParts_rename,
        orderedParts_rename, keyedParts_rename, keyedParts_rename, hordered, hkeyed,
        List.length_map, List.length_map, Ne, head?_rename_eq_none_iff]

/-! ## Keys and shown forms -/

theorem visible_rename (term : Term) :
    (term.rename ρ).visible = term.visible.map (rename ρ) := by
  cases term <;> simp [visible, contents, Function.comp_def]

theorem all_rename {f : Term → Bool} {items : List Term}
    (hf : ∀ item ∈ items, f (item.rename ρ) = f item) :
    (items.map (rename ρ)).all f = items.all f := by
  rw [List.all_map, Bool.eq_iff_iff, List.all_eq_true, List.all_eq_true]
  exact forall₂_congr fun item hitem => by rw [Function.comp_apply, hf item hitem]

@[simp] theorem isKey_rename (term : Term) : (term.rename ρ).isKey = term.isKey := by
  induction term using contents_induct with
  | h term ih =>
      have hhashable : (term.rename ρ).isHashable = term.isHashable := by cases term <;> rfl
      rw [isKey_eq_all, isKey_eq_all, hhashable, visible_rename, all_rename fun item hitem =>
        ih item (mem_contents_of_visible hitem)]

@[simp] theorem isShown_rename (term : Term) : (term.rename ρ).isShown = term.isShown := by
  induction term using contents_induct with
  | h term ih =>
      have hshowable : (term.rename ρ).isShowable = term.isShowable := by
        rcases term with _ | _ | _ | _ | _ | (_ | _ | (_ | _ | _)) <;> rfl
      rw [isShown_eq_all, isShown_eq_all, hshowable, visible_rename, all_rename fun item hitem =>
        ih item (mem_contents_of_visible hitem)]

/-! ## Shown terms -/

section Shown

variable {scopes : FrameId → String}

theorem display_rename (callable : Primitive) :
    (callable.rename ρ).display scopes = callable.display fun frame => scopes (ρ.frame frame) := by
  rcases callable with _ | _ | (_ | _ | _) <;> rfl

mutual

-- As for `displayWith_congr`, the equations hold by evaluation.
theorem displayWith_rename (term : Term) :
    (term.rename ρ).displayWith scopes = term.displayWith fun frame => scopes (ρ.frame frame) := by
  cases term with
  | list items => exact congrArg Text.bracketed (displayAll_rename items)
  | tuple items => exact congrArg Text.parenthesized (displayAll_rename items)
  | mapping entries => exact congrArg Text.braced (displayEntries_rename entries)
  | record type fields =>
      exact congrArg (fun shown => type.label ++ "(" ++ ", ".intercalate shown ++ ")")
        (displayFields_rename fields)
  | primitive callable => exact display_rename callable
  | application operator operands =>
      exact congrArg₂ (fun operator operands => "Application(operator=" ++ operator ++
        ", operands=" ++ Text.parenthesized operands ++ ")") (displayWith_rename operator)
        (displayAll_rename operands)
  | lambda params body =>
      exact congrArg (fun shown => "Lambda(params=" ++
        Text.parenthesized (params.map Text.quoted) ++ ", body=" ++ shown ++ ")")
        (displayWith_rename body)
  | conditional p c a =>
      change "If(predicate=" ++ (p.rename ρ).displayWith scopes ++ ", consequent=" ++
        (c.rename ρ).displayWith scopes ++ ", alternative=" ++ (a.rename ρ).displayWith scopes ++
        ")" = _
      rw [displayWith_rename p, displayWith_rename c, displayWith_rename a]
      exact rfl
  | assignment target value =>
      exact congrArg (fun shown => "Assignment(target_name=" ++ Text.quoted target ++
        ", value=" ++ shown ++ ")") (displayWith_rename value)
  | definition target value =>
      exact congrArg (fun shown => "Definition(target_name=" ++ Text.quoted target ++
        ", value=" ++ shown ++ ")") (displayWith_rename value)
  | sequence items =>
      exact congrArg (fun shown => "Sequence(expressions=" ++ Text.parenthesized shown ++ ")")
        (displayAll_rename items)
  | quoted value =>
      exact congrArg (fun shown => "Quoted(value=" ++ shown ++ ")") (displayWith_rename value)
  | _ => rfl
termination_by structural term

theorem displayAll_rename (items : List Term) : displayAll scopes (renameAll ρ items) =
    displayAll (fun frame => scopes (ρ.frame frame)) items := by
  cases items with
  | nil => rfl
  | cons item rest => exact congrArg₂ List.cons (displayWith_rename item) (displayAll_rename rest)
termination_by structural items

theorem displayEntries_rename (entries : List (Scalar × Term)) :
    displayEntries scopes (renameEntries ρ entries) =
      displayEntries (fun frame => scopes (ρ.frame frame)) entries := by
  match entries with
  | [] => rfl
  | (key, value) :: rest =>
      exact congrArg₂ (fun shown rest => (key.display ++ ": " ++ shown) :: rest)
        (displayWith_rename value) (displayEntries_rename rest)
termination_by structural entries

theorem displayFields_rename (fields : List (Scalar × Term)) :
    displayFields scopes (renameEntries ρ fields) =
      displayFields (fun frame => scopes (ρ.frame frame)) fields := by
  match fields with
  | [] => rfl
  | (key, value) :: rest =>
      exact congrArg₂ (fun shown rest => (key.label ++ "=" ++ shown) :: rest)
        (displayWith_rename value) (displayFields_rename rest)
termination_by structural fields

end

end Shown

/-! ## Terms that keep their numbers -/

/-- Whether a renaming keeps the numbers that a term itself refers to. -/
def KeptBy (ρ : Renaming) : Term → Prop
  | .closure id _ _ home _ => ρ.closure id = id ∧ ρ.frame home = home
  | .scope frame | .primitive (.method (.scope _ frame)) => ρ.frame frame = frame
  | .primitive (.method (.bind id _ home)) => ρ.closure id = id ∧ ρ.frame home = home
  | _ => True

theorem rename_eq_rebuild {term : Term} (hterm : KeptBy ρ term) :
    term.rename ρ = term.rebuild (term.contents.map (rename ρ)) := by
  have hentries : ∀ entries : List (Scalar × Term), renamedEntries ρ entries =
      (entries.map Prod.fst).zip ((entries.map Prod.snd).map (rename ρ)) := by
    intro entries
    rw [List.map_map, List.zip_map']
    rfl
  rcases term with _ | _ | _ | _ | _ | (_ | _ | (_ | _ | _)) <;>
    simp_all [rebuild, contents, KeptBy, Primitive.rename, Method.rename]

/-- A term is not changed if the numbers of everything inside are kept. -/
theorem rename_eq_self {term : Term} (hterm : Throughout (KeptBy ρ) term) :
    term.rename ρ = term := by
  induction term using contents_induct with
  | h term ih =>
      have hparts : term.contents.map (rename ρ) = term.contents := by
        nth_rewrite 2 [← List.map_id term.contents]
        exact List.map_congr_left fun part hpart => ih part hpart (hterm.of_mem hpart)
      rw [rename_eq_rebuild hterm.self, hparts, rebuild_contents]

end Rename

end Term

end Rulebook
