import Rulebook.Proofs.Evaluation.Agreement
import Rulebook.Proofs.Scope.Reach

/-!
# Territories

What an evaluation does is decided by what it can get at: it uses the names that its expression
mentions from its own frame, it enters closures that it holds, and it looks into the environments
that it holds.  A territory says which frames, names and evaluators these may be.  A term is held in
a territory when everything that it refers to lies there.
-/

namespace Rulebook

/-- The use that an expression makes of a name. -/
inductive Access where
  | read (name : String)
  | assign (name : String)
  | define (name : String)
deriving DecidableEq

def Access.name : Access → String
  | .read name | .assign name | .define name => name

mutual

/-- The uses that an expression makes of names, in the bodies of lambdas too but not in what is
quoted. -/
def Term.accesses : Term → List Access
  | .variable name => [.read name]
  | .application operator operands => operator.accesses ++ Term.allAccesses operands
  | .lambda _ body => body.accesses
  | .conditional p c a => p.accesses ++ (c.accesses ++ a.accesses)
  | .assignment target value => .assign target :: value.accesses
  | .definition target value => .define target :: value.accesses
  | .sequence items => Term.allAccesses items
  | _ => []
termination_by structural t => t

def Term.allAccesses : List Term → List Access
  | [] => []
  | item :: rest => item.accesses ++ Term.allAccesses rest
termination_by structural ts => ts

end

theorem Term.mem_allAccesses {item : Term} {items : List Term} {access : Access}
    (hitem : item ∈ items) (haccess : access ∈ item.accesses) :
    access ∈ Term.allAccesses items := by
  induction items with
  | nil => exact absurd hitem List.not_mem_nil
  | cons first rest ih =>
      rw [Term.allAccesses, List.mem_append]
      rcases List.mem_cons.mp hitem with rfl | hrest
      · exact Or.inl haccess
      · exact Or.inr (ih hrest)

/-- The parts of a node make no other use of names than the node, unless it is a quotation. -/
theorem Term.accesses_subset {term part : Term} {kind : NodeKind} (hkind : term.kind? = some kind)
    (hquoted : kind ≠ .quoted) (hpart : part ∈ term.contents) : part.accesses ⊆ term.accesses := by
  intro access haccess
  cases term <;> simp only [Term.kind?, Option.some.injEq, reduceCtorEq] at hkind
  case «variable» name => exact absurd hpart List.not_mem_nil
  case application operator operands =>
      rw [Term.accesses, List.mem_append]
      rcases List.mem_cons.mp hpart with rfl | hoperand
      · exact Or.inl haccess
      · exact Or.inr (Term.mem_allAccesses hoperand haccess)
  case lambda params body =>
      rw [List.mem_singleton.mp hpart] at haccess
      exact haccess
  case conditional p c a =>
      simp only [Term.contents, List.mem_cons, List.not_mem_nil, or_false] at hpart
      rcases hpart with rfl | rfl | rfl <;> simp [Term.accesses, haccess]
  case assignment target value =>
      rw [List.mem_singleton.mp hpart] at haccess
      exact List.mem_cons_of_mem _ haccess
  case definition target value =>
      rw [List.mem_singleton.mp hpart] at haccess
      exact List.mem_cons_of_mem _ haccess
  case sequence items => exact Term.mem_allAccesses hpart haccess
  case quoted value => exact absurd hkind.symm hquoted

structure Territory where
  /-- The frames that expressions may be evaluated in. -/
  home : Store → FrameId → Prop
  /-- The uses that expressions may make of names from a frame. -/
  may : Store → FrameId → Access → Prop
  /-- The frames that may be looked into. -/
  opened : Store → FrameId → Prop
  /-- The evaluators that may run. -/
  runs : EvaluatorId → Prop

namespace Territory

/-- Whether what a term refers to lies in a territory. -/
def Admits (T : Territory) (store : Store) : Term → Prop
  | .closure _ _ body home owner => T.home store home ∧
    (∀ access ∈ body.accesses, T.may store home access) ∧
    T.runs (owner.getD defaultEvaluator)
  | .scope frame | .primitive (.method (.scope _ frame)) | .primitive (.method (.bind _ _ frame)) =>
    T.opened store frame
  | .evaluator evaluator | .primitive (.method (.evaluator _ evaluator)) => T.runs evaluator
  | _ => True

def Holds (T : Territory) (store : Store) (term : Term) : Prop :=
  Term.Throughout (T.Admits store) term

/-- A territory is not lost while a store goes on. -/
structure Stays (T : Territory) : Prop where
  home : ∀ {before after frame}, Store.Later before after → T.home before frame → T.home after frame
  may : ∀ {before after frame access}, Store.Later before after →
    T.may before frame access → T.may after frame access
  opened : ∀ {before after frame}, Store.Later before after →
    T.opened before frame → T.opened after frame

variable {T : Territory}

theorem hereditary (T : Territory) (store : Store) : Term.Hereditary (T.Holds store) := by
  apply Term.hereditary_throughout
  intro term hterm
  unfold Admits
  split <;> first | cases hterm | trivial

namespace Holds

variable {store : Store}

theorem scope {frame : FrameId} (hframe : T.opened store frame) : T.Holds store (.scope frame) :=
  .intro hframe fun _ hpart => absurd hpart List.not_mem_nil

theorem method {method : Method} (hmethod : T.Admits store (.primitive (.method method))) :
    T.Holds store (.primitive (.method method)) :=
  .intro hmethod fun _ hpart => absurd hpart List.not_mem_nil

theorem closure {params : List String} {body : Term} {home : FrameId} (hhome : T.home store home)
    (hbody : T.Holds store body) (hmay : ∀ access ∈ body.accesses, T.may store home access)
    (owner : Option EvaluatorId) (hruns : T.runs (owner.getD defaultEvaluator)) (id : Nat) :
    T.Holds store (.closure id params body home owner) := by
  apply Term.Throughout.intro
  · exact ⟨hhome, hmay, hruns⟩
  · intro part hpart
    rwa [List.mem_singleton.mp hpart]

theorem toTerm {bindings : Bindings} (hbindings : ∀ binding ∈ bindings, T.Holds store binding.2) :
    T.Holds store bindings.toTerm := by
  apply (T.hereditary store).mapping
  intro entry hentry
  obtain ⟨binding, hbinding, rfl⟩ := List.mem_map.mp hentry
  exact hbindings binding hbinding

end Holds

namespace Stays

variable {before after : Store}

theorem admits (hstays : T.Stays) (hlater : Store.Later before after) {term : Term}
    (hterm : T.Admits before term) : T.Admits after term := by
  unfold Admits at hterm ⊢
  split
  · obtain ⟨hhome, hmay, hruns⟩ := hterm
    exact ⟨hstays.home hlater hhome, fun access haccess => hstays.may hlater (hmay access haccess),
      hruns⟩
  · exact hstays.opened hlater hterm
  · exact hstays.opened hlater hterm
  · exact hstays.opened hlater hterm
  · exact hterm
  · exact hterm
  · trivial

theorem holds (hstays : T.Stays) (hlater : Store.Later before after) {term : Term}
    (hterm : T.Holds before term) : T.Holds after term :=
  hterm.mono fun _ => hstays.admits hlater

theorem lasts (hstays : T.Stays) : Store.Lasts T.Holds :=
  fun _ _ _ hlater hterm => hstays.holds hlater hterm

theorem forall_holds (hstays : T.Stays) (hlater : Store.Later before after) {terms : List Term}
    (hterms : ∀ term ∈ terms, T.Holds before term) : ∀ term ∈ terms, T.Holds after term :=
  fun term hterm => hstays.holds hlater (hterms term hterm)

end Stays

section Reached

variable {store : Store} {roots : List Term}

theorem admits_of_reaches
    (hclosure : ∀ {id params body home owner},
      store.Reaches roots (.closure id params body home owner) → T.home store home ∧
        (∀ access ∈ body.accesses, T.may store home access) ∧
          T.runs (owner.getD defaultEvaluator))
    (hopened : ∀ {frame}, store.Reaches roots (.scope frame) → T.opened store frame)
    (hruns : ∀ {evaluator}, store.Reaches roots (.evaluator evaluator) → T.runs evaluator)
    (part : Term) (hpart : store.Reaches roots part) : T.Admits store part := by
  unfold Admits
  split
  · exact hclosure hpart
  · exact hopened hpart
  · exact hopened (hpart.lead List.mem_cons_self)
  · exact hopened (hpart.lead List.mem_cons_self)
  · exact hruns hpart
  · exact hruns (hpart.lead List.mem_cons_self)
  · trivial

theorem holds_of_reaches (hadmits : ∀ part, store.Reaches roots part → T.Admits store part)
    {term : Term} (hterm : store.Reaches roots term) : T.Holds store term :=
  hterm.throughout hadmits

end Reached

/-! ## Guarded frames -/

/-- Some frames hold only what lies in a territory, and are inside of each other. -/
structure Guards (T : Territory) (known : FrameId → Prop) (store : Store) : Prop where
  value : ∀ {frame}, known frame → ∀ binding ∈ store.bindings frame, T.Holds store binding.2
  parent : ∀ {frame parent}, known frame → store.parent? frame = some parent → known parent

namespace Guards

variable {known : FrameId → Prop} {store after : Store}

theorem start {roots : List Term}
    (hadmits : ∀ part, store.Reaches roots part → T.Admits store part) :
    T.Guards (store.Known roots) store where
  value {frame} hframe binding hbinding := by
    rcases hframe with hreached | hnew
    · exact holds_of_reaches hadmits (hreached.value hbinding)
    · rw [Store.bindings_of_size_le hnew] at hbinding
      exact absurd hbinding List.not_mem_nil
  parent {frame parent} hframe hparent := by
    rcases hframe with hreached | hnew
    · exact Or.inl (hreached.parent hparent)
    · rw [Store.parent?_of_size_le hnew] at hparent
      cases hparent

theorem keep (hguards : T.Guards known store) (hstays : T.Stays)
    (hframes : after.frames = store.frames) (hlater : Store.Later store after) :
    T.Guards known after where
  value hframe binding hbinding := by
    rw [Store.bindings, hframes, ← Store.bindings] at hbinding
    exact hstays.holds hlater (hguards.value hframe binding hbinding)
  parent hframe hparent := by
    rw [Store.parent?_congr hframes] at hparent
    exact hguards.parent hframe hparent

theorem define (hguards : T.Guards known store) (hstays : T.Stays) {value : Term}
    (hvalue : T.Holds store value) (frame : FrameId) (name : String) :
    T.Guards known (store.define frame name value) where
  value {other} hother binding hbinding := by
    apply hstays.holds (Store.Resumes.define store frame name value).toLater
    rw [Store.bindings_define] at hbinding
    split_ifs at hbinding
    · exact Bindings.forall_insert (hguards.value hother) hvalue name binding hbinding
    · exact hguards.value hother binding hbinding
  parent hother hparent := by
    rw [Store.parent?_define] at hparent
    exact hguards.parent hother hparent

theorem push (hguards : T.Guards known store) (hstays : T.Stays) {bindings : Bindings}
    (hbindings : ∀ binding ∈ bindings, T.Holds store binding.2) {parent : FrameId}
    (hparent : known parent) : T.Guards known (store.push ⟨bindings, some parent⟩).1 where
  value {other} hother binding hbinding := by
    apply hstays.holds (Store.Resumes.push store _).toLater
    rw [Store.bindings_push] at hbinding
    split_ifs at hbinding
    · exact hbindings binding hbinding
    · exact hguards.value hother binding hbinding
  parent hother hfound := by
    rw [Store.parent?_push] at hfound
    split_ifs at hfound
    · cases hfound
      exact hparent
    · exact hguards.parent hother hfound

theorem lookup? (hguards : T.Guards known store) {frame : FrameId} (hframe : known frame)
    {name : String} {value : Term} (hvalue : store.lookup? frame name = some value) :
    T.Holds store value := by
  obtain ⟨other, hother, hbound⟩ := Store.exists_of_lookup? hvalue
  have hknown := Store.forall_mem_chain hframe (fun _ _ => hguards.parent) other hother
  exact hguards.value hknown _ (Bindings.mem_of_value? hbound)

end Guards

end Territory

end Rulebook
