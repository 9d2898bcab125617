import Rulebook.Proofs.Scope.Chain
import Rulebook.Proofs.Term.Contents

/-!
# What can be reached

A reference leads on: an environment to its values and its parent, a closure to its body, its home
and its owner, a method to what it belongs to.  What can be reached from some terms is what a
program that holds them can get at, now or with the help of closures that it calls.
-/

namespace Rulebook
namespace Store

/-- What a reference refers to, or what is directly inside of any other term. -/
def leads (store : Store) : Term → List Term
  | .scope frame =>
    (store.bindings frame).map Prod.snd ++ ((store.parent? frame).map Term.scope).toList
  | .closure _ _ body home owner => body :: .scope home :: (owner.map Term.evaluator).toList
  | .primitive (.method (.scope _ frame)) | .primitive (.method (.bind _ _ frame)) =>
    [.scope frame]
  | .primitive (.method (.evaluator _ evaluator)) => [.evaluator evaluator]
  | term => term.contents

def Reaches (store : Store) (roots : List Term) (term : Term) : Prop :=
  ∃ root ∈ roots, Relation.ReflTransGen (fun whole part => part ∈ store.leads whole) root term

namespace Reaches

variable {store : Store} {roots : List Term}

theorem of_mem {term : Term} (hterm : term ∈ roots) : store.Reaches roots term :=
  ⟨term, hterm, .refl⟩

theorem lead {term part : Term} (hterm : store.Reaches roots term)
    (hpart : part ∈ store.leads term) : store.Reaches roots part := by
  obtain ⟨root, hroot, hreaches⟩ := hterm
  exact ⟨root, hroot, hreaches.tail hpart⟩

theorem inside {term part : Term} (hterm : store.Reaches roots term)
    (hpart : part ∈ term.contents) : store.Reaches roots part := by
  apply hterm.lead
  unfold leads
  split
  · cases hpart
  · rw [List.mem_singleton.mp hpart]
    exact List.mem_cons_self
  · cases hpart
  · cases hpart
  · cases hpart
  · exact hpart

theorem throughout {good : Term → Prop} (hgood : ∀ part, store.Reaches roots part → good part)
    {term : Term} (hterm : store.Reaches roots term) : Term.Throughout good term := by
  intro part hpart
  apply hgood
  induction hpart with
  | refl => exact hterm
  | tail _ hinside ih => exact ih.inside hinside

theorem mem_of_closed {inventory : List Term} (hroots : roots ⊆ inventory)
    (hclosed : ∀ term ∈ inventory, store.leads term ⊆ inventory) {term : Term}
    (hterm : store.Reaches roots term) : term ∈ inventory := by
  obtain ⟨root, hroot, hreaches⟩ := hterm
  induction hreaches with
  | refl => exact hroots hroot
  | tail _ hlead ih => exact hclosed _ ih hlead

theorem value {frame : FrameId} (hframe : store.Reaches roots (.scope frame))
    {binding : String × Term} (hbinding : binding ∈ store.bindings frame) :
    store.Reaches roots binding.2 :=
  hframe.lead (List.mem_append_left _ (List.mem_map_of_mem hbinding))

theorem parent {frame parent : FrameId} (hframe : store.Reaches roots (.scope frame))
    (hparent : store.parent? frame = some parent) : store.Reaches roots (.scope parent) := by
  apply hframe.lead
  apply List.mem_append_right
  rw [hparent]
  exact List.mem_cons_self

theorem home {id : Nat} {params : List String} {body : Term} {home : FrameId}
    {owner : Option EvaluatorId}
    (hclosure : store.Reaches roots (.closure id params body home owner)) :
    store.Reaches roots (.scope home) :=
  hclosure.lead (List.mem_cons_of_mem _ List.mem_cons_self)

theorem owner {id : Nat} {params : List String} {body : Term} {home : FrameId}
    {owner : EvaluatorId}
    (hclosure : store.Reaches roots (.closure id params body home (some owner))) :
    store.Reaches roots (.evaluator owner) :=
  hclosure.lead (List.mem_cons_of_mem _ (List.mem_cons_of_mem _ List.mem_cons_self))

end Reaches

/-- The frames that can be reached from some terms, and all that come after the store. -/
def Known (origin : Store) (roots : List Term) (frame : FrameId) : Prop :=
  origin.Reaches roots (.scope frame) ∨ origin.frames.size ≤ frame

end Store
end Rulebook
