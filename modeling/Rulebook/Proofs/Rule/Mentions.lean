import Rulebook.Proofs.Evaluation.Hosts
import Rulebook.Proofs.Rule.Trials

/-!
# Bindings that are not mentioned

A rule cannot tell bindings apart that agree on all names that it mentions.  The two frames of the
bindings differ in other names only, and whatever is evaluated in these frames or inside of them is
part of the rule; closures that come from outside run in frames of their own, which are inside of
the environment.

A closure can be asked for its environment, though.  So a rule can create a closure and look into
the frame that it is evaluated in, by the text of a name.
-/

namespace Rulebook

def Rule.Mentions (rule : Rule) (name : String) : Prop :=
  ∃ access ∈ rule.accesses, access.name = name

/-- The frames of a store that can be reached from where a run began, and those that have been
created inside of them. -/
inductive Store.Outer (origin : Store) (roots : List Term) (store : Store) : FrameId → Prop
  | reached {frame : FrameId} (hframe : origin.Reaches roots (.scope frame)) :
      Outer origin roots store frame
  | inside {frame parent : FrameId} (hnew : origin.frames.size < frame)
      (hparent : store.parent? frame = some parent) (houter : Outer origin roots store parent) :
      Outer origin roots store frame

/-- From some terms only frames can be reached that are there. -/
def Store.Closed (store : Store) (roots : List Term) : Prop :=
  ∀ frame, store.Reaches roots (.scope frame) → frame < store.frames.size

namespace Store.Outer

variable {origin store after : Store} {roots : List Term} {frame parent : FrameId}

theorem ne_size (hclosed : origin.Closed roots) (houter : Outer origin roots store frame) :
    frame ≠ origin.frames.size := by
  cases houter with
  | reached hframe => exact Nat.ne_of_lt (hclosed frame hframe)
  | inside hnew _ _ => exact Nat.ne_of_gt hnew

theorem known (houter : Outer origin roots store frame) : origin.Known roots frame := by
  cases houter with
  | reached hframe => exact Or.inl hframe
  | inside hnew _ _ => exact Or.inr (Nat.le_of_lt hnew)

theorem mono (hlater : Later store after) (houter : Outer origin roots store frame) :
    Outer origin roots after frame := by
  induction houter with
  | reached hframe => exact .reached hframe
  | inside hnew hparent _ ih =>
      apply Outer.inside hnew _ ih
      rwa [hlater.parent _ (lt_size_of_parent? hparent)]

theorem step (hclosed : origin.Closed roots) (hlater : Later origin store)
    (houter : Outer origin roots store frame) (hparent : store.parent? frame = some parent) :
    Outer origin roots store parent := by
  cases houter with
  | reached hframe =>
      rw [hlater.parent frame (hclosed frame hframe)] at hparent
      exact .reached (hframe.parent hparent)
  | inside _ hfound hinside =>
      rw [hfound] at hparent
      cases hparent
      exact hinside

theorem push (hsize : origin.frames.size < store.frames.size) {bindings : Bindings}
    (houter : Outer origin roots store parent) :
    Outer origin roots (store.push ⟨bindings, some parent⟩).1 store.frames.size := by
  apply Outer.inside hsize
  · rw [parent?_push, if_pos rfl]
  · exact houter.mono (Store.Resumes.push store _).toLater

end Store.Outer

/-- Whether the application of a primitive does not ask a closure in a new frame for its
environment. -/
def Primitive.keepsOut (limit : FrameId) : Primitive → List Term → Bool
  | .core .getProperty, .closure _ _ _ home _ :: key :: _ =>
    home < limit || (key.text? ≠ some "env" && key.text? ≠ some "bind_arguments")
  | _, _ => true

/-- Expressions are evaluated in frames that can be reached or are new, and outside of the frame of
the bindings they may use all names. -/
def Territory.apart (origin : Store) (roots : List Term) (mentioned : String → Prop) :
    Territory where
  home _ frame := origin.Known roots frame
  may store frame access := origin.Outer roots store frame ∨ mentioned access.name
  opened store frame := origin.Outer roots store frame
  runs _ := True

namespace Territory

variable {origin : Store} {roots : List Term} {mentioned : String → Prop}

theorem stays_apart : (apart origin roots mentioned).Stays where
  home _ hhome := hhome
  may hlater hmay := hmay.imp_left fun houter => houter.mono hlater
  opened hlater hopened := hopened.mono hlater

theorem admits_apart (term : Term) (hterm : origin.Reaches roots term) :
    (apart origin roots mentioned).Admits origin term := by
  refine admits_of_reaches ?_ (fun hframe => Store.Outer.reached hframe) (fun _ => trivial) term
    hterm
  intro id params body home owner hclosure
  exact ⟨Or.inl hclosure.home, fun _ _ => Or.inl (.reached hclosure.home), trivial⟩

end Territory

/-- Two stores differ only in what the frame of the bindings holds for names that are not
mentioned. -/
structure Apart (origin : Store) (roots : List Term) (mentioned : String → Prop)
    (first second : Store) : Prop where
  rest : Store.SameRest first second
  later : Store.Later origin first
  size : first.frames.size = second.frames.size
  new : origin.frames.size < first.frames.size
  frames : ∀ id ≠ origin.frames.size, first.frames[id]? = second.frames[id]?
  parent : first.parent? origin.frames.size = second.parent? origin.frames.size
  value : ∀ name, mentioned name → (first.bindings origin.frames.size).value? name =
    (second.bindings origin.frames.size).value? name
  guards : (Territory.apart origin roots mentioned).Guards (origin.Known roots) first

namespace Apart

variable {origin first second : Store} {roots : List Term} {mentioned : String → Prop}

theorem parent_eq (hapart : Apart origin roots mentioned first second) (id : FrameId) :
    first.parent? id = second.parent? id := by
  by_cases hid : id = origin.frames.size
  · rw [hid, hapart.parent]
  · rw [Store.parent?, Store.parent?, hapart.frames id hid]

theorem bindings_eq (hapart : Apart origin roots mentioned first second) {id : FrameId}
    (hid : id ≠ origin.frames.size) : first.bindings id = second.bindings id := by
  rw [Store.bindings, Store.bindings, hapart.frames id hid]

theorem value_eq (hapart : Apart origin roots mentioned first second)
    (hclosed : origin.Closed roots) {frame : FrameId} {access : Access}
    (hmay : (Territory.apart origin roots mentioned).may first frame access) :
    ∀ other ∈ first.chain frame,
      (first.bindings other).value? access.name = (second.bindings other).value? access.name := by
  intro other hother
  by_cases hnew : other = origin.frames.size
  · rcases hmay with houter | hmentioned
    -- A chain that begins outside stays outside, and does not come to the frame of the bindings.
    · have hchain : origin.Outer roots first other :=
        Store.forall_mem_chain houter (fun _ _ hinside => hinside.step hclosed hapart.later) other
          hother
      exact absurd hnew (hchain.ne_size hclosed)
    · rw [hnew]
      exact hapart.value access.name hmentioned
  · rw [hapart.bindings_eq hnew]

theorem start {rules : List Rule} {frame : FrameId} {bindings others : Bindings}
    (hbindings : bindings.names.Nodup) (hothers : others.names.Nodup)
    (hsame : ∀ name, mentioned name → bindings.value? name = others.value? name) :
    Apart origin (Rule.roots rules frame bindings) mentioned
      (origin.extend (some frame) bindings).1 (origin.extend (some frame) others).1 where
  rest := ⟨rfl, rfl, rfl, rfl⟩
  later := Store.later_extend origin frame bindings
  size := by simp [Store.extend, Store.push]
  new := by simp [Store.extend, Store.push]
  frames id hid := by
    rw [Store.extend, Store.extend, Store.getElem?_push_eq, Store.getElem?_push_eq, if_neg hid,
      if_neg hid]
  parent := by
    rw [Store.extend, Store.extend, Store.parent?_push, Store.parent?_push, if_pos rfl]
  value name hname := by
    have hheld : Bindings.insertAll [] bindings = bindings := Bindings.insertAll_of_nodup hbindings
    have hheld' : Bindings.insertAll [] others = others := Bindings.insertAll_of_nodup hothers
    rw [Store.extend, Store.extend, Store.bindings_push, Store.bindings_push, if_pos rfl,
      if_pos rfl, hheld, hheld']
    exact hsame name hname
  guards := Territory.guards_extend Territory.stays_apart Territory.admits_apart

theorem keep (hapart : Apart origin roots mentioned first second) {first' second' : Store}
    (hfirst : first'.frames = first.frames) (hsecond : second'.frames = second.frames)
    (hrest : Store.SameRest first' second')
    (htrace : ∃ events, first'.trace.toList = first.trace.toList ++ events) :
    Apart origin roots mentioned first' second' where
  rest := hrest
  later := hapart.later.trans (.of_frames_eq hfirst htrace)
  size := by rw [hfirst, hsecond, hapart.size]
  new := by
    rw [hfirst]
    exact hapart.new
  frames := by
    rw [hfirst, hsecond]
    exact hapart.frames
  parent := by rw [Store.parent?_congr hfirst, Store.parent?_congr hsecond, hapart.parent]
  value := by
    rw [Store.bindings, Store.bindings, hfirst, hsecond]
    exact hapart.value
  guards := hapart.guards.keep Territory.stays_apart hfirst (.of_frames_eq hfirst htrace)

theorem define (hapart : Apart origin roots mentioned first second) {value : Term}
    (hvalue : (Territory.apart origin roots mentioned).Holds first value) (frame : FrameId)
    (name : String) :
    Apart origin roots mentioned (first.define frame name value)
      (second.define frame name value) where
  rest := ⟨hapart.rest.depths, hapart.rest.closures, hapart.rest.notes, hapart.rest.trace⟩
  later := hapart.later.trans (Store.Resumes.define first frame name value).toLater
  size := by rw [Store.size_define, Store.size_define, hapart.size]
  new := by
    rw [Store.size_define]
    exact hapart.new
  frames id hid := by
    simp only [Store.define, Array.getElem?_modify, hapart.frames id hid]
  parent := by rw [Store.parent?_define, Store.parent?_define, hapart.parent]
  value other hother := by
    have hold := hapart.value other hother
    by_cases hframe : origin.frames.size = frame
    · have hfirst : frame < first.frames.size := hframe ▸ hapart.new
      have hsecond : frame < second.frames.size := hapart.size ▸ hfirst
      rw [hframe] at hold ⊢
      rw [Store.bindings_define_self hfirst, Store.bindings_define_self hsecond]
      -- The name is no difference any more, even if it was one.
      by_cases hname : other = name
      · rw [hname, Bindings.value?_insert_self, Bindings.value?_insert_self]
      · rw [Bindings.value?_insert_of_ne hname, Bindings.value?_insert_of_ne hname, hold]
    · rw [Store.bindings_define_of_ne hframe, Store.bindings_define_of_ne hframe, hold]
  guards := hapart.guards.define Territory.stays_apart hvalue frame name

theorem push (hapart : Apart origin roots mentioned first second) {parent : FrameId}
    (hparent : origin.Known roots parent) {bindings : Bindings}
    (hbindings : ∀ binding ∈ bindings,
      (Territory.apart origin roots mentioned).Holds first binding.2) :
    Apart origin roots mentioned (first.push ⟨bindings, some parent⟩).1
      (second.push ⟨bindings, some parent⟩).1 where
  rest := ⟨hapart.rest.depths, hapart.rest.closures, hapart.rest.notes, hapart.rest.trace⟩
  later := hapart.later.trans (Store.Resumes.push first _).toLater
  size := by simp [Store.push, hapart.size]
  new := Nat.lt_of_lt_of_le hapart.new (Store.Resumes.push first _).size
  frames id hid := by
    rw [Store.getElem?_push_eq, Store.getElem?_push_eq, hapart.size, hapart.frames id hid]
  parent := by rw [Store.parent?_push, Store.parent?_push, hapart.size, hapart.parent]
  value name hname := by
    have hne : origin.frames.size ≠ first.frames.size := Nat.ne_of_lt hapart.new
    rw [Store.bindings_push, Store.bindings_push, ← hapart.size, if_neg hne, if_neg hne,
      hapart.value name hname]
  guards := hapart.guards.push Territory.stays_apart hbindings hparent

end Apart

namespace Discipline

def apart (origin : Store) (roots : List Term) (mentioned : String → Prop) : Discipline where
  toTerritory := .apart origin roots mentioned
  related := Apart origin roots mentioned
  permits := Primitive.keepsOut origin.frames.size
  allowed _ callable arguments := Primitive.keepsOut origin.frames.size callable arguments = true

variable {origin : Store} {roots : List Term} {mentioned : String → Prop}

theorem lawful_apart {machine : Machine} (hclosed : origin.Closed roots)
    (hhonest : machine.host.Honest) : (apart origin roots mentioned).Lawful machine where
  framing := ⟨Apart.rest, fun hapart => hapart.keep⟩
  size := Apart.size
  parent := Apart.parent_eq
  stays := Territory.stays_apart
  allowed_later _ hallowed := hallowed
  lookup hapart hhome hmay := by
    constructor
    · exact Store.lookup?_congr hapart.parent_eq (hapart.value_eq hclosed hmay)
    · exact fun value hvalue => hapart.guards.lookup? hhome hvalue
  find hapart _ hmay := Store.find?_congr hapart.parent_eq (hapart.value_eq hclosed hmay)
  assign hapart _ _ hvalue _ := hapart.define hvalue _ _
  define hapart _ _ hvalue := hapart.define hvalue _ _
  push hapart hparent _ hbindings := hapart.push hparent hbindings
  home_push hapart _ := Or.inr (Nat.le_of_lt hapart.new)
  may_push hapart hmay := hmay.imp_left fun houter => houter.push hapart.new
  opened_push hapart hopened := hopened.push hapart.new
  opened_bindings hapart hopened := by
    constructor
    · exact hapart.bindings_eq (hopened.ne_size hclosed)
    · exact hapart.guards.value hopened.known
  opened_parent hapart hopened hparent := hopened.step hclosed hapart.later hparent
  applied _ hpermits := hpermits
  called _ hpermits := hpermits
  method _ hopened := ⟨hopened.known, fun _ => Or.inl hopened⟩
  opens hallowed hkey hname hhome := by
    rcases hhome with hreached | hnew
    · exact .reached hreached
    -- A closure in a new frame is not asked for it.
    · simp only [apart, Primitive.keepsOut, hkey] at hallowed
      rcases hname with rfl | rfl
      · simp [Nat.not_lt_of_le hnew] at hallowed
      · simp [Nat.not_lt_of_le hnew] at hallowed
  host _ harguments := keeps_of_honest Territory.stays_apart (hhonest _ _) harguments

end Discipline

/-! ## Rules with different bindings -/

/-- The evaluations of a rule in a frame end, and ask no closure of this frame or of later ones for
its environment. -/
structure Rule.EndsApart (rule : Rule) (runner : Runner) (frame : FrameId) (store : Store) :
    Prop where
  condition : runner.machine.EndsWithin (Primitive.keepsOut frame) runner.bound
    (.eval runner.evaluator rule.condition frame (store.callbackDepth runner.evaluator)) store
  action : ∀ value middle, runner.evaluate rule.condition frame store = (.ok value, middle) →
    value.isTruthy = true → runner.machine.EndsWithin (Primitive.keepsOut frame) runner.bound
      (.eval runner.evaluator rule.action frame (middle.callbackDepth runner.evaluator))
      (middle.log (.ruleFired rule.id))

theorem agree_applyRule_apart {runner : Runner} {rule : Rule} {store first second : Store}
    {frame : FrameId} {bindings : Bindings}
    (hclosed : store.Closed (Rule.roots [rule] frame bindings))
    (hhonest : runner.machine.host.Honest)
    (hstores : Apart store (Rule.roots [rule] frame bindings) rule.Mentions first second)
    (hends : rule.EndsApart runner store.frames.size first) :
    (Discipline.apart store (Rule.roots [rule] frame bindings) rule.Mentions).Agrees
      (Discipline.apart store (Rule.roots [rule] frame bindings) rule.Mentions).Holds
      (runner.applyRule rule store.frames.size) first second := by
  set D := Discipline.apart store (Rule.roots [rule] frame bindings) rule.Mentions
  have law : D.Lawful runner.machine := Discipline.lawful_apart hclosed hhonest
  have hfits : ∀ term ∈ [rule.condition, rule.action], ∀ {after after'}, D.related after after' →
      ∀ depth, D.Fits after (.eval runner.evaluator term store.frames.size depth) := by
    intro term hterm after after' hafter depth
    apply law.fits_of_mem_rule Territory.admits_apart List.mem_cons_self hterm hafter.later
    · exact trivial
    · exact Or.inr (Nat.le_refl _)
    · exact fun access haccess => Or.inr ⟨access, haccess, rfl⟩
  apply law.agree_applyRule
  · apply law.agree_evaluate hstores
    exact law.agree_run_of_ends hstores (hfits _ (by simp) hstores _) hends.condition
  · intro value middle after hvalue htruthy hafter _
    apply law.agree_evaluate hafter
    exact law.agree_run_of_ends hafter (hfits _ (by simp) hafter _)
      (hends.action value middle hvalue htruthy)

/-- A rule asks a closure of its own for the frame that it is evaluated in. -/
def peekRule : Rule where
  id := "peek"
  condition := .bool true
  action := .call "get-property" [.call "get-property" [.call "get-property"
    [.lambda [] .null, .str "env"], .str "frame"], .str "a"]

def peekStore : Store where
  frames := #[{ bindings := [("get-property", .primitive (.core .getProperty))] }]

def peekRunner : Runner where
  machine := { host := callbackLibrary, limit := fun _ => none }
  bound := 9
  evaluator := 0

def raiseRule : Rule where
  id := "raise"
  condition := .bool true
  action := .call "+" [.call "bump" [], .variable "x"]

def bumpBody : Term :=
  .sequence [.assignment "count" (.call "+" [.variable "count", .int 1]), .variable "limit"]

def bumpStore : Store where
  frames := #[{ bindings := [("+", .primitive (.core .plus)), ("limit", .int 10),
    ("count", .int 0), ("bump", .closure 0 [] bumpBody 0 (some 0))] }]
  closures := 1

def bumpInventory : List Term :=
  let sum := .call "+" [.variable "count", .int 1]
  [.scope 0, .int 1, .int 5, .bool true, .primitive (.core .plus), .int 10, .int 0,
    .closure 0 [] bumpBody 0 (some 0), bumpBody, .evaluator 0, .assignment "count" sum, sum,
    .variable "limit", .variable "count", .variable "+", .variable "bump", .variable "x",
    .call "bump" [], raiseRule.action]

end Rulebook
