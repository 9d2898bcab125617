import Rulebook.Primitive.Registry
import Rulebook.Proofs.Evaluation.Hosts
import Rulebook.Proofs.Scope.Views

/-!
# Stores that can be reached

An application begins without frames.  It fills root frames from registries, extends environments,
binds and rebinds names in them, creates closures and enters them, and lets machines of its choice
evaluate terms and call closures, in any order.  What it passes refers only to frames that there
are, since nobody can refer to others.

A frame is created inside of one that is there, and nothing moves it.  So every store that can be
reached is orderly, and the views of every environment agree: between the operations, and also
before and after each task of a run, when host functions may look at what the run has done so far.
-/

namespace Rulebook

/-! ## References to what is there -/

/-- The frames that are there, whatever is done with them. -/
def Territory.existing : Territory where
  home store frame := frame < store.frames.size
  may _ _ _ := True
  opened store frame := frame < store.frames.size
  runs _ := True

/-- All frames that a term refers to are there. -/
abbrev Store.Covers (store : Store) (term : Term) : Prop :=
  Territory.existing.Holds store term

theorem Store.covers_of_size_le {before after : Store}
    (hsize : before.frames.size ≤ after.frames.size) {term : Term} (hterm : before.Covers term) :
    after.Covers term := by
  refine hterm.mono fun part hpart => ?_
  unfold Territory.Admits at hpart ⊢
  split
  · exact ⟨Nat.lt_of_lt_of_le hpart.1 hsize, fun _ _ => trivial, trivial⟩
  · exact Nat.lt_of_lt_of_le hpart hsize
  · exact Nat.lt_of_lt_of_le hpart hsize
  · exact Nat.lt_of_lt_of_le hpart hsize
  · trivial
  · trivial
  · trivial

theorem Territory.stays_existing : Territory.existing.Stays where
  home hlater hframe := Nat.lt_of_lt_of_le hframe hlater.size
  may _ _ := trivial
  opened hlater hframe := Nat.lt_of_lt_of_le hframe hlater.size

namespace Store

/-- An orderly store in which values refer to frames that there are. -/
structure Sound (store : Store) : Prop extends Orderly store where
  value : ∀ id, ∀ binding ∈ store.bindings id, store.Covers binding.2

namespace Sound

variable {store after : Store}

theorem empty : Sound {} where
  parent id parent hparent := by
    rw [parent?_of_size_le (Nat.zero_le id)] at hparent
    cases hparent
  names id := by
    rw [bindings_of_size_le (Nat.zero_le id)]
    exact List.nodup_nil
  value id binding hbinding := by
    rw [bindings_of_size_le (Nat.zero_le id)] at hbinding
    exact absurd hbinding List.not_mem_nil

theorem of_frames_eq (hsound : store.Sound) (hframes : after.frames = store.frames) :
    after.Sound where
  parent id parent hparent := by
    rw [parent?_congr hframes] at hparent
    exact hsound.parent id parent hparent
  names id := by
    rw [bindings, hframes]
    exact hsound.names id
  value id binding hbinding := by
    rw [bindings, hframes] at hbinding
    exact covers_of_size_le (Nat.le_of_eq (congrArg Array.size hframes.symm))
      (hsound.value id binding hbinding)

theorem define (hsound : store.Sound) {value : Term} (hvalue : store.Covers value)
    (frame : FrameId) (name : String) : (store.define frame name value).Sound where
  parent id parent hparent := by
    rw [parent?_define] at hparent
    exact hsound.parent id parent hparent
  names id := by
    rw [bindings_define]
    split_ifs
    · exact Bindings.nodup_names_insert (hsound.names id) name value
    · exact hsound.names id
  value id := by
    have hguards : Territory.existing.Guards (fun _ => True) store :=
      ⟨fun _ => hsound.value _, fun _ _ => trivial⟩
    exact (hguards.define Territory.stays_existing hvalue frame name).value trivial

theorem push (hsound : store.Sound) {frame : Frame}
    (hparent : ∀ parent ∈ frame.parent, parent < store.frames.size)
    (hnames : frame.bindings.names.Nodup)
    (hvalues : ∀ binding ∈ frame.bindings, store.Covers binding.2) :
    (store.push frame).1.Sound where
  parent id parent hfound := by
    rw [parent?_push] at hfound
    split_ifs at hfound with hid
    · rw [hid]
      exact hparent parent hfound
    · exact hsound.parent id parent hfound
  names id := by
    rw [bindings_push]
    split_ifs
    · exact hnames
    · exact hsound.names id
  value id binding hbinding := by
    rw [bindings_push] at hbinding
    apply covers_of_size_le (Resumes.push store frame).size
    split_ifs at hbinding
    · exact hvalues binding hbinding
    · exact hsound.value id binding hbinding

theorem extend (hsound : store.Sound) {parent : Option FrameId} {pairs : Bindings}
    (hparent : ∀ id ∈ parent, id < store.frames.size)
    (hpairs : ∀ pair ∈ pairs, store.Covers pair.2) : (store.extend parent pairs).1.Sound := by
  apply hsound.push hparent
  · exact Bindings.nodup_names_insertAll_nil pairs
  · exact Bindings.forall_insertAll (fun _ hbinding => absurd hbinding List.not_mem_nil) hpairs

theorem lookup? (hsound : store.Sound) {frame : FrameId} {name : String} {value : Term}
    (hvalue : store.lookup? frame name = some value) : store.Covers value := by
  obtain ⟨other, _, hbound⟩ := exists_of_lookup? hvalue
  exact hsound.value other _ (Bindings.mem_of_value? hbound)

end Sound
end Store

/-! ## Runs -/

/-- To keep to what is there, in stores that come after an origin and are sound. -/
def Discipline.existing (origin : Store) : Discipline where
  toTerritory := .existing
  related first second := first = second ∧ Store.Later origin first ∧ first.Sound
  permits _ _ := true
  allowed store _ _ := Store.Later origin store

/-- Host functions refer to nothing but what there is: they have references to what was there in the
beginning, and get others from their arguments and their callbacks. -/
def HostLibrary.Covered (library : HostLibrary) (origin : Store) : Prop :=
  ∀ store, Store.Later origin store → ∀ name arguments,
    (∀ argument ∈ arguments, store.Covers argument) →
      (Discipline.existing origin).Keeps (library name arguments) store

/-- Honest functions have no references of their own. -/
theorem HostLibrary.Honest.covered {library : HostLibrary} (hhonest : library.Honest)
    (origin : Store) : library.Covered origin := fun _ _ name arguments harguments =>
  Discipline.keeps_of_honest Territory.stays_existing (hhonest name arguments) harguments

namespace Discipline

theorem lawful_existing {origin : Store} {machine : Machine}
    (hhost : machine.host.Covered origin) : (existing origin).Lawful machine where
  framing := by
    apply Store.framing_single
    rintro before after ⟨hlater, hsound⟩ hframes hnext
    exact ⟨hlater.trans hnext, hsound.of_frames_eq hframes⟩
  size := by
    rintro first _ ⟨rfl, _⟩
    rfl
  parent := by
    rintro first _ ⟨rfl, _⟩ id
    rfl
  stays := Territory.stays_existing
  allowed_later hlater hallowed := hallowed.trans hlater
  lookup := by
    rintro first _ frame name ⟨rfl, _, hsound⟩ _ _
    exact ⟨rfl, fun value hvalue => hsound.lookup? hvalue⟩
  find := by
    rintro first _ frame name ⟨rfl, _⟩ _ _
    rfl
  assign := by
    rintro first _ frame name value found ⟨rfl, hlater, hsound⟩ _ _ hvalue _
    exact ⟨rfl, hlater.trans (Store.Resumes.define first found name value).toLater,
      hsound.define hvalue found name⟩
  define := by
    rintro first _ frame name value ⟨rfl, hlater, hsound⟩ _ _ hvalue
    exact ⟨rfl, hlater.trans (Store.Resumes.define first frame name value).toLater,
      hsound.define hvalue frame name⟩
  push := by
    rintro first _ parent bindings ⟨rfl, hlater, hsound⟩ hparent hnames hbindings
    refine ⟨rfl, hlater.trans (Store.Resumes.push first _).toLater, ?_⟩
    apply hsound.push _ hnames hbindings
    rintro _ ⟨⟩
    exact hparent
  home_push _ _ := Store.lt_size_push _ _
  may_push _ _ := trivial
  opened_push _ _ := Store.lt_size_push _ _
  opened_bindings := by
    rintro first _ frame ⟨rfl, _, hsound⟩ _
    exact ⟨rfl, hsound.value frame⟩
  opened_parent hstores hframe hparent :=
    Nat.lt_trans (hstores.2.2.parent _ _ hparent) hframe
  applied hstores _ := hstores.2.1.trans (Store.Resumes.log _ _).toLater
  called hallowed _ := hallowed
  method _ hopened := ⟨hopened, fun _ => trivial⟩
  opens _ _ _ hhome := hhome
  host hallowed harguments := hhost _ hallowed _ _ harguments

theorem related_existing {store : Store} (hsound : store.Sound) :
    (existing store).related store store :=
  ⟨rfl, (Store.Resumes.refl store).toLater, hsound⟩

end Discipline

/-- Runs a task like `run`, but looks at the store before and after each task, and escapes where it
is not good. -/
noncomputable def Machine.runChecked (machine : Machine) (good : Store → Prop) (escape : Run Term) :
    Nat → Task → Run Term
  | 0, _ => throw .unfinished
  | bound + 1, task => fun store =>
    let result := machine.step (machine.runChecked good escape bound) task store
    open Classical in if good store ∧ good result.2 then result else escape store

namespace Discipline.Lawful

variable {D : Discipline} {machine : Machine} {good : Store → Prop} {first second : Store}

/-- Whoever keeps to a discipline in which all stores are good never escapes. -/
theorem agree_runChecked (law : D.Lawful machine) (hpermits : D.permits = fun _ _ => true)
    (hgood : ∀ {first second}, D.related first second → good first) (escape : Run Term)
    (bound : Nat) {task : Task} (hstores : D.related first second) (hfits : D.Fits first task) :
    Run.Agree D.related D.Holds (machine.runChecked good escape bound task)
      (machine.run bound task) first second := by
  induction bound generalizing task first second with
  | zero => exact Run.agree_throw hstores _
  | succ bound ih =>
      have hpermitted : task.isPermitted D.permits = true := hpermits ▸ task.isPermitted_true
      have hstep : Run.Agree D.related D.Holds
          (machine.step (machine.runChecked good escape bound) task)
          (machine.step (machine.run bound) task) first second :=
        law.agree_step ih hstores hfits hpermitted
      have hchecked : machine.runChecked good escape (bound + 1) task first =
          machine.step (machine.runChecked good escape bound) task first :=
        if_pos ⟨hgood hstores, hgood hstep.related⟩
      constructor
      · rw [hchecked]
        exact hstep.outcome
      · rw [hchecked]
        exact hstep.related
      · rw [hchecked]
        exact hstep.resumes
      · rw [hchecked]
        exact hstep.good

end Discipline.Lawful

def Task.given : Task → List Term
  | .eval _ term frame _ => [.scope frame, term]
  | .apply _ callee arguments _ | .call callee arguments => callee :: arguments

theorem Discipline.fits_existing {store : Store} {task : Task}
    (hgiven : ∀ term ∈ task.given, store.Covers term) : (existing store).Fits store task := by
  cases task with
  | eval evaluator term frame depth =>
      have hframe : store.Covers (.scope frame) := hgiven _ List.mem_cons_self
      exact ⟨trivial, hframe.self, hgiven term (by simp [Task.given]), fun _ _ => trivial⟩
  | apply evaluator callee arguments depth =>
      rw [Task.given, List.forall_mem_cons] at hgiven
      exact ⟨trivial, hgiven⟩
  | call callee arguments =>
      rw [Task.given, List.forall_mem_cons] at hgiven
      exact ⟨hgiven.1, hgiven.2, fun _ _ _ => (Store.Resumes.refl store).toLater⟩

namespace Store.Sound

variable {store : Store} {machine : Machine} {task : Task}

theorem run (hsound : store.Sound) (hhost : machine.host.Covered store) (bound : Nat)
    (hgiven : ∀ term ∈ task.given, store.Covers term) :
    (machine.run bound task store).2.Sound := by
  have hagree : (Discipline.existing store).Agrees (Discipline.existing store).Holds
      (machine.run bound task) store store :=
    (Discipline.lawful_existing hhost).agree_run rfl (Discipline.related_existing hsound)
      (Discipline.fits_existing hgiven)
  exact hagree.related.2.2

/-- While a task runs, the views agree before and after every task inside of it. -/
theorem runChecked_eq (hsound : store.Sound) (hhost : machine.host.Covered store)
    (hgiven : ∀ term ∈ task.given, store.Covers term) (escape : Run Term) (bound : Nat) :
    machine.runChecked ViewsAgree escape bound task store = machine.run bound task store := by
  have hagree := (Discipline.lawful_existing hhost).agree_runChecked rfl
    (fun hstores => hstores.2.2.viewsAgree) escape bound (Discipline.related_existing hsound)
    (Discipline.fits_existing hgiven)
  exact Prod.ext hagree.outcome hagree.related.1

end Store.Sound

/-! ## Operations of an application -/

/-- What an application does with environments itself. -/
inductive Operation where
  /-- Fills a root frame from a registry, and binds further names in it. -/
  | bootstrap (registry : Registry) (bindings : Bindings)
  /-- Adds a frame inside of a parent, or a root frame. -/
  | extend (parent : Option FrameId) (names : List String) (values : List Term)
  | define (frame : FrameId) (name : String) (value : Term)
  | assign (frame : FrameId) (name : String) (value : Term)
  /-- Creates a closure. -/
  | close (params : List String) (body : Term) (home : FrameId) (owner : Option EvaluatorId)
  /-- Binds the parameters of a closure. -/
  | enter (params : List String) (home : FrameId) (arguments : List Term)

namespace Operation

def given : Operation → List Term
  | .bootstrap registry bindings => (registry.entries ++ bindings).map Prod.snd
  | .extend parent _ values => parent.toList.map Term.scope ++ values
  | .define frame _ value | .assign frame _ value => [.scope frame, value]
  | .close _ body home _ => [.scope home, body]
  | .enter _ home arguments => .scope home :: arguments

/-- The store that an operation leaves, whether it succeeds or not. -/
def leave (store : Store) : Operation → Store
  | .bootstrap registry bindings => (registry.bootstrap bindings store).2
  | .extend parent names values => (Run.extend parent names values store).2
  | .define frame name value => (Run.define frame name value store).2
  | .assign frame name value => (Run.assign frame name value store).2
  | .close params body home owner => (Machine.close params body home owner store).2
  | .enter params home arguments => (Run.enter params home arguments store).2

end Operation

namespace Store

/-- A store that an application can come to from one without frames. -/
inductive Reachable : Store → Prop
  | empty : Reachable {}
  | operate {store : Store} (hstore : Reachable store) (operation : Operation)
      (hgiven : ∀ term ∈ operation.given, store.Covers term) :
      Reachable (operation.leave store)
  /-- By evaluating a term, or by applying or calling a value, with any machine. -/
  | run {store : Store} (hstore : Reachable store) (machine : Machine)
      (hhost : machine.host.Covered store) (bound : Nat) (task : Task)
      (hgiven : ∀ term ∈ task.given, store.Covers term) :
      Reachable (machine.run bound task store).2
  /-- By anything else, which leaves the frames alone. -/
  | keep {store after : Store} (hstore : Reachable store) (hframes : after.frames = store.frames) :
      Reachable after

namespace Sound

variable {store : Store}

theorem extend_run (hsound : store.Sound) {parent : Option FrameId} {names : List String}
    {values : List Term} (hparent : ∀ id ∈ parent, id < store.frames.size)
    (hvalues : ∀ value ∈ values, store.Covers value) :
    (Run.extend parent names values store).2.Sound := by
  unfold Run.extend
  split_ifs
  · exact hsound
  · exact hsound.extend hparent fun pair hpair => hvalues pair.2 (List.of_mem_zip hpair).2

theorem assign_run (hsound : store.Sound) {value : Term} (hvalue : store.Covers value)
    (frame : FrameId) (name : String) : (Run.assign frame name value store).2.Sound := by
  rw [Run.assign, Run.get_bind_apply, assign?]
  cases store.find? frame name with
  | none => exact hsound
  | some found => exact hsound.define hvalue found name

theorem enter_run (hsound : store.Sound) {home : FrameId} (hhome : home < store.frames.size)
    {arguments : List Term} (harguments : ∀ argument ∈ arguments, store.Covers argument)
    (params : List String) : (Run.enter params home arguments store).2.Sound := by
  unfold Run.enter
  split_ifs
  · exact hsound
  · have hextended : (Run.extend (some home) params arguments store).2.Sound := by
      apply hsound.extend_run _ harguments
      rintro _ ⟨⟩
      exact hhome
    rcases houtcome : Run.extend (some home) params arguments store with ⟨halt | frame, after⟩
    · rw [Run.bind_of_halt houtcome]
      rwa [houtcome] at hextended
    · rw [Run.bind_of_ok houtcome]
      rw [houtcome] at hextended
      exact hextended.of_frames_eq rfl

theorem leave (hsound : store.Sound) {operation : Operation}
    (hgiven : ∀ term ∈ operation.given, store.Covers term) : (operation.leave store).Sound := by
  cases operation with
  | bootstrap registry bindings =>
      have hfilled : (store.extend none (registry.entries ++ bindings)).1.Sound := by
        apply hsound.extend
        · rintro _ ⟨⟩
        · exact fun pair hpair => hgiven pair.2 (List.mem_map_of_mem hpair)
      exact hfilled.of_frames_eq rfl
  | extend parent names values =>
      obtain ⟨hparent, hvalues⟩ := List.forall_mem_append.mp hgiven
      apply hsound.extend_run _ hvalues
      intro id hid
      have hcovered := hparent (.scope id) (by simpa [Operation.given] using hid)
      exact hcovered.self
  | define frame name value => exact hsound.define (hgiven value (by simp [Operation.given])) _ _
  | assign frame name value =>
      exact hsound.assign_run (hgiven value (by simp [Operation.given])) frame name
  | close params body home owner => exact hsound.of_frames_eq rfl
  | enter params home arguments =>
      obtain ⟨hhome, harguments⟩ := List.forall_mem_cons.mp hgiven
      exact hsound.enter_run hhome.self harguments params

end Sound

theorem Reachable.sound {store : Store} (hstore : store.Reachable) : store.Sound := by
  induction hstore with
  | empty => exact .empty
  | operate _ operation hgiven ih => exact ih.leave hgiven
  | run _ machine hhost bound task hgiven ih => exact ih.run hhost bound hgiven
  | keep _ hframes ih => exact ih.of_frames_eq hframes

/-- A root frame with the core operations, a rate and a limit. -/
def quotedOperation : Operation :=
  .bootstrap .core [("rate", .int 1), ("limit", .int 2)]

def quotedStore : Store :=
  quotedOperation.leave {}

/-- Defines a closure that sets the limit to its rate, and applies it. -/
def raiseProgram : Term :=
  .sequence [.definition "raise" (.lambda ["rate"] (.assignment "limit" (.variable "rate"))),
    .application (.variable "raise") [.int 10]]

def raiseMachine : Machine where
  host := callbackLibrary
  limit _ := none

def raisedStore : Store :=
  (raiseMachine.evaluate 6 0 raiseProgram 0 quotedStore).2

theorem covers_of_leaf {store : Store} {term : Term} (hreference : term.isReference = false)
    (hcontents : term.contents.isEmpty = true) : store.Covers term := by
  apply (Territory.existing.hereditary store).built hreference
  rw [List.isEmpty_iff.mp hcontents]
  exact fun _ hpart => absurd hpart List.not_mem_nil

theorem covers_raiseProgram (store : Store) : store.Covers raiseProgram := by
  have hgood := Territory.existing.hereditary store
  have hvariable : ∀ name, store.Covers (.variable name) := fun _ => covers_of_leaf rfl rfl
  have hbody : store.Covers (.assignment "limit" (.variable "rate")) :=
    hgood.built rfl (by simp [Term.contents, hvariable])
  have hlambda : store.Covers (.lambda ["rate"] (.assignment "limit" (.variable "rate"))) :=
    hgood.built rfl (by simp [Term.contents, hbody])
  have hdefinition : store.Covers
      (.definition "raise" (.lambda ["rate"] (.assignment "limit" (.variable "rate")))) :=
    hgood.built rfl (by simp [Term.contents, hlambda])
  have happlication : store.Covers (.application (.variable "raise") [.int 10]) :=
    hgood.built rfl (by simp [Term.contents, hvariable, hgood.scalar])
  exact hgood.built rfl (by simp [raiseProgram, Term.contents, hdefinition, happlication])

end Store
end Rulebook
