import Rulebook.Proofs.Evaluation.Territory
import Rulebook.Proofs.Primitive.Renaming

/-!
# Stores that echo each other

A later store holds all frames that there were, unchanged, and others besides.  When the same thing is
done in the store and in the later one, the same frames and closures come to be, with numbers that are
moved by as many as there are others.

So the second store echoes the first: what is known of the first, in frames that were reached from the
beginning or are new, is in the second under the moved number, with moved references.
-/

namespace Rulebook

/-- The numbers from a limit on are moved, those below it are kept. -/
def movedFrom (limit count : Nat) : Nat ↪o Nat :=
  OrderEmbedding.ofStrictMono (fun n => if n < limit then n else n + count) fun m n hlt => by
    dsimp only
    split_ifs <;> omega

theorem movedFrom_of_lt {limit n : Nat} (hn : n < limit) (count : Nat) :
    movedFrom limit count n = n :=
  if_pos hn

theorem movedFrom_of_le {limit n : Nat} (hn : limit ≤ n) (count : Nat) :
    movedFrom limit count n = n + count :=
  if_neg (Nat.not_lt_of_le hn)

/-- The renaming of what is created from a store on, when it is created in a later store instead. -/
def Renaming.from (origin later : Store) : Renaming where
  frame := movedFrom origin.frames.size (later.frames.size - origin.frames.size)
  closure := (movedFrom origin.closures (later.closures - origin.closures)).toEmbedding

def Bindings.rename (ρ : Renaming) (bindings : Bindings) : Bindings :=
  bindings.map (Prod.map id (Term.rename ρ))

def Frame.rename (ρ : Renaming) (frame : Frame) : Frame where
  bindings := frame.bindings.rename ρ
  parent := frame.parent.map ρ.frame

namespace Bindings

variable {ρ : Renaming}

theorem insert_rename (name : String) (value : Term) (bindings : Bindings) :
    insert name (value.rename ρ) (bindings.rename ρ) = (insert name value bindings).rename ρ := by
  induction bindings with
  | nil => rfl
  | cons binding rest ih =>
      obtain ⟨n, v⟩ := binding
      have hcons : rename ρ ((n, v) :: rest) = (n, v.rename ρ) :: rename ρ rest := rfl
      rw [hcons, insert, insert, ih]
      split_ifs <;> rfl

theorem insertAll_rename (bindings pairs : Bindings) :
    insertAll (bindings.rename ρ) (pairs.rename ρ) = (insertAll bindings pairs).rename ρ := by
  induction pairs generalizing bindings with
  | nil => rfl
  | cons pair rest ih =>
      have hinsert := insert_rename (ρ := ρ) pair.1 pair.2 bindings
      change insertAll (insert pair.1 (pair.2.rename ρ) (bindings.rename ρ)) (rename ρ rest) = _
      rw [hinsert, ih]
      rfl

theorem zip_rename (names : List String) (values : List Term) :
    names.zip (values.map (Term.rename ρ)) = rename ρ (names.zip values) := by
  rw [rename, ← List.zip_map, List.map_id]

@[simp] theorem names_rename (bindings : Bindings) : (bindings.rename ρ).names = bindings.names := by
  simp [names, rename, Function.comp_def]

@[simp] theorem binds_rename (bindings : Bindings) (name : String) :
    (bindings.rename ρ).binds name = bindings.binds name := by
  simp [binds, rename, Function.comp_def]

theorem value?_rename (bindings : Bindings) (name : String) :
    (bindings.rename ρ).value? name = (bindings.value? name).map (Term.rename ρ) := by
  induction bindings with
  | nil => rfl
  | cons binding rest ih =>
      have hcons : rename ρ (binding :: rest) = (binding.1, binding.2.rename ρ) :: rename ρ rest :=
        rfl
      rw [hcons, value?, value?, List.lookup_cons, List.lookup_cons]
      cases name == binding.1 with
      | true => rfl
      | false => exact ih

theorem toTerm_rename (bindings : Bindings) :
    (bindings.rename ρ).toTerm = bindings.toTerm.rename ρ := by
  simp [toTerm, rename, Function.comp_def, Prod.map]

end Bindings

/-! ## What is only read -/

def Access.isRead : Access → Bool
  | .read _ => true
  | _ => false

def Term.OnlyReads (term : Term) : Prop :=
  ∀ access ∈ term.accesses, access.isRead = true

instance (term : Term) : Decidable term.OnlyReads :=
  inferInstanceAs (Decidable (∀ access ∈ term.accesses, access.isRead = true))

/-- What can be reached from some terms, and what is new; closures there only read names. -/
def Territory.reading (origin : Store) (roots : List Term) : Territory where
  home store frame := origin.Known roots frame ∧ frame < store.frames.size
  may _ _ access := access.isRead = true
  opened store frame := origin.Known roots frame ∧ frame < store.frames.size
  runs _ := True

theorem Territory.stays_reading {origin : Store} {roots : List Term} :
    (reading origin roots).Stays where
  home hlater hhome := ⟨hhome.1, Nat.lt_of_lt_of_le hhome.2 hlater.size⟩
  may _ hmay := hmay
  opened hlater hopened := ⟨hopened.1, Nat.lt_of_lt_of_le hopened.2 hlater.size⟩

namespace Store

structure Keeps (before after : Store) : Prop where
  size : before.frames.size ≤ after.frames.size
  closures : before.closures ≤ after.closures
  frames : ∀ id < before.frames.size, after.frames[id]? = before.frames[id]?

/-- What can be reached from some terms is there: frames are in the store and inside of earlier
frames, and closures have numbers that have been given out. -/
structure Consistent (store : Store) (roots : List Term) : Prop where
  frames : ∀ frame, store.Reaches roots (.scope frame) → frame < store.frames.size
  parents : ∀ frame parent, store.Reaches roots (.scope frame) →
    store.parent? frame = some parent → parent < frame
  closures : ∀ id params body home owner,
    store.Reaches roots (.closure id params body home owner) → id < store.closures
  methods : ∀ id params home,
    store.Reaches roots (.primitive (.method (.bind id params home))) → id < store.closures

/-- Closures that can be reached from some terms only read names. -/
def Quiet (store : Store) (roots : List Term) : Prop :=
  ∀ id params body home owner, store.Reaches roots (.closure id params body home owner) →
    body.OnlyReads

namespace Keeps

variable {before middle after : Store}

theorem refl (store : Store) : Keeps store store where
  size := Nat.le_refl _
  closures := Nat.le_refl _
  frames _ _ := rfl

theorem trans (hfirst : Keeps before middle) (hlast : Keeps middle after) : Keeps before after where
  size := Nat.le_trans hfirst.size hlast.size
  closures := Nat.le_trans hfirst.closures hlast.closures
  frames id hid := by
    rw [hlast.frames id (Nat.lt_of_lt_of_le hid hfirst.size), hfirst.frames id hid]

theorem of_frames_eq (hframes : after.frames = before.frames)
    (hclosures : before.closures ≤ after.closures) : Keeps before after where
  size := by rw [hframes]
  closures := hclosures
  frames id _ := by rw [hframes]

theorem push (store : Store) (frame : Frame) : Keeps store (store.push frame).1 where
  size := (Resumes.push store frame).size
  closures := Nat.le_refl _
  frames _ hid := getElem?_push hid frame

end Keeps

section Reached

variable {origin later : Store} {roots : List Term}

theorem Consistent.frame_eq (hconsistent : origin.Consistent roots) {frame : FrameId}
    (hframe : origin.Reaches roots (.scope frame)) :
    (Renaming.from origin later).frame frame = frame :=
  movedFrom_of_lt (hconsistent.frames frame hframe) _

theorem Consistent.keptBy (hconsistent : origin.Consistent roots) {term : Term}
    (hterm : origin.Reaches roots term) : Term.KeptBy (.from origin later) term := by
  unfold Term.KeptBy
  split
  · exact ⟨movedFrom_of_lt (hconsistent.closures _ _ _ _ _ hterm) _,
      hconsistent.frame_eq hterm.home⟩
  · exact hconsistent.frame_eq hterm
  · exact hconsistent.frame_eq (hterm.lead List.mem_cons_self)
  · exact ⟨movedFrom_of_lt (hconsistent.methods _ _ _ hterm) _,
      hconsistent.frame_eq (hterm.lead List.mem_cons_self)⟩
  · trivial

/-- What was there before is not renamed. -/
theorem Consistent.rename_eq (hconsistent : origin.Consistent roots) {term : Term}
    (hterm : origin.Reaches roots term) : term.rename (.from origin later) = term :=
  Term.rename_eq_self (hterm.throughout fun _ => hconsistent.keptBy)

theorem Consistent.bindings_rename (hconsistent : origin.Consistent roots) {bindings : Bindings}
    (hbindings : ∀ binding ∈ bindings, origin.Reaches roots binding.2) :
    bindings.rename (.from origin later) = bindings := by
  rw [Bindings.rename, List.map_congr_left (g := fun binding => binding), List.map_id']
  intro binding hbinding
  exact Prod.ext rfl (hconsistent.rename_eq (hbindings binding hbinding))

theorem Consistent.frame_rename (hconsistent : origin.Consistent roots) {id : FrameId}
    (hid : origin.Reaches roots (.scope id)) {frame : Frame}
    (hframe : origin.frames[id]? = some frame) : frame.rename (.from origin later) = frame := by
  have hbindings : origin.bindings id = frame.bindings := by rw [bindings, hframe]
  have hparent : origin.parent? id = frame.parent := by rw [parent?, hframe, Option.bind_some]
  have hvalues : frame.bindings.rename (.from origin later) = frame.bindings :=
    hconsistent.bindings_rename fun binding hbinding => hid.value (hbindings ▸ hbinding)
  have hmoved : frame.parent.map (Renaming.from origin later).frame = frame.parent := by
    cases hsome : frame.parent with
    | none => rfl
    | some parent =>
        exact congrArg some (hconsistent.frame_eq (hid.parent (hparent.trans hsome)))
  rw [Frame.rename, hvalues, hmoved]

theorem Consistent.home (hconsistent : origin.Consistent roots) {frame : FrameId}
    (hframe : origin.Reaches roots (.scope frame)) :
    (Territory.reading origin roots).home origin frame :=
  ⟨Or.inl hframe, hconsistent.frames frame hframe⟩

theorem Consistent.admits (hconsistent : origin.Consistent roots) (hquiet : origin.Quiet roots)
    (term : Term) (hterm : origin.Reaches roots term) :
    (Territory.reading origin roots).Admits origin term := by
  refine Territory.admits_of_reaches ?_ hconsistent.home (fun _ => trivial) term hterm
  intro id params body home owner hclosure
  exact ⟨hconsistent.home hclosure.home, hquiet _ _ _ _ _ hclosure, trivial⟩

theorem Consistent.holds (hconsistent : origin.Consistent roots) (hquiet : origin.Quiet roots)
    {term : Term} (hterm : origin.Reaches roots term) :
    (Territory.reading origin roots).Holds origin term :=
  Territory.holds_of_reaches (hconsistent.admits hquiet) hterm

end Reached

/-- A store echoes another one that began at an origin. -/
structure Echoes (origin : Store) (roots : List Term) (ρ : Renaming) (first second : Store) :
    Prop where
  keeps : origin.Keeps first
  later : Later origin first
  frame : ∀ id, origin.Known roots id →
    second.frames[ρ.frame id]? = first.frames[id]?.map (Frame.rename ρ)
  size : ∀ count : Nat, ρ.frame (first.frames.size + count) = second.frames.size + count
  closures : ∀ count, ρ.closure (first.closures + count) = second.closures + count
  depth : ∀ evaluator, second.callbackDepth evaluator = first.callbackDepth evaluator
  parent : ∀ id parent, origin.Known roots id → first.parent? id = some parent → parent < id
  guards : (Territory.reading origin roots).Guards (origin.Known roots) first

namespace Echoes

variable {origin later first second : Store} {roots : List Term} {ρ : Renaming}

/-- A later store echoes the one that it keeps. -/
theorem start (hkeeps : origin.Keeps later) (hresumes : Resumes origin later)
    (hconsistent : origin.Consistent roots) (hquiet : origin.Quiet roots) :
    Echoes origin roots (.from origin later) origin later where
  keeps := .refl origin
  later := (Resumes.refl origin).toLater
  frame id hid := by
    rcases hid with hreached | hnew
    · have hsize := hconsistent.frames id hreached
      have hframe := Array.getElem?_eq_getElem hsize
      rw [hconsistent.frame_eq hreached, hkeeps.frames id hsize, hframe, Option.map_some,
        hconsistent.frame_rename hreached hframe]
    · have hmoved : (Renaming.from origin later).frame id =
          id + (later.frames.size - origin.frames.size) := movedFrom_of_le hnew _
      rw [hmoved, Array.getElem?_eq_none (by omega), Array.getElem?_eq_none hnew]
      rfl
  size count := by
    have hsum : origin.frames.size + count + (later.frames.size - origin.frames.size) =
        later.frames.size + count := by
      have hsize := hkeeps.size
      omega
    exact (movedFrom_of_le (Nat.le_add_right _ _) _).trans hsum
  closures count := by
    have hsum : origin.closures + count + (later.closures - origin.closures) =
        later.closures + count := by
      have hclosures := hkeeps.closures
      omega
    exact (movedFrom_of_le (Nat.le_add_right _ _) _).trans hsum
  depth := hresumes.depth
  parent id parent hid hparent := by
    rcases hid with hreached | hnew
    · exact hconsistent.parents id parent hreached hparent
    · rw [parent?_of_size_le hnew] at hparent
      cases hparent
  guards := .start (hconsistent.admits hquiet)

/-! ## Changes on both sides -/

theorem of_frames_eq (hechoes : Echoes origin roots ρ first second) (first' second' : Store)
    (hfirst : first'.frames = first.frames) (hsecond : second'.frames = second.frames)
    (hlater : Later first first') (hclosures : first.closures ≤ first'.closures)
    (hnumbers : ∀ count, ρ.closure (first'.closures + count) = second'.closures + count)
    (hdepth : ∀ evaluator, second'.callbackDepth evaluator = first'.callbackDepth evaluator) :
    Echoes origin roots ρ first' second' where
  keeps := hechoes.keeps.trans (.of_frames_eq hfirst hclosures)
  later := hechoes.later.trans hlater
  frame := by
    rw [hfirst, hsecond]
    exact hechoes.frame
  size := by
    rw [hfirst, hsecond]
    exact hechoes.size
  closures := hnumbers
  depth := hdepth
  parent := by
    intro id parent hid hparent
    rw [parent?_congr hfirst] at hparent
    exact hechoes.parent id parent hid hparent
  guards := hechoes.guards.keep Territory.stays_reading hfirst hlater

theorem log (hechoes : Echoes origin roots ρ first second) (event event' : Event) :
    Echoes origin roots ρ (first.log event) (second.log event') :=
  hechoes.of_frames_eq _ _ rfl rfl (Resumes.log first event).toLater (Nat.le_refl _) hechoes.closures
    hechoes.depth

theorem setCallbackDepth (hechoes : Echoes origin roots ρ first second) (evaluator : EvaluatorId)
    (depth : Nat) : Echoes origin roots ρ (first.setCallbackDepth evaluator depth)
      (second.setCallbackDepth evaluator depth) := by
  refine hechoes.of_frames_eq (first.setCallbackDepth evaluator depth)
    (second.setCallbackDepth evaluator depth) rfl rfl
    (.setCallbackDepth first evaluator depth) (Nat.le_refl _) hechoes.closures ?_
  intro other
  rw [callbackDepth_setCallbackDepth, callbackDepth_setCallbackDepth, hechoes.depth]

theorem create (hechoes : Echoes origin roots ρ first second) :
    Echoes origin roots ρ { first with closures := first.closures + 1 }
      { second with closures := second.closures + 1 } := by
  refine hechoes.of_frames_eq { first with closures := first.closures + 1 }
    { second with closures := second.closures + 1 } rfl rfl
    (.of_frames_eq rfl ⟨[], (List.append_nil _).symm⟩) (Nat.le_succ _) ?_ hechoes.depth
  intro count
  simpa only [Nat.add_assoc] using hechoes.closures (1 + count)

theorem push (hechoes : Echoes origin roots ρ first second) {bindings : Bindings}
    (hbindings : ∀ binding ∈ bindings, (Territory.reading origin roots).Holds first binding.2)
    {parent : FrameId} (hparent : (Territory.reading origin roots).home first parent) :
    Echoes origin roots ρ (first.push ⟨bindings, some parent⟩).1
      (second.push ⟨bindings.rename ρ, some (ρ.frame parent)⟩).1 where
  keeps := hechoes.keeps.trans (.push first _)
  later := hechoes.later.trans (Resumes.push first _).toLater
  frame id hid := by
    have hsize : ρ.frame first.frames.size = second.frames.size := hechoes.size 0
    have hsame : ρ.frame id = second.frames.size ↔ id = first.frames.size := by
      rw [← hsize, ρ.frame.injective.eq_iff]
    rw [getElem?_push_eq, getElem?_push_eq, if_congr hsame rfl rfl]
    split_ifs
    · rfl
    · exact hechoes.frame id hid
  size count := by
    have hcount := hechoes.size (1 + count)
    simpa only [Store.push, Array.size_push, Nat.add_assoc] using hcount
  closures := hechoes.closures
  depth := hechoes.depth
  parent id other hid hother := by
    rw [parent?_push] at hother
    split_ifs at hother with hnew
    · cases hother
      rw [hnew]
      exact hparent.2
    · exact hechoes.parent id other hid hother
  guards := hechoes.guards.push Territory.stays_reading hbindings hparent.1

theorem extend (hechoes : Echoes origin roots ρ first second) (pairs : Bindings)
    (hpairs : ∀ pair ∈ pairs, (Territory.reading origin roots).Holds first pair.2)
    {parent : FrameId} (hparent : (Territory.reading origin roots).home first parent) :
    Echoes origin roots ρ (first.extend (some parent) pairs).1
      (second.extend (some (ρ.frame parent)) (pairs.rename ρ)).1 := by
  have hbindings : ∀ binding ∈ Bindings.insertAll [] pairs,
      (Territory.reading origin roots).Holds first binding.2 :=
    Bindings.forall_insertAll (fun _ hbinding => absurd hbinding List.not_mem_nil) hpairs
  have hpush := hechoes.push hbindings hparent
  rwa [← Bindings.insertAll_rename] at hpush

/-! ## What is seen on both sides -/

section Seen

variable {id : FrameId}

theorem bindings_eq (hechoes : Echoes origin roots ρ first second) (hid : origin.Known roots id) :
    second.bindings (ρ.frame id) = (first.bindings id).rename ρ := by
  rw [bindings, bindings, hechoes.frame id hid]
  cases first.frames[id]? <;> rfl

theorem parent?_eq (hechoes : Echoes origin roots ρ first second) (hid : origin.Known roots id) :
    second.parent? (ρ.frame id) = (first.parent? id).map ρ.frame := by
  rw [parent?, parent?, hechoes.frame id hid]
  cases first.frames[id]? <;> rfl

/-- A chain is as long as it is in the other store, although numbers there are larger. -/
theorem chain_eq (hechoes : Echoes origin roots ρ first second) (hid : origin.Known roots id) :
    second.chain (ρ.frame id) = (first.chain id).map ρ.frame := by
  have hwithin : ∀ bound bound' id, origin.Known roots id → id < bound → ρ.frame id < bound' →
      second.chainWithin bound' (ρ.frame id) = (first.chainWithin bound id).map ρ.frame := by
    intro bound
    induction bound with
    | zero => exact fun _ id _ hlt => absurd hlt (Nat.not_lt_zero id)
    | succ bound ih =>
        intro bound' id hid hlt hlt'
        obtain ⟨bound', rfl⟩ := Nat.exists_eq_add_one_of_ne_zero (Nat.ne_of_gt (Nat.zero_lt_of_lt hlt'))
        rw [chainWithin, chainWithin, hechoes.parent?_eq hid]
        cases hparent : first.parent? id with
        | none => rfl
        | some parent =>
            have hbefore := hechoes.parent id parent hid hparent
            have hbefore' : ρ.frame parent < ρ.frame id := ρ.frame.strictMono hbefore
            have hrest := ih bound' parent (hechoes.guards.parent hid hparent)
              (Nat.lt_of_lt_of_le hbefore (Nat.le_of_lt_succ hlt))
              (Nat.lt_of_lt_of_le hbefore' (Nat.le_of_lt_succ hlt'))
            simp only [Option.map_some, hrest, List.map_cons]
  exact hwithin (id + 1) (ρ.frame id + 1) id hid (Nat.lt_succ_self _) (Nat.lt_succ_self _)

theorem depth_eq (hechoes : Echoes origin roots ρ first second) (hid : origin.Known roots id) :
    Store.depth second (ρ.frame id) = first.depth id := by
  rw [Store.depth, Store.depth, hechoes.chain_eq hid, List.length_map]

theorem known_chain (hechoes : Echoes origin roots ρ first second) (hid : origin.Known roots id) :
    ∀ other ∈ first.chain id, origin.Known roots other :=
  forall_mem_chain hid fun _ _ => hechoes.guards.parent

theorem lookup?_eq (hechoes : Echoes origin roots ρ first second) (hid : origin.Known roots id)
    (name : String) :
    second.lookup? (ρ.frame id) name = (first.lookup? id name).map (Term.rename ρ) := by
  have hchain := hechoes.known_chain hid
  rw [lookup?, lookup?, find?, find?, hechoes.chain_eq hid]
  generalize first.chain id = chain at hchain
  induction chain with
  | nil => rfl
  | cons other rest ih =>
      obtain ⟨hother, hrest⟩ := List.forall_mem_cons.mp hchain
      have hbindings := hechoes.bindings_eq hother
      rw [List.map_cons, List.find?_cons, List.find?_cons, hbindings, Bindings.binds_rename]
      cases (first.bindings other).binds name with
      | true =>
          change Bindings.value? (second.bindings (ρ.frame other)) name = _
          rw [hbindings, Bindings.value?_rename]
          rfl
      | false => exact ih hrest

theorem displayScope_eq (hechoes : Echoes origin roots ρ first second)
    (hid : origin.Known roots id) :
    second.displayScope (ρ.frame id) = first.displayScope id := by
  unfold displayScope
  rw [hechoes.bindings_eq hid, Bindings.names_rename, hechoes.depth_eq hid]

theorem display?_eq (hechoes : Echoes origin roots ρ first second) {term : Term}
    (hterm : (Territory.reading origin roots).Holds first term) :
    second.display? (term.rename ρ) = first.display? term := by
  have halike : Term.Throughout
      (Term.ShowsAlike (fun frame => second.displayScope (ρ.frame frame)) first.displayScope)
      term := by
    refine hterm.mono fun part hpart frame hframe => hechoes.displayScope_eq ?_
    cases part with
    | scope scope =>
        cases hframe
        exact hpart.1
    | primitive callable =>
        rcases callable with _ | _ | (⟨method, scope⟩ | _ | _)
        · cases hframe
        · cases hframe
        · cases hframe
          exact hpart.1
        · cases hframe
        · cases hframe
    | _ => cases hframe
  rw [display?, display?, Term.isShown_rename, Term.displayWith_rename,
    Term.displayWith_congr term halike]

end Seen

theorem scopeAttributes_eq (hechoes : Echoes origin roots ρ first second) {frame : FrameId}
    (hframe : origin.Known roots frame) :
    second.scopeAttributes (ρ.frame frame) =
      (first.scopeAttributes frame).map (Prod.map id (Term.rename ρ)) := by
  rw [scopeAttributes, scopeAttributes, hechoes.bindings_eq hframe, hechoes.parent?_eq hframe,
    hechoes.depth_eq hframe, Bindings.toTerm_rename]
  cases first.parent? frame <;>
    simp [ScopeMethod.all, Primitive.rename, Method.rename]

theorem evaluatorAttributes_eq (hechoes : Echoes origin roots ρ first second) (machine : Machine)
    (evaluator : EvaluatorId) :
    machine.evaluatorAttributes second evaluator =
      (machine.evaluatorAttributes first evaluator).map (Prod.map id (Term.rename ρ)) := by
  rw [Machine.evaluatorAttributes, Machine.evaluatorAttributes, hechoes.depth]
  cases machine.limit evaluator <;> simp [Primitive.rename, Method.rename]

theorem opened_eq (hechoes : Echoes origin roots ρ first second) (machine : Machine) {term : Term}
    (hterm : (Territory.reading origin roots).Holds first term) :
    machine.opened second (term.rename ρ) = (machine.opened first term).rename ρ := by
  cases term with
  | scope frame =>
      have hattributes := hechoes.scopeAttributes_eq hterm.self.1
      simp only [Term.rename, Machine.opened, hattributes, Term.renameEntries_eq_map,
        Term.renamedEntries_fieldsOf]
  | evaluator evaluator =>
      have hattributes := hechoes.evaluatorAttributes_eq machine evaluator
      simp only [Term.rename, Machine.opened, hattributes, Term.renameEntries_eq_map,
        Term.renamedEntries_fieldsOf]
  | _ => rfl

end Echoes

end Store

end Rulebook
