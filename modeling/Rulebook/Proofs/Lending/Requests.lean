import Rulebook.Proofs.Scope.Lookup
import Rulebook.Proofs.Rule.Trials
import Rulebook.Session.Basic

/-!
# Requests to lend

A root frame of lending binds the core operations, the accessors and the regions.  A rule is applied
to a customer, a region and an amount in a frame inside of it, which binds these three and sees all
of the rest.
-/

namespace Rulebook

/-- In a table with different keys each entry is found. -/
theorem lookup_of_mem {table : List (String × α)} (hnodup : (table.map Prod.fst).Nodup)
    {key : String} {value : α} (hmem : (key, value) ∈ table) : table.lookup key = some value := by
  induction table with
  | nil => cases hmem
  | cons entry rest ih =>
      rw [List.map_cons, List.nodup_cons] at hnodup
      rw [List.lookup_cons]
      rcases List.mem_cons.mp hmem with rfl | hrest
      · simp
      · have hne : (key == entry.1) = false := by
          rw [beq_eq_false_iff_ne]
          rintro rfl
          exact hnodup.1 (List.mem_map.mpr ⟨_, hrest, rfl⟩)
        rw [hne]
        exact ih hnodup.2 hrest

namespace Lending

def rootBindings : Bindings :=
  Bindings.insertAll [] ((register .core).entries ++ regionBindings)

/-- A frame as `bootstrap` creates it. -/
def IsRoot (store : Store) (root : FrameId) : Prop :=
  store.frames[root]? = some { bindings := rootBindings, parent := none }

theorem isRoot_bootstrap {initial store : Store} {root : FrameId}
    (hroot : bootstrap .core initial = (.ok root, store)) : IsRoot store root := by
  cases hroot
  exact Store.getElem?_push_eq initial _ _ |>.trans (if_pos rfl)

def accessorBindings : Bindings :=
  accessors.map fun accessor => (accessor.1, .primitive (.host accessor.1))

/-- No two operations, accessors or regions have the same name. -/
theorem rootNames_nodup :
    (Registry.core.entries ++ accessorBindings ++ regionBindings).names.Nodup := by
  decide

theorem rootBindings_eq :
    rootBindings = Registry.core.entries ++ accessorBindings ++ regionBindings := by
  have haccessors : (Registry.core.entries ++ accessorBindings).names.Nodup := by
    have hnodup := rootNames_nodup
    rw [Bindings.names, List.map_append] at hnodup
    exact hnodup.of_append_left
  have hregistered : (register .core).entries = Registry.core.entries ++ accessorBindings := by
    rw [register, Registry.withHost, List.map_map]
    exact Bindings.insertAll_of_nodup haccessors
  rw [rootBindings, hregistered]
  exact Bindings.insertAll_of_nodup rootNames_nodup

theorem value?_core (operation : CorePrimitive) :
    rootBindings.value? operation.name = some (.primitive (.core operation)) := by
  rw [rootBindings_eq]
  apply lookup_of_mem rootNames_nodup
  apply List.mem_append_left _ (List.mem_append_left _ _)
  exact List.mem_map_of_mem (by cases operation <;> decide)

theorem value?_accessor {accessor : String × (List Term → Except Fault Term)}
    (haccessor : accessor ∈ accessors) :
    rootBindings.value? accessor.1 = some (.primitive (.host accessor.1)) := by
  rw [rootBindings_eq]
  apply lookup_of_mem rootNames_nodup
  apply List.mem_append_left _ (List.mem_append_right _ _)
  exact List.mem_map_of_mem haccessor

/-- The application supplies each accessor. -/
theorem standardLibrary_accessor {accessor : String × (List Term → Except Fault Term)}
    (haccessor : accessor ∈ accessors) :
    standardLibrary accessor.1 = HostProgram.pure accessor.2 := by
  have hnodup : ((HostProgram.callbacks ++ hostFunctions).map Prod.fst).Nodup := by decide
  have hmem : (accessor.1, HostProgram.pure accessor.2) ∈
      HostProgram.callbacks ++ hostFunctions :=
    List.mem_append_right _ (List.mem_map_of_mem haccessor)
  funext arguments
  rw [standardLibrary, lookup_of_mem hnodup hmem]

theorem IsRoot.lookup? {store : Store} {root : FrameId} (hroot : IsRoot store root)
    {name : String} {value : Term} (hvalue : rootBindings.value? name = some value) :
    store.lookup? root name = some value := by
  have hbindings : store.bindings root = rootBindings := by
    rw [Store.bindings, hroot]
  rw [Store.lookup?_eq_lookupWithin, Store.lookupWithin_of_binds, hbindings, hvalue]
  rw [hbindings, Bindings.binds_eq_isSome_value?, hvalue]
  rfl

theorem IsRoot.push {store : Store} {root : FrameId} (hroot : IsRoot store root) (frame : Frame) :
    IsRoot (store.push frame).1 root := by
  obtain ⟨hsize, -⟩ := Array.getElem?_eq_some_iff.mp hroot
  rw [IsRoot, Store.getElem?_push hsize]
  exact hroot

theorem IsRoot.of_frames_eq {store after : Store} {root : FrameId} (hroot : IsRoot store root)
    (hframes : after.frames = store.frames) : IsRoot after root := by
  rw [IsRoot, hframes]
  exact hroot

/-- What a rule of lending is given: a customer, a region and an amount. -/
def requestBindings (customer region : Term) (amount : Int) : Bindings :=
  [("customer", customer), ("region", region), ("amount", .int amount)]

/-- What can be seen from a frame in which a rule of lending is applied. -/
structure Sees (store : Store) (frame : FrameId) (customer region : Term) (amount : Int) :
    Prop where
  core : ∀ operation : CorePrimitive,
    store.lookup? frame operation.name = some (.primitive (.core operation))
  accessor : ∀ accessor ∈ accessors,
    store.lookup? frame accessor.1 = some (.primitive (.host accessor.1))
  customer : store.lookup? frame "customer" = some customer
  region : store.lookup? frame "region" = some region
  amount : store.lookup? frame "amount" = some (.int amount)

theorem not_binds_of_names {bindings : Bindings}
    (hnames : ∀ name ∈ bindings.names, name ∈ ["customer", "region", "amount", "lo", "hi"]) :
    (∀ operation : CorePrimitive, bindings.binds operation.name = false) ∧
      ∀ accessor ∈ accessors, bindings.binds accessor.1 = false := by
  have hother : ∀ name, name ∉ ["customer", "region", "amount", "lo", "hi"] →
      bindings.binds name = false := by
    intro name hname
    rw [← Bool.not_eq_true, Bindings.binds_iff_mem_names]
    exact mt (hnames name) hname
  constructor
  · intro operation
    apply hother
    cases operation <;> decide
  · intro accessor haccessor
    apply hother
    have hlisted : ∀ name ∈ accessors.map Prod.fst,
        name ∉ ["customer", "region", "amount", "lo", "hi"] := by decide
    exact hlisted _ (List.mem_map_of_mem haccessor)

section Sees

variable {store : Store} {root frame : FrameId} {customer region : Term} {amount : Int}

/-- A rule that is applied with bindings sees them, and the root frame behind them. -/
theorem sees_extend (hroot : IsRoot store root) {bindings : Bindings}
    (hbindings : bindings.Perm (requestBindings customer region amount)) :
    Sees (store.extend (some root) bindings).1 store.frames.size customer region amount := by
  have hnames : bindings.names.Perm ["customer", "region", "amount"] := hbindings.map Prod.fst
  have hnodup : bindings.names.Nodup := hnames.nodup_iff.mpr (by decide)
  have hheld : Bindings.insertAll [] bindings = bindings := Bindings.insertAll_of_nodup hnodup
  have hgiven : ∀ name ∈ bindings.names, name ∈ ["customer", "region", "amount", "lo", "hi"] := by
    intro name hname
    exact List.mem_append_left ["lo", "hi"] (hnames.mem_iff.mp hname)
  have hown : ∀ binding ∈ requestBindings customer region amount,
      bindings.value? binding.1 = some binding.2 := fun binding hbinding =>
    lookup_of_mem hnodup (hbindings.mem_iff.mpr hbinding)
  obtain ⟨hcore, haccessors⟩ := not_binds_of_names hgiven
  rw [Store.extend, hheld]
  constructor
  · intro operation
    exact Store.lookup?_push_size (hroot.lookup? (value?_core operation)) (hcore operation)
  · intro accessor haccessor
    exact Store.lookup?_push_size (hroot.lookup? (value?_accessor haccessor))
      (haccessors accessor haccessor)
  · exact Store.lookup?_push_own (hown ("customer", customer) (by simp [requestBindings]))
  · exact Store.lookup?_push_own (hown ("region", region) (by simp [requestBindings]))
  · exact Store.lookup?_push_own (hown ("amount", .int amount) (by simp [requestBindings]))

theorem Sees.of_frames_eq (hsees : Sees store frame customer region amount) {after : Store}
    (hframes : after.frames = store.frames) : Sees after frame customer region amount := by
  have hlookup := Store.lookup?_of_frames_eq hframes frame
  constructor
  · exact fun operation => (hlookup _).trans (hsees.core operation)
  · exact fun accessor haccessor => (hlookup _).trans (hsees.accessor accessor haccessor)
  · exact (hlookup _).trans hsees.customer
  · exact (hlookup _).trans hsees.region
  · exact (hlookup _).trans hsees.amount

/-- Inside of it a frame for two limits sees the same. -/
theorem Sees.push_limits (hsees : Sees store frame customer region amount) (lo hi : Term) :
    Sees (store.push { bindings := [("lo", lo), ("hi", hi)], parent := some frame }).1
      store.frames.size customer region amount := by
  have hnames : ∀ name ∈ Bindings.names [("lo", lo), ("hi", hi)],
      name ∈ ["customer", "region", "amount", "lo", "hi"] := fun name hname =>
    List.mem_append_right ["customer", "region", "amount"] hname
  obtain ⟨hcore, haccessors⟩ := not_binds_of_names hnames
  constructor
  · exact fun operation => Store.lookup?_push_size (hsees.core operation) (hcore operation)
  · exact fun accessor haccessor =>
      Store.lookup?_push_size (hsees.accessor accessor haccessor) (haccessors accessor haccessor)
  · exact Store.lookup?_push_size hsees.customer rfl
  · exact Store.lookup?_push_size hsees.region rfl
  · exact Store.lookup?_push_size hsees.amount rfl

end Sees

end Lending
end Rulebook
