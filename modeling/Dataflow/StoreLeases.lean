import Dataflow.StoreWrites

/-!
What the verbs do to the leases. An absent object counts as having none, so a verb
that only creates, rewrites or drops unleased objects leaves every count alone.
Only the lease operations move the counts, by how often they name an object.
-/

namespace Dataflow.Service

open StatefulOutcome ByteRanges KeyedTable List

namespace Store

variable {store : Store} {id : String}

theorem rollback_created_refs (ids : List String) (store : Store) (id : String) :
    (store.rollbackCreated ids).refs id = if id ∈ ids then 0 else store.refs id := by
  have left := rollback_created_object ids store id
  split_ifs at left ⊢
  · exact refs_of_absent left
  · exact refs_congr left

/-! ### lease operations -/

theorem lease_object (change : Nat → Nat) (other : String) :
    (store.lease id change).object other = (store.object other).map fun record =>
      if other = id then { record with leaseRefs := change record.leaseRefs } else record := by
  let counted (record : ObjectRecord) : ObjectRecord :=
    { record with leaseRefs := change record.leaseRefs }
  have keeps : ∀ record, (counted record).id = record.id := fun _ => rfl
  show KeyedTable.lookup ObjectRecord.id other
    (KeyedTable.update ObjectRecord.id id counted store.objects) = _
  by_cases hit : other = id
  · subst hit
    rw [lookup_update_self keeps]
    simp only [↓reduceIte]
    rfl
  · rw [lookup_update_other keeps hit]
    simp only [hit, ↓reduceIte, Option.map_id']
    rfl

theorem acquired_refs (ids : List String) (present : ∀ id ∈ ids, (store.object id).isSome = true)
    (other : String) : (ids.foldl (fun store id => store.lease id (· + 1)) store).refs other =
      store.refs other + ids.count other := by
  induction ids generalizing store with
  | nil => rfl
  | cons id rest ih =>
    have still : ∀ later ∈ rest, ((store.lease id (· + 1)).object later).isSome = true := by
      intro later mem
      rw [lease_object, Option.isSome_map]
      exact present later (mem_cons_of_mem id mem)
    rw [foldl_cons, ih still, count_cons]
    obtain ⟨record, found⟩ := Option.isSome_iff_exists.mp (present id mem_cons_self)
    simp only [refs, lease_object]
    by_cases hit : other = id
    · subst hit
      simp [found]
      omega
    · have miss : ¬id = other := fun same => hit same.symm
      simp [hit, miss]

theorem release_leases_refs (ids : List String) (other : String) :
    (store.releaseLeases ids).refs other = store.refs other - ids.count other := by
  simp only [releaseLeases]
  induction ids generalizing store with
  | nil => rfl
  | cons id rest ih =>
    rw [foldl_cons, ih, count_cons]
    simp only [refs, lease_object]
    by_cases hit : other = id
    · subst hit
      cases found : store.object other with
      | none => simp
      | some record =>
        simp
        omega
    · have miss : ¬id = other := fun same => hit same.symm
      simp [hit, miss]

/-- The record of an object apart from its leases. -/
def bare (store : Store) (id : String) : Option ObjectRecord :=
  (store.object id).map fun record => { record with leaseRefs := 0 }

theorem fold_lease_bare (change : Nat → Nat) (ids : List String) (store : Store) (other : String) :
    (ids.foldl (fun store id => store.lease id change) store).bare other = store.bare other := by
  induction ids generalizing store with
  | nil => rfl
  | cons id rest ih =>
    rw [foldl_cons, ih]
    simp only [bare, lease_object, Option.map_map]
    congr 1
    funext record
    by_cases hit : other = id <;> simp [hit]

/-- These leases were taken, and nothing else changed. -/
structure Acquired (ids : List String) (store next : Store) : Prop where
  refs : ∀ id, next.refs id = store.refs id + ids.count id
  bare : ∀ id, next.bare id = store.bare id

theorem acquire_leases_acquired (store : Store) (ids : List String) :
    Ensures (store.acquireLeases ids) (Acquired ids store)
      fun error after => after = store ∧ error.code ≠ .leased := by
  simp only [acquireLeases]
  split
  · exact ⟨rfl, nofun⟩
  next known =>
  refine ⟨acquired_refs ids fun id mem => ?_, fold_lease_bare _ ids store⟩
  have there := find?_eq_none.mp known id mem
  simpa [Option.isSome_iff_ne_none] using there

end Store

namespace EngineState

variable {Digest : Type} {service next after : EngineState Digest} {machine : Machine}

/-- The objects named by the leases that jobs and sends still have to give back. -/
def holders (service : EngineState Digest) : List String :=
  service.snapshotJobs.flatMap SnapshotJob.leaseIds ++
    service.restoreJobs.flatMap RestoreJob.targets ++ service.sends

def Accounted (service after : EngineState Digest) : Prop :=
  ∃ taken : List String, ∀ id,
    after.store.refs id = service.store.refs id + taken.count id ∧
      after.holders.count id = service.holders.count id + taken.count id

/-- No lease is taken or given back. -/
structure Steady (service after : EngineState Digest) : Prop where
  leases : Store.SameLeases service.store after.store
  holders : after.holders = service.holders

theorem Steady.refl (service : EngineState Digest) : Steady service service :=
  ⟨.refl _, rfl⟩

theorem Kept.steady {footprint : String → Prop} (kept : Kept footprint service after) :
    Steady service after := by
  refine ⟨kept.store.leases, ?_⟩
  simp only [EngineState.holders, kept.snapshotJobs, kept.restoreJobs, kept.sends]

theorem Steady.accounted (steady : Steady service after) : Accounted service after :=
  ⟨[], fun id => ⟨steady.leases id, by rw [steady.holders]; rfl⟩⟩

theorem Accounted.covered (accounted : Accounted service after)
    (covered : ∀ id, service.store.refs id ≤ service.holders.count id) (id : String) :
    after.store.refs id ≤ after.holders.count id := by
  obtain ⟨taken, grown⟩ := accounted
  rw [(grown id).1, (grown id).2]
  exact Nat.add_le_add_right (covered id) _

theorem Accounted.leased (accounted : Accounted service after)
    (leased : service.store.Leased) : after.store.Leased := by
  obtain ⟨taken, grown⟩ := accounted
  obtain ⟨id, held⟩ := leased
  refine ⟨id, ?_⟩
  rw [(grown id).1]
  omega

theorem Steady.stored {store : Store} (same : Store.SameLeases service.store store) :
    Steady service (service.withStore store) :=
  ⟨same, rfl⟩

end EngineState

/-! ### who raises LEASED -/

/-- A LEASED exit ends in a state with this property. -/
def OnLeased {State Value : Type} (fact : State → Prop) (run : Outcome ServiceError State Value) :
    Prop :=
  Ensures run (fun _ => True) fun error after => error.code = .leased → fact after

/-- A check that answers LEASED only where `blame` holds. -/
def Refused {Value : Type} (blame : Prop) (check : Except ServiceError Value) : Prop :=
  ∀ error, check = .error error → error.code = .leased → blame

section Checks

variable {Value Next : Type} {check : Except ServiceError Value} {blame : Prop}

theorem Refused.ok (value : Value) : Refused blame (.ok value) := by
  intro error raised
  cases raised

theorem Refused.bad (message : String) :
    Refused blame (.error (badRequest message) : Except ServiceError Value) := by
  intro error raised leased
  cases raised
  cases leased

theorem Refused.bind {continue_ : Value → Except ServiceError Next} (first : Refused blame check)
    (second : ∀ value, Refused blame (continue_ value)) : Refused blame (check >>= continue_) := by
  cases check with
  | ok value => exact second value
  | error error =>
    intro other raised leased
    cases raised
    exact first error rfl leased

theorem resolve_slice_refused (store : Store) (sizes : List (String × Int)) (spec : SliceSpec) :
    Refused blame (resolveSlice store sizes spec) := by
  simp only [resolveSlice]
  split
  · exact .bad _
  split
  · exact .bad _
  split
  · exact .bad _
  split
  · exact .bad _
  split
  · split
    · exact .bad _
    · exact .ok _
  · exact .ok _

theorem resolve_slices_refused (store : Store) (sizes : List (String × Int))
    (specs : List SliceSpec) : Refused blame (resolveSlicesFrom store sizes specs) := by
  induction specs generalizing sizes with
  | nil => exact .ok _
  | cons spec specs ih =>
    exact (resolve_slice_refused store sizes spec).bind fun entry =>
      (ih _).bind fun entries => .ok _

theorem validate_windows_refused (logicalId : String) (sizes : List (String × Int))
    (windows : List Window) : Refused blame (validateWindows logicalId sizes windows) := by
  induction windows generalizing sizes with
  | nil => exact .ok _
  | cons window windows ih =>
    refine Refused.bind ?_ fun _ => ih _
    simp only [validateWindow]
    split
    · exact .bad _
    split
    · exact .bad _
    split
    · split
      · exact .bad _
      · exact .ok _
    · exact .ok _

theorem validate_remap_refused (sizes : List (String × Int)) (remap : Remap) :
    Refused blame (validateRemapFrom sizes remap) := by
  induction remap generalizing sizes with
  | nil => exact .ok _
  | cons plan rest ih =>
    refine (validate_windows_refused plan.1 sizes plan.2).bind fun sizes => ?_
    split_ifs
    · exact ih sizes
    · exact .bad _

theorem require_all_refused (wants required : List Required) :
    Refused blame (wants.foldlM require required) := by
  induction wants generalizing required with
  | nil => exact .ok _
  | cons want wants ih =>
    refine Refused.bind ?_ ih
    simp only [require]
    split
    · exact .ok _
    · split_ifs
      · exact .bad _
      · exact .ok _

theorem admit_targets_refused (store : Store) (overwrite : Bool) (required : List Required) :
    Refused store.Leased (admitTargets store overwrite required) := by
  induction required with
  | nil => exact .ok ()
  | cons want rest ih =>
    intro error raised leased
    simp only [admitTargets] at raised
    split at raised
    · exact ih error raised leased
    next record found =>
    split_ifs at raised with held
    · exact ⟨_, Store.refs_of_leased found held⟩
    · cases raised
      cases leased
    · cases raised
      cases leased
    · exact ih error raised leased

theorem plan_restore_refused {Digest : Type} (store : Store) (file : SnapshotFile Digest)
    (overwrite : Bool) (remap : Option Remap) :
    Refused store.Leased (planRestore store file overwrite remap) := by
  refine Refused.bind ?checked fun _ => ?placed
  case checked =>
    cases remap with
    | none => exact .ok ()
    | some plan => exact validate_remap_refused [] plan
  case placed =>
    refine Refused.bind ((require_all_refused _ []).bind fun _ => .ok _) fun plan => ?_
    exact (admit_targets_refused store overwrite plan.2).bind fun _ => .ok _

end Checks

end Dataflow.Service
