import Dataflow.StoreLeases

/-!
What the verbs write. An object counts as written when its record changes in
anything but the lease count: every write of the source creates or drops the record
or advances its version. No verb writes a leased object, and a verb on one object
writes no other.
-/

namespace Dataflow.Service

open StatefulOutcome ByteRanges List

namespace Store

/-- Only unleased objects of the footprint were written. -/
def Wrote (footprint : String → Prop) (store next : Store) : Prop :=
  ∀ id, next.bare id = store.bare id ∨ (footprint id ∧ store.refs id = 0)

variable {footprint : String → Prop} {store next last : Store} {id : String}

theorem Wrote.refl (store : Store) : Wrote footprint store store := fun _ => .inl rfl

theorem bare_congr (same : next.object id = store.object id) : next.bare id = store.bare id := by
  simp only [bare, same]

theorem Rewrote.wrote (rewrote : Rewrote footprint store next) : Wrote footprint store next :=
  fun id => (rewrote id).imp bare_congr fun ⟨listed, free, _⟩ => ⟨listed, free⟩

end Store

/-! ### verbs that take leases -/

section Leases

variable {Digest Value : Type} {store : Store} {overwrite : Bool} {required : List Required}

theorem admit_targets_free
    (admitted : admitTargets store overwrite required = .ok ()) :
    ∀ want ∈ required, store.refs want.target = 0 := by
  induction required with
  | nil => exact fun _ mem => absurd mem not_mem_nil
  | cons first rest ih =>
    simp only [admitTargets] at admitted
    intro want mem
    split at admitted
    · next absent =>
      rcases mem_cons.mp mem with here | later
      · exact here ▸ Store.refs_of_absent absent
      · exact ih admitted want later
    next record found =>
    split_ifs at admitted with leased
    rcases mem_cons.mp mem with here | later
    · exact here ▸ Store.refs_of_unleased found leased
    · exact ih admitted want later

theorem plan_restore_admits {file : SnapshotFile Digest}
    {remap : Option Remap} {placements : List Placement}
    (planned : planRestore store file overwrite remap = .ok (placements, required)) :
    admitTargets store overwrite required = .ok () := by
  simp only [planRestore, bind, Except.bind] at planned
  split at planned
  · cases planned
  split at planned
  · cases planned
  split at planned
  · cases planned
  · next admitted =>
    cases planned
    exact admitted

/-- These leases were taken, and none of a written object was there before. -/
structure Took (footprint : String → Prop) (ids : List String) (store next : Store) : Prop where
  refs : ∀ id, next.refs id = store.refs id + ids.count id
  wrote : Store.Wrote footprint store next
  free : ∀ id ∈ ids, footprint id → store.refs id = 0

/-- An error takes no lease, and LEASED comes before any change. -/
def Leases (footprint : String → Prop) (ids : Value → List String) (store : Store)
    (run : StoreRun (Value × Store)) : Prop :=
  Ensures run (fun made => Took footprint (ids made.1) store made.2) fun error after =>
    Store.SameLeases store after ∧ Store.Wrote footprint store after ∧
      (error.code = .leased → after = store ∧ store.Leased)

theorem snapshot_leases (store : Store) (slices : Option (List SliceSpec)) :
    Leases (fun _ => False) SnapshotJob.leaseIds store
      (snapshot store slices : StoreRun (SnapshotJob Digest × Store)) := by
  simp only [Leases, snapshot]
  split_ifs
  · exact ⟨.refl store, .refl store, nofun⟩
  · exact ⟨.refl store, .refl store, nofun⟩
  split
  · next refused =>
    exact ⟨.refl store, .refl store,
      fun leased => (resolve_slices_refused store [] _ _ refused leased : False).elim⟩
  refine ensures_bind (ensures_mono (store.acquire_leases_acquired _) (fun _ taken => taken) ?_)
    fun _ taken => ⟨taken.refs, fun id => .inl (taken.bare id), nofun⟩
  rintro error _ ⟨rfl, other⟩
  exact ⟨.refl _, .refl _, fun leased => absurd leased other⟩

theorem restore_leases (store : Store) (file : Option (SnapshotFile Digest))
    (request : RestoreRequest) :
    Leases (fun _ => True) RestoreJob.targets store (restoreSnapshot store file request) := by
  cases file with
  | none => exact ⟨.refl store, .refl store, nofun⟩
  | some file =>
    simp only [Leases, restoreSnapshot, admitRestore]
    split_ifs
    · exact ⟨.refl store, .refl store, nofun⟩
    split
    · next refused =>
      exact ⟨.refl store, .refl store,
        fun leased => ⟨rfl, plan_restore_refused store file _ _ _ refused leased⟩⟩
    next required planned =>
    have free := admit_targets_free (plan_restore_admits planned)
    refine ensures_bind (ensures_mono (create_targets_writes required [] store)
      (fun _ done => done)
      fun _ _ done => ⟨done.1.leases, done.1.wrote, fun leased => absurd leased done.2⟩) ?_
    rintro ⟨created, filled⟩ ⟨wrote, fresh⟩
    have taken := filled.acquire_leases_acquired
      ((required.map Required.target).insertionSort (· ≤ ·))
    split
    · -- the rollback answers an unknown object, never a lease
      next failed raised =>
      rw [raised] at taken
      obtain ⟨rfl, other⟩ := taken
      have undone := wrote.trans (Store.rollback_created_rewrote created fun id mem => by
        rcases fresh id mem with none_yet | unheld
        · cases none_yet
        · exact (wrote.leases id).trans unheld)
      exact ⟨undone.leases, undone.wrote, fun leased => absurd leased other⟩
    · next leased acquired =>
      rw [acquired] at taken
      refine ⟨fun id => ?_, fun id => (wrote.wrote id).imp_left (taken.bare id).trans, ?_⟩
      · rw [← wrote.leases id]
        exact taken.refs id
      · intro id mem _
        obtain ⟨want, listed, rfl⟩ := mem_map.mp ((mem_insertionSort (· ≤ ·)).mp mem)
        exact free want listed

end Leases

/-! ### handlers -/

namespace EngineState

variable {Digest : Type} {footprint : String → Prop} {service next after : EngineState Digest}
  {machine : Machine}

def restoring (service : EngineState Digest) : List String :=
  service.restoreJobs.flatMap RestoreJob.targets

/-- The step wrote the object, or took it as the target of a restore. -/
def Touched (service after : EngineState Digest) (id : String) : Prop :=
  after.store.bare id ≠ service.store.bare id ∨
    after.restoring.count id ≠ service.restoring.count id

/-- Only unleased objects of the footprint were touched, by at most one new restore. -/
structure Confined (footprint : String → Prop) (service after : EngineState Digest) : Prop where
  wrote : Store.Wrote footprint service.store after.store
  jobs : after.restoreJobs = service.restoreJobs ∨
    ∃ job, after.restoreJobs = service.restoreJobs ++ [job] ∧
      ∀ id ∈ job.targets, footprint id ∧ service.store.refs id = 0

theorem Confined.of_wrote (wrote : Store.Wrote footprint service.store after.store)
    (jobs : after.restoreJobs = service.restoreJobs) : Confined footprint service after :=
  ⟨wrote, .inl jobs⟩

theorem Confined.touched (confined : Confined footprint service after) {id : String}
    (touched : Touched service after id) : footprint id ∧ service.store.refs id = 0 := by
  rcases touched with written | taken
  · exact (confined.wrote id).resolve_left written
  rcases confined.jobs with same | ⟨job, added, free⟩
  · simp only [restoring, same, ne_eq, not_true_eq_false] at taken
  apply free id
  by_contra unlisted
  apply taken
  simp only [restoring, added, flatMap_append, flatMap_singleton,
    count_append, count_eq_zero_of_not_mem unlisted, Nat.add_zero]

/-! ### every verb -/

theorem send_object_effects (service : EngineState Digest) (id peer : String)
    (releaseAfter linked : Bool) :
    Ensures (service.sendObject id peer releaseAfter linked)
      (fun after => Accounted service after ∧ Confined (fun _ => False) service after)
      fun error after => Accounted service after ∧ Confined (fun _ => False) service after ∧
        error.code ≠ .leased := by
  have unchanged : Accounted service service ∧ Confined (fun _ => False) service service :=
    ⟨(Steady.refl service).accounted, .of_wrote (.refl _) rfl⟩
  simp only [sendObject]
  split
  · exact ⟨unchanged.1, unchanged.2, fun other => by cases other⟩
  split
  · exact ⟨unchanged.1, unchanged.2, fun other => by cases other⟩
  have taken := service.store.acquire_leases_acquired [id]
  cases acquired : service.store.acquireLeases [id] with
  | error pair =>
    rw [acquired] at taken
    obtain ⟨same, other⟩ := taken
    have back : service.withStore pair.2 = service := congrArg service.withStore same
    exact ⟨back.symm ▸ unchanged.1, back.symm ▸ unchanged.2, other⟩
  | ok leased =>
    rw [acquired] at taken
    have grown := taken.refs
    have kept := taken.bare
    cases linked with
    | true =>
      refine ⟨⟨[id], fun other => ⟨grown other, ?_⟩⟩, .of_wrote (fun other => .inl (kept other)) rfl⟩
      simp only [holders, withStore, count_append]
      omega
    | false =>
      -- a send that cannot start gives back the lease it took
      refine ⟨(Steady.stored fun other => ?_).accounted, .of_wrote (fun other => .inl ?_) rfl,
        fun other => by cases other⟩
      · rw [Store.release_leases_refs, grown other, Nat.add_sub_cancel]
      · exact (Store.fold_lease_bare _ [id] leased other).trans (kept other)

theorem lift_leases {Value : Type} {takes : Bool} {ids : Value → List String} {run : StoreRun (Value × Store)}
    (leases : Leases footprint ids service.store run) :
    Ensures (service.liftStore run)
      (fun made => Took footprint (ids made.1) service.store made.2)
      fun error after => Accounted service after ∧ Confined footprint service after ∧
        (error.code = .leased → after.store.Leased ∧ (takes = true → after = service)) := by
  cases run with
  | ok made => exact leases
  | error pair =>
    obtain ⟨same, wrote, first⟩ := leases
    refine ⟨(Steady.stored same).accounted, .of_wrote wrote rfl, fun leased => ?_⟩
    obtain ⟨back, held⟩ := first leased
    exact ⟨back.symm ▸ held, fun _ => congrArg service.withStore back⟩

/-- Leases are accounted for and only unleased objects touched, on both exits. LEASED is
raised only where an object is leased, and before any change by the verbs that take leases. -/
theorem handle_effects (machine : Machine) (service : EngineState Digest) (call : Call Digest) :
    Ensures (service.handle machine call)
      (fun after => Accounted service after ∧ Confined call.reach.Holds service after)
      fun error after => Accounted service after ∧ Confined call.reach.Holds service after ∧
        (error.code = .leased →
          after.store.Leased ∧ (call.takesLeases = true → after = service)) := by
  cases call with
  | snapshot slices =>
    refine ensures_bind (lift_leases (snapshot_leases service.store slices)) fun made took => ?_
    refine ⟨⟨made.1.leaseIds, fun id => ⟨took.refs id, ?_⟩⟩, .of_wrote took.wrote rfl⟩
    simp only [holders, withStore, flatMap_append, flatMap_singleton, count_append]
    omega
  | restoreSnapshot file request =>
    refine ensures_bind (lift_leases (restore_leases service.store file request))
      fun made took => ?_
    refine ⟨⟨made.1.targets, fun id => ⟨took.refs id, ?_⟩⟩, took.wrote,
      .inr ⟨made.1, rfl, fun id mem => ⟨trivial, took.free id mem trivial⟩⟩⟩
    simp only [holders, withStore, flatMap_append, flatMap_singleton, count_append]
    omega
  | sendObject id peer releaseAfter linked =>
    exact ensures_mono (send_object_effects service id peer releaseAfter linked)
      (fun _ done => done)
      fun _ _ done => ⟨done.1, done.2.1, fun leased => absurd leased done.2.2⟩
  | _ =>
    refine ensures_mono (handle_keeps machine service rfl)
      (fun _ kept => ⟨kept.steady.accounted, .of_wrote kept.store.wrote kept.restoreJobs⟩)
      fun _ _ kept => ⟨kept.1.steady.accounted, .of_wrote kept.1.store.wrote kept.1.restoreJobs,
        fun leased => ⟨(kept.2 leased).imp fun _ held => held.2, fun takes => by cases takes⟩⟩

theorem handle_only_leased (machine : Machine) (service : EngineState Digest) {call : Call Digest}
    {id : String} (aimed : call.reach = .only id) :
    OnLeased (fun after => 0 < after.store.refs id) (service.handle machine call) := by
  refine ensures_mono (handle_looks machine service aimed) (fun _ _ => trivial) ?_
  rintro error _ ⟨rfl, held⟩ leased
  exact held leased

end EngineState

end Dataflow.Service
