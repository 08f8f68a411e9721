import Dataflow.StoreLeases

/-!
A restore that fails before it places a byte. Its admission creates the absent targets
one by one, and a put that raises leaves the ones before it in the store. From then on
every failure removes what was created: rolling back gives each extent to the free
list again, and the leases that were taken are given back.
-/

namespace Dataflow.Service

open StatefulOutcome ByteRanges KeyedTable List

/-- Catalog, bytes and free space are as before; only the high-water mark may differ. -/
structure Undone (before after : Store) : Prop where
  objects : after.objects = before.objects
  slab : after.slab = before.slab
  capacity : after.allocator.capacity = before.allocator.capacity
  used : after.allocator.usedBytes = before.allocator.usedBytes
  free : ∀ byte, cover after.allocator.free byte = cover before.allocator.free byte

theorem Undone.refl (store : Store) : Undone store store := ⟨rfl, rfl, rfl, rfl, fun _ => rfl⟩

/-! ### creating targets -/

def extentBytes (records : List ObjectRecord) : Int :=
  (records.map fun record => record.extent.size).sum

/-- The store has these records more, at the end of the catalog and out of its free space. -/
structure Grown (before after : Store) (records : List ObjectRecord) : Prop where
  objects : after.objects = before.objects ++ records
  slab : after.slab = before.slab
  capacity : after.allocator.capacity = before.allocator.capacity
  used : after.allocator.usedBytes = before.allocator.usedBytes + extentBytes records
  free : ∀ byte, cover before.allocator.free byte =
    cover (records.map ObjectRecord.extent) byte + cover after.allocator.free byte
  sized : Sized after.allocator.free
  extents : ∀ record ∈ records, 0 ≤ record.extent.size
  fresh : ∀ record ∈ records, before.object record.id = none
  distinct : (records.map ObjectRecord.id).Nodup

variable {store next last : Store} {records more : List ObjectRecord}

theorem Grown.nil (sized : Sized store.allocator.free) : Grown store store [] where
  objects := (append_nil _).symm
  slab := rfl
  capacity := rfl
  used := (Int.add_zero _).symm
  free := fun _ => (Nat.zero_add _).symm
  sized := sized
  extents := forall_mem_nil _
  fresh := forall_mem_nil _
  distinct := nodup_nil

theorem Grown.object (grown : Grown store next records) (id : String) :
    next.object id = (store.object id).or (records.find? fun record => record.id = id) := by
  simp only [Store.object, grown.objects, find?_append]

theorem Grown.trans (first : Grown store next records) (second : Grown next last more) :
    Grown store last (records ++ more) where
  objects := by rw [second.objects, first.objects, append_assoc]
  slab := second.slab.trans first.slab
  capacity := second.capacity.trans first.capacity
  used := by
    rw [second.used, first.used]
    simp only [extentBytes, map_append, sum_append]
    omega
  free := fun byte => by
    rw [first.free byte, second.free byte, map_append, cover_append]
    omega
  sized := second.sized
  extents := by
    exact forall_mem_append.mpr ⟨first.extents, second.extents⟩
  fresh := by
    intro record mem
    rcases mem_append.mp mem with early | late
    · exact first.fresh record early
    · have absent := second.fresh record late
      rw [first.object, Option.or_eq_none_iff] at absent
      exact absent.1
  distinct := by
    rw [map_append]
    apply nodup_append.mpr
    refine ⟨first.distinct, second.distinct, ?_⟩
    intro id early other late same
    obtain ⟨new, listed, named⟩ := mem_map.mp late
    obtain ⟨old, there, called⟩ := mem_map.mp early
    have absent := second.fresh new listed
    rw [first.object, Option.or_eq_none_iff] at absent
    have missed := find?_eq_none.mp absent.2 old there
    exact missed (decide_eq_true (called.trans (same.trans named.symm)))

theorem alloc_used {allocator after : SlabAllocator} {size : Nat} {got : Extent}
    (sized : Sized allocator.free) (found : allocator.alloc size = some (got, after)) :
    after.capacity = allocator.capacity ∧ after.usedBytes = allocator.usedBytes + got.size ∧
      0 ≤ got.size := by
  obtain ⟨⟨taken, left⟩, there, same⟩ := Option.map_eq_some_iff.mp found
  cases same
  have need := (Int.natCast_nonneg size).trans (le_aligned_size size)
  obtain ⟨exactly, _, _⟩ := take_first_cover 0 need sized there
  exact ⟨rfl, by rw [exactly], exactly ▸ need⟩

theorem put_absent {id : String} {size : Nat} {got : Extent} {allocator : SlabAllocator}
    (info : Info) (absent : store.object id = none)
    (room : store.allocator.alloc size = some (got, allocator)) :
    store.put id none (some size) info = .ok { store with
      allocator := allocator
      objects := store.objects ++
        [{ id := id, sizeBytes := size, info := info, extent := got, version := 1 }] } := by
  have unlisted := absent
  simp only [Store.put, Option.map_none, Option.none_or, absent, Store.carve, room,
    Option.map_some, Store.fill, Store.update]
  have kept : update ObjectRecord.id id (fun record =>
      ({ record with
        info := if info = [] then record.info else info
        version := record.version + 1 } : ObjectRecord)) store.objects = store.objects :=
    update_absent unlisted
  simp only [update, map_append, map_cons, map_nil] at kept ⊢
  rw [kept]
  simp

theorem put_absent_grown {id : String} (size : Nat) (info : Info)
    (sized : Sized store.allocator.free) (absent : store.object id = none) :
    match store.allocator.alloc size with
    | none => store.put id none (some size) info = .error (.capacity store.allocator size, store)
    | some (_, allocator) => ∃ record after,
        store.put id none (some size) info = .ok after ∧ after.allocator = allocator ∧
          record.id = id ∧ Grown store after [record] := by
  cases room : store.allocator.alloc size with
  | none =>
    simp only [Store.put, Option.map_none, Option.none_or, absent, Store.carve, room]
  | some pair =>
    obtain ⟨got, allocator⟩ := pair
    obtain ⟨capacity, used, nonneg⟩ := alloc_used sized room
    let record : ObjectRecord :=
      { id := id, sizeBytes := size, info := info, extent := got, version := 1 }
    refine ⟨record, _, put_absent info absent room, rfl, rfl, ?_⟩
    constructor
    · rfl
    · rfl
    · exact capacity
    · rw [used]
      simp [extentBytes, record]
    · intro byte
      exact (alloc_cover byte (Int.natCast_nonneg size) sized room).2.2
    · exact (alloc_cover 0 (Int.natCast_nonneg size) sized room).2.1
    · intro other mem
      rw [mem_singleton.mp mem]
      exact nonneg
    · intro other mem
      rw [mem_singleton.mp mem]
      exact absent
    · exact nodup_singleton id

/-- How many of the sizes can be allocated one after the other. -/
def SlabAllocator.fitting (allocator : SlabAllocator) : List Nat → Nat
  | [] => 0
  | size :: rest =>
    match allocator.alloc size with
    | none => 0
    | some (_, next) => next.fitting rest + 1

/-- The sizes of the targets that have to be created. -/
def absentSizes (store : Store) (required : List Required) : List Nat :=
  (required.filter fun want => (store.object want.target).isNone).map fun want => want.size.toNat

theorem absent_sizes_grown (required : List Required)
    (same : ∀ want ∈ required, (next.object want.target).isNone = (store.object want.target).isNone) :
    absentSizes next required = absentSizes store required := by
  simp only [absentSizes]
  rw [filter_congr same]

theorem create_targets_grown (required : List Required) (created : List String) (store : Store)
    (sized : Sized store.allocator.free) (distinct : (required.map Required.target).Nodup) :
    Ensures (createTargets required created store)
      (fun made => ∃ records, Grown store made.2 records ∧
        made.1 = created ++ records.map ObjectRecord.id ∧
        store.allocator.fitting (absentSizes store required) = (absentSizes store required).length)
      fun error after => error.code = .capacity ∧ ∃ records, Grown store after records ∧
        records.length = store.allocator.fitting (absentSizes store required) ∧
        records.length < (absentSizes store required).length := by
  induction required generalizing created store with
  | nil => exact ⟨[], .nil sized, (append_nil _).symm, rfl⟩
  | cons want rest ih =>
    obtain ⟨unlisted, distinct⟩ := nodup_cons.mp distinct
    cases found : store.object want.target with
    | some record =>
      have skipped : absentSizes store (want :: rest) = absentSizes store rest := by
        simp only [absentSizes, filter_cons, found, Option.isNone_some,
          Bool.false_eq_true, ↓reduceIte]
      simp only [createTargets, found]
      rw [skipped]
      exact ih created store sized distinct
    | none =>
      have counted : absentSizes store (want :: rest) =
          want.size.toNat :: absentSizes store rest := by
        simp only [absentSizes, filter_cons, found, Option.isNone_none, ↓reduceIte, map_cons]
      have put := put_absent_grown want.size.toNat (want.info.getD []) sized found
      simp only [createTargets, found]
      rw [counted]
      cases room : store.allocator.alloc (want.size.toNat : Nat) with
      | none =>
        rw [room] at put
        rw [put]
        refine ⟨rfl, [], .nil sized, ?_, Nat.succ_pos _⟩
        simp only [SlabAllocator.fitting, room, length_nil]
      | some pair =>
        rw [room] at put
        obtain ⟨record, after, made, allocator, named, grown⟩ := put
        rw [made, ok_bind]
        -- the later targets have other names, so they are absent or present as before
        have same : absentSizes after rest = absentSizes store rest := by
          apply absent_sizes_grown
          intro other mem
          have apart : ¬record.id = other.target := by
            intro clash
            apply unlisted
            rw [← named, clash]
            exact mem_map_of_mem mem
          rw [grown.object, find?_singleton, if_neg (by simpa using apart), Option.or_none]
        have rest_made := ih (created ++ [want.target]) after grown.sized distinct
        have step : store.allocator.fitting (want.size.toNat :: absentSizes store rest) =
            after.allocator.fitting (absentSizes store rest) + 1 := by
          simp only [SlabAllocator.fitting, room, allocator]
        rw [step]
        rw [same] at rest_made
        apply ensures_mono rest_made
        · rintro made ⟨records, later, ids, all⟩
          refine ⟨record :: records, grown.trans later, ?_, ?_⟩
          · rw [ids, append_assoc, map_cons, named]
            rfl
          · rw [all, length_cons]
        · rintro error state ⟨code, records, later, count, fewer⟩
          refine ⟨code, record :: records, grown.trans later, ?_, ?_⟩
          · rw [length_cons, count]
          · exact Nat.succ_lt_succ fewer

/-! ### rolling back -/

theorem rollback_records (base records : List ObjectRecord) (store : Store)
    (listed : store.objects = base ++ records) (sized : Sized store.allocator.free)
    (extents : ∀ record ∈ records, 0 ≤ record.extent.size)
    (fresh : ∀ record ∈ records, ∀ old ∈ base, old.id ≠ record.id)
    (distinct : (records.map ObjectRecord.id).Nodup) :
    (store.rollbackCreated (records.map ObjectRecord.id)).objects = base ∧
      (store.rollbackCreated (records.map ObjectRecord.id)).slab = store.slab ∧
      (store.rollbackCreated (records.map ObjectRecord.id)).allocator.capacity =
        store.allocator.capacity ∧
      (store.rollbackCreated (records.map ObjectRecord.id)).allocator.usedBytes =
        store.allocator.usedBytes - extentBytes records ∧
      ∀ byte, cover (store.rollbackCreated (records.map ObjectRecord.id)).allocator.free byte =
        cover (records.map ObjectRecord.extent) byte + cover store.allocator.free byte := by
  induction records generalizing store with
  | nil =>
    refine ⟨by rw [← append_nil base, ← listed]; rfl, rfl, rfl, ?_, ?_⟩
    · simp [Store.rollbackCreated, extentBytes]
    · intro byte
      simp [Store.rollbackCreated]
  | cons record rest ih =>
    obtain ⟨apart, distinct⟩ := nodup_cons.mp distinct
    have unlisted : base.find? (fun old => old.id = record.id) = none := by
      apply find?_eq_none.mpr
      intro old mem
      simpa using fresh record mem_cons_self old mem
    have found : store.object record.id = some record := by
      rw [Store.object, listed, find?_append, unlisted, Option.none_or,
        find?_cons_of_pos (by simp)]
    have removed : (store.dropRecord record).objects = base ++ rest := by
      show remove ObjectRecord.id record.id store.objects = _
      rw [listed, remove, filter_append]
      congr 1
      · apply filter_eq_self.mpr
        intro old mem
        simpa using fresh record mem_cons_self old mem
      rw [filter_cons_of_neg (by simp)]
      apply filter_eq_self.mpr
      intro other mem
      have differs : other.id ≠ record.id := fun same =>
        apart (same ▸ mem_map_of_mem mem)
      simpa using differs
    have given (byte : Int) := release_cover byte sized (extents record mem_cons_self)
    obtain ⟨objects, slab, capacity, used, free⟩ := ih (store.dropRecord record) removed
      (given 0).1 (forall_mem_cons.mp extents).2
      (forall_mem_cons.mp fresh).2 distinct
    have stepped : store.rollbackCreated ((record :: rest).map ObjectRecord.id) =
        (store.dropRecord record).rollbackCreated (rest.map ObjectRecord.id) := by
      simp only [Store.rollbackCreated, map_cons, foldl_cons, found]
    rw [stepped]
    refine ⟨objects, slab, capacity, ?_, ?_⟩
    · rw [used]
      show store.allocator.usedBytes - record.extent.size - extentBytes rest = _
      simp only [extentBytes, map_cons, sum_cons]
      omega
    intro byte
    rw [free byte]
    show _ + cover (store.allocator.release record.extent).free byte = _
    rw [(given byte).2, map_cons, cover_cons_single record.extent (rest.map ObjectRecord.extent)]
    omega

theorem fold_lease_objects (ids : List String) (store : Store) :
    (ids.foldl (fun store id => store.lease id (· + 1)) store).objects =
        store.objects.map (fun record =>
          { record with leaseRefs := record.leaseRefs + ids.count record.id }) ∧
      (ids.foldl (fun store id => store.lease id (· + 1)) store).slab = store.slab ∧
      (ids.foldl (fun store id => store.lease id (· + 1)) store).allocator = store.allocator := by
  induction ids generalizing store with
  | nil => exact ⟨by simp, rfl, rfl⟩
  | cons id rest ih =>
    obtain ⟨objects, slab, allocator⟩ := ih (store.lease id (· + 1))
    refine ⟨?_, slab, allocator⟩
    rw [foldl_cons, objects, Store.lease, map_map]
    apply map_congr_left
    intro record _
    by_cases hit : record.id = id
    · simp [hit]
      omega
    · have miss : ¬id = record.id := fun same => hit same.symm
      simp [hit, miss]

theorem release_leases_objects (ids : List String) (store : Store) :
    (store.releaseLeases ids).objects = store.objects.map (fun record =>
        { record with leaseRefs := record.leaseRefs - ids.count record.id }) ∧
      (store.releaseLeases ids).slab = store.slab ∧
      (store.releaseLeases ids).allocator = store.allocator := by
  simp only [Store.releaseLeases]
  induction ids generalizing store with
  | nil => exact ⟨by simp, rfl, rfl⟩
  | cons id rest ih =>
    obtain ⟨objects, slab, allocator⟩ := ih (store.lease id (· - 1))
    refine ⟨?_, slab, allocator⟩
    rw [foldl_cons, objects, Store.lease, map_map]
    apply map_congr_left
    intro record _
    by_cases hit : record.id = id
    · simp [hit]
      omega
    · have miss : ¬id = record.id := fun same => hit same.symm
      simp [hit, miss]

theorem Grown.rollback (grown : Grown store next records) :
    Undone store (next.rollbackCreated (records.map ObjectRecord.id)) := by
  have fresh : ∀ record ∈ records, ∀ old ∈ store.objects, old.id ≠ record.id := by
    intro record mem old listed
    have missed := find?_eq_none.mp (grown.fresh record mem) old listed
    simpa using missed
  obtain ⟨objects, slab, capacity, used, free⟩ := rollback_records store.objects records next
    grown.objects grown.sized grown.extents fresh grown.distinct
  refine ⟨objects, slab.trans grown.slab, capacity.trans grown.capacity, ?_, ?_⟩
  · rw [used, grown.used]
    omega
  · intro byte
    rw [free byte, grown.free byte]

theorem Grown.rollback_leased {ids : List String} {leased : Store}
    (grown : Grown store next records) (taken : next.acquireLeases ids = .ok leased) :
    Undone store ((leased.rollbackCreated (records.map ObjectRecord.id)).releaseLeases ids) := by
  let counted (record : ObjectRecord) : ObjectRecord :=
    { record with leaseRefs := record.leaseRefs + ids.count record.id }
  have shape : leased.objects = store.objects.map counted ++ records.map counted ∧
      leased.slab = next.slab ∧ leased.allocator = next.allocator := by
    simp only [Store.acquireLeases] at taken
    split at taken
    · cases taken
    · cases taken
      obtain ⟨objects, slab, allocator⟩ := fold_lease_objects ids next
      refine ⟨?_, slab, allocator⟩
      rw [objects, grown.objects, map_append]
  obtain ⟨listed, slab, allocator⟩ := shape
  have ids_kept : (records.map counted).map ObjectRecord.id = records.map ObjectRecord.id := by
    rw [map_map]
    rfl
  have extents_kept : (records.map counted).map ObjectRecord.extent =
      records.map ObjectRecord.extent := by
    rw [map_map]
    rfl
  have bytes_kept : extentBytes (records.map counted) = extentBytes records := by
    simp only [extentBytes, map_map]
    rfl
  have fresh : ∀ record ∈ records.map counted, ∀ old ∈ store.objects.map counted,
      old.id ≠ record.id := by
    intro record mem old there
    obtain ⟨new, made, rfl⟩ := mem_map.mp mem
    obtain ⟨before, was, rfl⟩ := mem_map.mp there
    have missed := find?_eq_none.mp (grown.fresh new made) before was
    simpa [counted] using missed
  have extents : ∀ record ∈ records.map counted, 0 ≤ record.extent.size := by
    intro record mem
    obtain ⟨new, made, rfl⟩ := mem_map.mp mem
    exact grown.extents new made
  obtain ⟨objects, kept, capacity, used, free⟩ := rollback_records _ _ leased listed
    (allocator ▸ grown.sized) extents fresh (ids_kept ▸ grown.distinct)
  rw [ids_kept] at objects kept capacity used free
  obtain ⟨released, same, unmoved⟩ := release_leases_objects ids
    (leased.rollbackCreated (records.map ObjectRecord.id))
  constructor
  · rw [released, objects, map_map]
    rw [map_congr_left (g := id)]
    · exact map_id _
    · intro record _
      simp [counted]
  · rw [same, kept, slab, grown.slab]
  · rw [unmoved, capacity, allocator, grown.capacity]
  · rw [unmoved, used, allocator, grown.used, bytes_kept]
    omega
  · intro byte
    rw [unmoved, free byte, allocator, extents_kept, grown.free byte]

/-! ### restores that fail before placement -/

section Restore

variable {Digest : Type} {digest : Bytes → Digest}
  {file : Option (SnapshotFile Digest)} {request : RestoreRequest}

theorem require_all_distinct (wants required done : List Required)
    (distinct : (required.map Required.target).Nodup)
    (reached : wants.foldlM require required = .ok done) : (done.map Required.target).Nodup := by
  induction wants generalizing required with
  | nil =>
    cases reached
    exact distinct
  | cons want rest ih =>
    rw [foldlM_cons] at reached
    simp only [require] at reached
    split at reached
    · next absent =>
      exact ih (required ++ [want]) (keys_append_nodup distinct (lookup_none.mp absent)) reached
    · split_ifs at reached
      · cases reached
      · exact ih required distinct reached

variable {snapshot : SnapshotFile Digest} {plan : List Placement × List Required}

theorem plan_restore_distinct {overwrite : Bool}
    {remap : Option Remap}
    (planned : planRestore store snapshot overwrite remap = .ok plan) :
    (plan.2.map Required.target).Nodup := by
  simp only [planRestore, resolvePlacements, bind, Except.bind] at planned
  split at planned
  · cases planned
  split at planned
  · cases planned
  next placed resolved =>
  split at planned
  · cases planned
  cases planned
  split at resolved
  · cases resolved
  · next required folded =>
    cases resolved
    exact require_all_distinct _ [] required nodup_nil folded

variable [DecidableEq Digest]

/-- The restore is refused, or its job cannot open or verify the payload. -/
inductive FailedEarly (digest : Bytes → Digest) (store : Store)
    (file : Option (SnapshotFile Digest)) (request : RestoreRequest) : ServiceError → Store → Prop
  | refused {error : ServiceError} {after : Store}
      (raised : restoreSnapshot store file request = .error (error, after)) :
      FailedEarly digest store file request error after
  | unopened {error : ServiceError} {job : RestoreJob Digest} {leased : Store}
      (admitted : restoreSnapshot store file request = .ok (job, leased))
      (unread : openPayload digest job = .error error) :
      FailedEarly digest store file request error (restoreJob digest leased job).2

/-- The free space holds all targets that have to be created, or not even the first. -/
def AllOrNothing (store : Store) (file : Option (SnapshotFile Digest))
    (request : RestoreRequest) : Prop :=
  ∀ snapshot ∈ file, snapshot.schema = snapshotSchema →
    ∀ plan, planRestore store snapshot request.overwrite (request.remap.filter (· ≠ [])) = .ok plan →
      store.allocator.fitting (absentSizes store plan.2) = 0 ∨
        store.allocator.fitting (absentSizes store plan.2) = (absentSizes store plan.2).length

omit [DecidableEq Digest] in
/-- A restore is refused by its checks, with nothing changed, or it goes on to create targets. -/
theorem restore_snapshot_cases (store : Store) (file : Option (SnapshotFile Digest))
    (request : RestoreRequest) :
    (∃ error, restoreSnapshot store file request = .error (error, store) ∧
        AllOrNothing store file request) ∨
      ∃ snapshot plan, file = some snapshot ∧ snapshot.schema = snapshotSchema ∧
        planRestore store snapshot request.overwrite (request.remap.filter (· ≠ [])) = .ok plan ∧
        restoreSnapshot store file request = admitRestore store snapshot request
          (request.remap.filter (· ≠ [])) plan.1 plan.2 := by
  cases file with
  | none => exact .inl ⟨_, rfl, fun _ here => nomatch here⟩
  | some snapshot =>
    by_cases skewed : snapshot.schema = snapshotSchema
    · cases planned : planRestore store snapshot request.overwrite
          (request.remap.filter (· ≠ [])) with
      | error error =>
        left
        refine ⟨error, ?_, ?_⟩
        · simp only [restoreSnapshot, skewed, ne_eq, not_true_eq_false, ↓reduceIte, planned]
        · intro other here _ plan found
          cases here
          rw [planned] at found
          cases found
      | ok plan =>
        right
        refine ⟨snapshot, plan, rfl, skewed, planned, ?_⟩
        simp only [restoreSnapshot, skewed, ne_eq, not_true_eq_false, ↓reduceIte, planned]
    · left
      refine ⟨⟨.versionSkew, "snapshot schema '" ++ snapshot.schema ++ "' != '" ++
        snapshotSchema ++ "'"⟩, ?_, ?_⟩
      · simp only [restoreSnapshot, ne_eq, skewed, not_false_eq_true, ↓reduceIte]
      · intro other here schema
        cases here
        exact absurd schema skewed

omit [DecidableEq Digest] in
theorem all_or_nothing_iff
    (schema : snapshot.schema = snapshotSchema)
    (planned : planRestore store snapshot request.overwrite (request.remap.filter (· ≠ [])) =
      .ok plan) : AllOrNothing store (some snapshot) request ↔
      store.allocator.fitting (absentSizes store plan.2) = 0 ∨
        store.allocator.fitting (absentSizes store plan.2) = (absentSizes store plan.2).length := by
  constructor
  · intro all
    exact all snapshot rfl schema plan planned
  intro fits other here _ found same
  cases here
  rw [planned] at same
  cases same
  exact fits

/-- A restore that fails before placement has left no trace exactly when the free space
holds all of its new targets or none. -/
theorem failed_restore_undone (digest : Bytes → Digest) (store after : Store)
    (file : Option (SnapshotFile Digest)) (request : RestoreRequest) (error : ServiceError)
    (sized : Sized store.allocator.free)
    (failed : FailedEarly digest store file request error after) :
    Undone store after ↔ AllOrNothing store file request := by
  rcases restore_snapshot_cases store file request with
    ⟨refusal, refused, fits⟩ | ⟨snapshot, plan, rfl, schema, planned, admission⟩
  · -- nothing was created
    cases failed with
    | refused raised =>
      rw [refused] at raised
      cases raised
      exact iff_of_true (.refl store) fits
    | unopened admitted unread =>
      rw [refused] at admitted
      cases admitted
  rw [all_or_nothing_iff schema planned]
  have created := create_targets_grown plan.2 [] store sized (plan_restore_distinct planned)
  cases making : createTargets plan.2 [] store with
  | error pair =>
    -- a target did not fit; the ones before it stay
    rw [making] at created
    obtain ⟨_, records, grown, count, fewer⟩ := created
    have stopped : restoreSnapshot store (some snapshot) request = .error pair := by
      rw [admission, admitRestore, making, error_bind]
    have partway : after = pair.2 := by
      cases failed with
      | refused raised =>
        rw [stopped] at raised
        cases raised
        rfl
      | unopened admitted unread =>
        rw [stopped] at admitted
        cases admitted
    rw [partway, ← count]
    constructor
    · intro undone
      left
      have lengths := congrArg length (grown.objects.symm.trans undone.objects)
      rw [length_append] at lengths
      omega
    rintro (none_made | all_made)
    · rw [length_eq_zero_iff] at none_made
      subst none_made
      refine ⟨?_, grown.slab, grown.capacity, ?_, ?_⟩
      · rw [grown.objects, append_nil]
      · rw [grown.used]
        simp [extentBytes]
      · intro byte
        rw [grown.free byte]
        simp
    · exact absurd all_made (Nat.ne_of_lt fewer)
  | ok made =>
    rw [making] at created
    obtain ⟨records, grown, ids, all⟩ := created
    refine iff_of_true ?_ (.inr all)
    rw [admitRestore, making, ok_bind] at admission
    cases taking : made.2.acquireLeases
        ((plan.2.map Required.target).insertionSort (· ≤ ·)) with
    | error pair =>
      simp only [taking] at admission
      have unleased : pair.2 = made.2 := by
        have kept := Store.acquire_leases_acquired made.2
          ((plan.2.map Required.target).insertionSort (· ≤ ·))
        rw [taking] at kept
        exact kept.1
      cases failed with
      | refused raised =>
        rw [admission] at raised
        cases raised
        rw [unleased, ids]
        exact grown.rollback
      | unopened admitted unread =>
        rw [admission] at admitted
        cases admitted
    | ok leased =>
      simp only [taking] at admission
      cases failed with
      | refused raised =>
        rw [admission] at raised
        cases raised
      | unopened admitted unread =>
        rw [admission] at admitted
        cases admitted
        simp only [restoreJob, restoreBody, unread]
        rw [ids]
        exact grown.rollback_leased taking

def emptyStore (capacity : Int) : Store :=
  { slab := fun _ => 0, allocator := { capacity := capacity, free := [⟨0, capacity⟩] } }

/-- Two whole objects of four bytes; the hash of a slice is the slice itself. -/
def twoWhole : SnapshotFile Bytes :=
  { schema := snapshotSchema
    slices := [⟨⟨"a", 4, [], false, ⟨0, 4⟩, "a", ⟨0, 4⟩, 4⟩, 0, 4, some [1, 2, 3, 4]⟩,
      ⟨⟨"b", 4, [], false, ⟨0, 4⟩, "b", ⟨0, 4⟩, 4⟩, 4, 4, some [5, 6, 7, 8]⟩]
    payload := some [1, 2, 3, 4, 5, 6, 7, 9] }

/-- Room for both targets, and a payload whose last byte is not the recorded one. -/
theorem failed_restore_undone_corrupt :
    ∃ error after, FailedEarly id (emptyStore 8192) (some twoWhole) { path := "s" } error after ∧
      error.code = .verifyFailed ∧
      (Undone (emptyStore 8192) after ↔
        AllOrNothing (emptyStore 8192) (some twoWhole) { path := "s" }) := by
  have sized : Sized (emptyStore 8192).allocator.free := by
    simp [Sized, emptyStore]
  have outcome : (restoreSnapshot (emptyStore 8192) (some twoWhole) { path := "s" }).toOption.map
      (fun admitted => (openPayload id admitted.1).map fun _ => ()) =
      some (.error ⟨.verifyFailed, "b: payload hash mismatch (corrupt or tampered slice); " ++
        "pass verify=False to restore the on-disk bytes anyway"⟩) := by
    decide +kernel
  cases admitted : restoreSnapshot (emptyStore 8192) (some twoWhole) { path := "s" } with
  | error pair =>
    rw [admitted] at outcome
    cases outcome
  | ok pair =>
    rw [admitted] at outcome
    cases unread : openPayload id pair.1 with
    | ok payload =>
      simp only [Except.toOption, Option.map_some, unread] at outcome
      cases outcome
    | error error =>
      simp only [Except.toOption, Option.map_some, unread] at outcome
      cases outcome
      have failed := FailedEarly.unopened admitted unread
      exact ⟨_, _, failed, rfl, failed_restore_undone id _ _ _ _ _ sized failed⟩

/-- Room for one target of two: the restore is refused and the first target stays. -/
theorem refused_restore_keeps_first_target :
    ∃ error after, FailedEarly id (emptyStore 4096) (some twoWhole) { path := "s" } error after ∧
      error.code = .capacity ∧ after.objects.map ObjectRecord.id = ["a"] ∧
      ¬Undone (emptyStore 4096) after := by
  have outcome : ((restoreSnapshot (emptyStore 4096) (some twoWhole) { path := "s" }).map
      fun _ => ()).mapError (fun failed => (failed.1.code, failed.2.objects.map ObjectRecord.id)) =
      .error (.capacity, ["a"]) := by
    decide +kernel
  cases raised : restoreSnapshot (emptyStore 4096) (some twoWhole) { path := "s" } with
  | ok _ =>
    rw [raised] at outcome
    cases outcome
  | error pair =>
    rw [raised] at outcome
    simp only [Except.map, Except.mapError, Except.error.injEq, Prod.mk.injEq] at outcome
    refine ⟨pair.1, pair.2, .refused raised, outcome.1, outcome.2, ?_⟩
    intro undone
    have ids := outcome.2
    rw [undone.objects] at ids
    cases ids

end Restore

end Dataflow.Service
