import Dataflow.ServiceVerbs

/-!
What the verbs write, one statement for each verb of the store and one for a run. A verb
replaces, creates or drops objects that have no lease, and they have none afterwards; all
others stay as they are. It answers LEASED only where an object of its footprint is leased.
An absent object counts as having no lease.
-/

namespace Dataflow.Service

open StatefulOutcome ByteRanges KeyedTable List

namespace Store

def refs (store : Store) (id : String) : Nat :=
  ((store.object id).map ObjectRecord.leaseRefs).getD 0

def Leased (store : Store) : Prop := ∃ id, 0 < store.refs id

def SameLeases (store next : Store) : Prop := ∀ id, next.refs id = store.refs id

/-- Only objects of the footprint changed, without a lease before and after. -/
def Rewrote (footprint : String → Prop) (store next : Store) : Prop :=
  ∀ id, next.object id = store.object id ∨
    footprint id ∧ store.refs id = 0 ∧ next.refs id = 0

variable {Value : Type} {footprint wider : String → Prop} {store next last : Store} {id : String}
  {record : ObjectRecord}

theorem SameLeases.refl (store : Store) : SameLeases store store := fun _ => rfl

theorem refs_congr (same : next.object id = store.object id) : next.refs id = store.refs id := by
  simp only [refs, same]

theorem refs_of_objects (same : next.objects = store.objects) : SameLeases store next :=
  fun _ => refs_congr (by simp only [object, same])

theorem object_id (found : store.object id = some record) : record.id = id := by
  have listed := found
  exact lookup_key listed

theorem refs_of_absent (absent : store.object id = none) : store.refs id = 0 := by
  simp only [refs, absent, Option.map_none, Option.getD_none]

theorem refs_of_found (found : store.object id = some record) : store.refs id = record.leaseRefs := by
  simp only [refs, found, Option.map_some, Option.getD_some]

theorem refs_of_unleased (found : store.object id = some record)
    (unleased : ¬0 < record.leaseRefs) : store.refs id = 0 := by
  rw [refs_of_found found]
  omega

theorem refs_of_leased (found : store.object id = some record) (leased : 0 < record.leaseRefs) :
    0 < store.refs id :=
  refs_of_found found ▸ leased

variable {change : ObjectRecord → ObjectRecord} {info : Info} {run : StoreRun Value}
  {state : Value → Store}

theorem update_object_map {Seen : Type} (view : ObjectRecord → Seen) {other : String}
    (keeps : ∀ record, (change record).id = record.id)
    (blind : ∀ record, view (change record) = view record) :
    ((store.update id change).object other).map view = (store.object other).map view := by
  show (KeyedTable.lookup ObjectRecord.id other
    (KeyedTable.update ObjectRecord.id id change store.objects)).map view = _
  by_cases same : other = id
  · subst same
    rw [lookup_update_self keeps, Option.map_map]
    congr 1
    funext record
    exact blind record
  · rw [lookup_update_other keeps same]
    rfl

theorem update_same_leases
    (keeps : ∀ record, (change record).id = record.id)
    (counts : ∀ record, (change record).leaseRefs = record.leaseRefs) :
    SameLeases store (store.update id change) :=
  fun _ => congrArg (Option.getD · 0) (update_object_map ObjectRecord.leaseRefs keeps counts)

/-! ### rewriting -/

theorem Rewrote.refl (store : Store) : Rewrote footprint store store := fun _ => .inl rfl

theorem Rewrote.leases (rewrote : Rewrote footprint store next) : SameLeases store next := by
  intro id
  rcases rewrote id with same | ⟨-, free, still⟩
  · exact refs_congr same
  · exact still.trans free.symm

theorem Rewrote.trans (first : Rewrote footprint store next) (second : Rewrote footprint next last) :
    Rewrote footprint store last := by
  intro id
  rcases second id with kept | ⟨listed, free, still⟩
  · rcases first id with same | ⟨listed, free, still⟩
    · exact .inl (kept.trans same)
    · exact .inr ⟨listed, free, (refs_congr kept).trans still⟩
  · exact .inr ⟨listed, (first.leases id).symm.trans free, still⟩

theorem Rewrote.widen (rewrote : Rewrote footprint store next)
    (inside : ∀ id, footprint id → wider id) : Rewrote wider store next :=
  fun id => (rewrote id).imp_right fun ⟨listed, free⟩ => ⟨inside id listed, free⟩

theorem rewrote_of_objects (same : next.objects = store.objects) : Rewrote footprint store next :=
  fun _ => .inl (by simp only [object, same])

theorem rewrote_of_others (others : ∀ other, other ≠ id → next.object other = store.object other)
    (free : store.refs id = 0) (still : next.refs id = 0) : Rewrote (· = id) store next := by
  intro other
  by_cases hit : other = id
  · subst hit
    exact .inr ⟨rfl, free, still⟩
  · exact .inl (others other hit)

theorem update_rewrote
    (keeps : ∀ record, (change record).id = record.id)
    (counts : ∀ record, (change record).leaseRefs = record.leaseRefs) (free : store.refs id = 0) :
    Rewrote (· = id) store (store.update id change) :=
  rewrote_of_others (fun _ hit => lookup_update_other keeps hit) free
    ((update_same_leases keeps counts id).trans free)

theorem append_rewrote {added : ObjectRecord} (named : added.id = id)
    (unleased : added.leaseRefs = 0) (absent : store.object id = none)
    (same : next.objects = store.objects ++ [added]) : Rewrote (· = id) store next := by
  have found (other : String) : next.object other =
      (store.object other).or (if added.id = other then some added else none) := by
    show KeyedTable.lookup ObjectRecord.id other next.objects = _
    rw [same, lookup_append_single]
    rfl
  refine rewrote_of_others (fun other hit => ?_) (refs_of_absent absent) ?_
  · rw [found, if_neg fun clash => hit (clash.symm.trans named), Option.or_none]
  · rw [refs, found, absent, if_pos named]
    exact unleased

theorem drop_rewrote (found : store.object id = some record) (unleased : ¬0 < record.leaseRefs) :
    Rewrote (· = id) store (store.dropRecord record) := by
  obtain rfl := object_id found
  refine rewrote_of_others (fun other hit => lookup_remove_other hit)
    (refs_of_unleased found unleased) (refs_of_absent ?_)
  exact lookup_remove_self

theorem fill_rewrote (named : record.id = id) (free : store.refs id = 0) (data : Option Bytes)
    (info : Info) : Rewrote (· = id) store (store.fill record data info) := by
  subst named
  have renewed : Rewrote (· = record.id) store (store.update record.id fun record =>
      { record with
        info := if info = [] then record.info else info
        version := record.version + 1 }) :=
    update_rewrote (fun _ => rfl) (fun _ => rfl) free
  cases data with
  | none => exact renewed
  | some data => exact renewed.trans (rewrote_of_objects rfl)

theorem carve_rewrote {size : Nat} (absent : store.object id = none)
    (carved : store.carve id size info = some (record, next)) :
    record.id = id ∧ Rewrote (· = id) store next := by
  obtain ⟨found, _, same⟩ := Option.map_eq_some_iff.mp carved
  cases same
  exact ⟨rfl, append_rewrote rfl rfl absent rfl⟩

/-! ### verbs -/

/-- Both exits rewrite the footprint, and LEASED is raised only where it is leased. -/
def Writes (footprint : String → Prop) (store : Store) (run : StoreRun Value)
    (state : Value → Store) : Prop :=
  Ensures run (fun value => Rewrote footprint store (state value)) fun error after =>
    Rewrote footprint store after ∧ (error.code = .leased → ∃ id, footprint id ∧ 0 < after.refs id)

theorem Writes.following
    (first : Rewrote footprint store next) (rest : Writes footprint next run state) :
    Writes footprint store run state :=
  ensures_mono rest (fun _ done => first.trans done) fun _ _ done => ⟨first.trans done.1, done.2⟩

/-- Only the object is rewritten, and an error changes nothing. -/
def LooksFirst (id : String) (store : Store) (run : StoreRun Value) (state : Value → Store) : Prop :=
  Ensures run (fun value => Rewrote (· = id) store (state value)) fun error after =>
    after = store ∧ (error.code = .leased → 0 < store.refs id)

theorem put_looks (id : String) (data : Option Bytes) (size : Option Nat) (info : Info) :
    LooksFirst id store (store.put id data size info) fun next => next := by
  simp only [LooksFirst, put]
  split
  · exact ⟨rfl, nofun⟩
  split
  · next record found =>
    split_ifs with leased
    · exact ⟨rfl, fun _ => refs_of_leased found leased⟩
    · exact ⟨rfl, nofun⟩
    · exact fill_rewrote (object_id found) (refs_of_unleased found leased) data info
  next absent =>
  split
  · exact ⟨rfl, nofun⟩
  next record carved made =>
  obtain ⟨named, wrote⟩ := carve_rewrote absent made
  have free := (wrote.leases id).trans (refs_of_absent absent)
  exact wrote.trans (fill_rewrote named free data info)

theorem put_from_file_looks (id path : String) (content : Option Bytes) (info : Info) :
    LooksFirst id store (store.putFromFile id path content info) fun next => next := by
  cases content with
  | none => exact ⟨rfl, nofun⟩
  | some data =>
    apply ensures_bind (put_looks id none (some data.length) info)
    intro next wrote
    split
    · exact wrote
    · exact wrote.trans (rewrote_of_objects rfl)

theorem release_looks (id : String) (force : Bool) :
    LooksFirst id store (store.release id force) Prod.snd := by
  simp only [LooksFirst, release]
  split
  · exact .refl store
  next found =>
  split_ifs with _ leased
  · exact ⟨rfl, nofun⟩
  · exact ⟨rfl, fun _ => refs_of_leased found leased⟩
  · exact drop_rewrote found leased

theorem duplicate_looks (src dst : String) :
    LooksFirst dst store (store.duplicate src dst) fun next => next := by
  simp only [LooksFirst, duplicate]
  split
  · exact ⟨rfl, nofun⟩
  split
  · exact ⟨rfl, nofun⟩
  · next absent =>
    split
    · exact ⟨rfl, nofun⟩
    · next carved => exact (carve_rewrote absent carved).2.trans (rewrote_of_objects rfl)

theorem wipe_loop_writes (force : Bool) (ids : List String) (report : WipeReport) (store : Store) :
    Writes (fun _ => True) store (wipeLoop force ids report store) Prod.snd := by
  induction ids generalizing report store with
  | nil => exact Rewrote.refl store
  | cons id rest ih =>
    simp only [wipeLoop]
    split
    · exact ih report store
    next found =>
    split_ifs with _ leased
    · exact ih _ store
    · exact ⟨.refl store, fun _ => ⟨id, trivial, refs_of_leased found leased⟩⟩
    · exact .following ((drop_rewrote found leased).widen fun _ _ => trivial) (ih _ _)

theorem wipe_writes (scope : String) (force : Bool) :
    Writes (fun _ => True) store (Prod.snd <$> store.wipe scope force) fun next => next := by
  refine ensures_map ?_
  simp only [wipe, resolveScope]
  split
  · next raised =>
    split_ifs at raised
    cases raised
    exact ⟨.refl store, nofun⟩
  · apply ensures_bind (wipe_loop_writes force _ {} store)
    exact fun done wrote => wrote.trans (rewrote_of_objects rfl)

theorem adopt_inbound_rewrote {destId : String} {extent : Extent} {sizeBytes : Nat}
    (adopted : store.adoptInbound destId extent sizeBytes info = some next) :
    Rewrote (· = destId) store next := by
  unfold adoptInbound at adopted
  split at adopted
  · next absent =>
    cases adopted
    exact append_rewrote rfl rfl absent rfl
  next old found =>
  split_ifs at adopted with leased
  cases adopted
  -- the adopted record starts without leases, as the one it replaces had none
  let renewed : ObjectRecord :=
    { id := destId, sizeBytes := sizeBytes, info := info, extent := extent
      isProtected := old.isProtected, version := old.version + 1 }
  have keeps : renewed.id = destId := rfl
  refine rewrote_of_others (fun other hit => lookup_write_other keeps hit)
    (refs_of_unleased found leased) ?_
  show ((KeyedTable.lookup ObjectRecord.id destId
    (KeyedTable.update ObjectRecord.id destId (fun _ => renewed) store.objects)).map _).getD 0 = 0
  rw [lookup_write_self keeps found]
  rfl

theorem rollback_created_object (ids : List String) (store : Store) (id : String) :
    (store.rollbackCreated ids).object id = if id ∈ ids then none else store.object id := by
  simp only [rollbackCreated]
  induction ids generalizing store with
  | nil => rfl
  | cons first rest ih =>
    rw [foldl_cons, ih]
    by_cases later : id ∈ rest
    · rw [if_pos later, if_pos (mem_cons_of_mem first later)]
    rw [if_neg later]
    split
    · next absent =>
      split_ifs with listed
      · exact (mem_cons.mp listed).resolve_right later ▸ absent
      · rfl
    next record found =>
    obtain rfl := object_id found
    split_ifs with listed
    · obtain rfl := (mem_cons.mp listed).resolve_right later
      exact lookup_remove_self
    · exact lookup_remove_other fun same => listed (same ▸ mem_cons_self)

theorem rollback_created_rewrote (ids : List String) (free : ∀ id ∈ ids, store.refs id = 0) :
    Rewrote (fun _ => True) store (store.rollbackCreated ids) := by
  intro id
  have left := rollback_created_object ids store id
  split_ifs at left with made
  · exact .inr ⟨trivial, free id made, refs_of_absent left⟩
  · exact .inl left

end Store

theorem create_targets_writes (required : List Required) (created : List String) (store : Store) :
    Ensures (createTargets required created store)
      (fun made => Store.Rewrote (fun _ => True) store made.2 ∧
        ∀ id ∈ made.1, id ∈ created ∨ store.refs id = 0)
      fun error after => Store.Rewrote (fun _ => True) store after ∧ error.code ≠ .leased := by
  induction required generalizing created store with
  | nil => exact ⟨.refl store, fun id mem => .inl mem⟩
  | cons want rest ih =>
    simp only [createTargets]
    split
    · exact ih created store
    next absent =>
    have free := Store.refs_of_absent absent
    have put : Ensures (store.put want.target none (some want.size.toNat) (want.info.getD []))
        (Store.Rewrote (· = want.target) store)
        fun error after => Store.Rewrote (fun _ => True) store after ∧ error.code ≠ .leased := by
      refine ensures_mono (Store.put_looks _ _ _ _) (fun _ wrote => wrote) ?_
      rintro error _ ⟨rfl, held⟩
      exact ⟨.refl _, fun leased => absurd free (Nat.ne_of_gt (held leased))⟩
    apply ensures_bind put
    intro next wrote
    have first := wrote.widen fun _ _ => trivial
    refine ensures_mono (ih (created ++ [want.target]) next) (fun made done => ?_)
      fun _ _ done => ⟨first.trans done.1, done.2⟩
    refine ⟨first.trans done.1, fun id mem => ?_⟩
    rcases done.2 id mem with listed | unheld
    · rcases mem_append.mp listed with before | now
      · exact .inl before
      · exact .inr (mem_singleton.mp now ▸ free)
    · exact .inr ((wrote.leases id).symm.trans unheld)

/-! ### a run -/

namespace EngineState

variable {Digest Value : Type} {footprint : String → Prop} {service next after : EngineState Digest}
  {machine : Machine} {request : RunRequest} {runId : Nat}

/-- Only records, counters, programs and objects of the footprint changed. -/
structure Kept (footprint : String → Prop) (service after : EngineState Digest) : Prop where
  store : Store.Rewrote footprint service.store after.store
  nextRun : service.nextRun ≤ after.nextRun
  snapshotJobs : after.snapshotJobs = service.snapshotJobs
  restoreJobs : after.restoreJobs = service.restoreJobs
  sends : after.sends = service.sends

theorem Kept.trans (first : Kept footprint service next) (second : Kept footprint next after) :
    Kept footprint service after :=
  ⟨first.store.trans second.store, first.nextRun.trans second.nextRun,
    second.snapshotJobs.trans first.snapshotJobs, second.restoreJobs.trans first.restoreJobs,
    second.sends.trans first.sends⟩

theorem Kept.noted (objects : after.store.objects = service.store.objects)
    (nextRun : service.nextRun ≤ after.nextRun)
    (snapshotJobs : after.snapshotJobs = service.snapshotJobs)
    (restoreJobs : after.restoreJobs = service.restoreJobs) (sends : after.sends = service.sends) :
    Kept footprint service after :=
  ⟨Store.rewrote_of_objects objects, nextRun, snapshotJobs, restoreJobs, sends⟩

/-- Both exits, and LEASED only where the footprint is leased. -/
def Keeps (footprint : String → Prop) (service : EngineState Digest)
    (run : ServiceRun Digest Value) (state : Value → EngineState Digest) : Prop :=
  Ensures run (fun value => Kept footprint service (state value)) fun error after =>
    Kept footprint service after ∧
      (error.code = .leased → ∃ id, footprint id ∧ 0 < after.store.refs id)

theorem Keeps.following {run : ServiceRun Digest Value} {state : Value → EngineState Digest}
    (first : Kept footprint service next) (rest : Keeps footprint next run state) :
    Keeps footprint service run state :=
  ensures_mono rest (fun _ done => first.trans done) fun _ _ done => ⟨first.trans done.1, done.2⟩

theorem lift_store_keeps {run : StoreRun Value} {state : Value → Store}
    (writes : Store.Writes footprint service.store run state) :
    Keeps footprint service (service.liftStore run) fun value => service.withStore (state value) := by
  cases run with
  | ok value => exact ⟨writes, le_rfl, rfl, rfl, rfl⟩
  | error pair => exact ⟨⟨writes.1, le_rfl, rfl, rfl, rfl⟩, writes.2⟩

theorem bind_inputs_keeps (specs : List ObjectSpec) (values : List (String × ObjectRecord))
    (service : EngineState Digest)
    (free : ∀ spec ∈ specs, service.store.refs (request.target spec.id) = 0) :
    Keeps (fun _ => True) service (bindInputs request runId specs values service) Prod.snd := by
  induction specs generalizing values service with
  | nil => exact .noted rfl le_rfl rfl rfl rfl
  | cons spec specs ih =>
    simp only [bindInputs]
    split
    · exact ⟨.noted rfl le_rfl rfl rfl rfl, nofun⟩
    split_ifs
    · exact ⟨.noted rfl le_rfl rfl rfl rfl, nofun⟩
    let advanced := service.store.update (request.target spec.id) fun record =>
      { record with version := record.version + 1 }
    have wrote : Store.Rewrote (· = request.target spec.id) service.store advanced :=
      Store.update_rewrote (fun _ => rfl) (fun _ => rfl) (free spec mem_cons_self)
    have first : Kept (fun _ => True) service (service.withStore advanced) :=
      ⟨wrote.widen fun _ _ => trivial, le_rfl, rfl, rfl, rfl⟩
    refine Keeps.following first (ih _ _ fun later mem => ?_)
    exact (wrote.leases _).trans (free later (mem_cons_of_mem spec mem))

theorem prepare_placement_keeps (entry : ProgramEntry) (service : EngineState Digest) :
    Keeps footprint service (preparePlacement machine entry service) id := by
  simp only [Keeps, preparePlacement]
  split_ifs
  · exact .noted rfl le_rfl rfl rfl rfl
  · split
    · exact ⟨.noted rfl le_rfl rfl rfl rfl, nofun⟩
    · exact .noted rfl le_rfl rfl rfl rfl

theorem capture_finals_writes (values : List (String × ObjectRecord))
    (objects : List (String × Bytes)) (finals : List (String × Location)) (store : Store) :
    Store.Writes (fun _ => True) store (captureFinals values objects finals store) fun next => next := by
  induction finals generalizing store with
  | nil => exact Store.Rewrote.refl store
  | cons final rest ih =>
    simp only [captureFinals]
    split
    · refine ensures_bind (ensures_mono (Store.put_looks _ _ _ _)
        (fun _ wrote => wrote.widen fun _ _ => trivial) ?_)
        fun put wrote => Store.Writes.following wrote (ih put)
      rintro error _ ⟨rfl, held⟩
      exact ⟨.refl _, fun leased => ⟨_, trivial, held leased⟩⟩
    · exact ih store

theorem fetch_all_keeps (ids : List String) (service : EngineState Digest) :
    Keeps footprint service (fetchAll runId ids service) id := by
  induction ids generalizing service with
  | nil => exact .noted rfl le_rfl rfl rfl rfl
  | cons first rest ih =>
    have noted (change : RunRecord → RunRecord) :
        Kept footprint service (service.updateRun runId change) := .noted rfl le_rfl rfl rfl rfl
    simp only [fetchAll]
    split
    · split_ifs
      · exact .following (noted _) (ih _)
      · exact ⟨.noted rfl le_rfl rfl rfl rfl, nofun⟩
    · exact .following (noted _) (ih _)

theorem finish_run_keeps (program : Program) (values : List (String × ObjectRecord))
    (service : EngineState Digest) (result : Except Failure (List (String × Bytes))) :
    Keeps (fun _ => True) service (finishRun request runId program values service result) id := by
  cases result with
  | error failure =>
    refine ⟨.noted rfl le_rfl rfl rfl rfl, ?_⟩
    cases failure.wasCancelled <;> exact nofun
  | ok objects =>
    have counted : Kept (fun _ => True) service { service with counters := { service.counters with
        tasksExecuted := service.counters.tasksExecuted + program.tasks.length } } :=
      .noted rfl le_rfl rfl rfl rfl
    apply ensures_bind (Keeps.following counted
      (lift_store_keeps (capture_finals_writes values objects program.finalLocations _)))
    intro store stored
    apply ensures_bind (Keeps.following stored (fetch_all_keeps request.fetch _))
    exact fun fetched kept => kept.trans (.noted rfl le_rfl rfl rfl rfl)

theorem leased_input_none {store : Store} {program : Program}
    (unleased : leasedInput store request program = none) :
    ∀ spec ∈ program.initialObjects, store.refs (request.target spec.id) = 0 := by
  intro spec mem
  have missed := findSome?_eq_none_iff.mp unleased spec mem
  cases found : store.object (request.target spec.id) with
  | none => exact Store.refs_of_absent found
  | some record =>
    apply Store.refs_of_unleased found
    simpa [found, Option.filter] using missed

def opened (service : EngineState Digest) (entry : ProgramEntry) : EngineState Digest :=
  { service with
    nextRun := service.nextRun + 1
    runs := service.runs ++ [{
      runId := service.nextRun + 1, progId := entry.progId
      tasksTotal := entry.program.tasks.length }] }

theorem run_keeps {entry : ProgramEntry}
    (known : KeyedTable.lookup ProgramEntry.progId request.progId service.programs = some entry)
    (unleased : leasedInput service.store request entry.program = none) :
    Keeps (fun _ => True) (service.opened entry) (service.run machine request) id := by
  simp only [Keeps, run, known, unleased]
  apply ensures_bind (bind_inputs_keeps _ _ (service.opened entry) (leased_input_none unleased))
  intro bound kept
  apply ensures_bind (Keeps.following kept (prepare_placement_keeps _ bound.2))
  intro placed kept
  refine Keeps.following (kept.trans ?executed) (finish_run_keeps _ _ _ _)
  -- the execution owns slab and allocator, the catalog stays
  exact .noted rfl le_rfl rfl rfl rfl

/-! ### every verb -/

/-- Which objects a verb may write. -/
inductive Reach where
  | nothing
  | only (id : String)
  | anything
  deriving DecidableEq

def Call.reach : Call Digest → Reach
  | .putObject id _ _ | .putObjectFile id _ _ _ | .createObject id _ _ | .materializeObject id _
  | .releaseObject id _ | .duplicateObject _ id | .peerCommitInbound id _ _ _ => .only id
  | .wipe _ _ | .run _ | .restoreSnapshot _ _ => .anything
  | .snapshot _ | .sendObject _ _ _ _ => .nothing

def Reach.Holds : Reach → String → Prop
  | .nothing, _ => False
  | .only id, other => other = id
  | .anything, _ => True

def Call.takesLeases : Call Digest → Bool
  | .snapshot _ | .restoreSnapshot _ _ | .sendObject _ _ _ _ => true
  | _ => false

/-- Only the object is rewritten, and an error changes nothing. -/
def LooksFirst (id : String) (service : EngineState Digest)
    (run : ServiceRun Digest (EngineState Digest)) : Prop :=
  Ensures run (Kept (· = id) service) fun error after =>
    after = service ∧ (error.code = .leased → 0 < service.store.refs id)

theorem on_store_looks {id : String} {run : StoreRun Store}
    (looks : Store.LooksFirst id service.store run fun next => next) :
    LooksFirst id service (service.onStore run) := by
  cases run with
  | ok store => exact ⟨looks, le_rfl, rfl, rfl, rfl⟩
  | error pair => exact ⟨congrArg service.withStore looks.1, looks.2⟩

theorem materialize_looks (store : Store) (id : String) (fill : Fill) :
    Store.LooksFirst id store (materialize store id fill) fun next => next := by
  cases fill with
  | zeros size =>
    apply ensures_bind (Store.put_looks id none (some size) [])
    intro next wrote
    split
    · exact wrote
    · exact wrote.trans (Store.rewrote_of_objects rfl)
  | file path content => exact Store.put_from_file_looks id path content []
  | tokens ids => exact Store.put_looks id (some ids) none []
  | retired kind => exact ⟨rfl, nofun⟩
  | unknown kind => exact ⟨rfl, nofun⟩

theorem handle_looks (machine : Machine) (service : EngineState Digest) {call : Call Digest}
    {id : String} (aimed : call.reach = .only id) :
    LooksFirst id service (service.handle machine call) := by
  cases call <;> cases aimed
  case putObject payload info =>
    cases payload with
    | none => exact ⟨rfl, nofun⟩
    | some data => exact on_store_looks (Store.put_looks _ _ _ _)
  case putObjectFile => exact on_store_looks (Store.put_from_file_looks _ _ _ _)
  case createObject => exact on_store_looks (Store.put_looks _ _ _ _)
  case materializeObject => exact on_store_looks (materialize_looks _ _ _)
  case releaseObject => exact on_store_looks (ensures_map (Store.release_looks _ _))
  case duplicateObject => exact on_store_looks (Store.duplicate_looks _ _)
  case peerCommitInbound extent sizeBytes info =>
    simp only [handle]
    split
    · next refused =>
      refine ⟨rfl, fun _ => ?_⟩
      unfold Store.adoptInbound at refused
      split at refused
      · cases refused
      · next old found =>
          split_ifs at refused with held
          exact Store.refs_of_leased found held
    · next adopted => exact ⟨Store.adopt_inbound_rewrote adopted, le_rfl, rfl, rfl, rfl⟩

theorem handle_keeps (machine : Machine) (service : EngineState Digest) {call : Call Digest}
    (plain : call.takesLeases = false) :
    Keeps call.reach.Holds service (service.handle machine call) id := by
  have unchanged : Kept call.reach.Holds service service := .noted rfl le_rfl rfl rfl rfl
  cases call with
  | wipe => exact ensures_bind (lift_store_keeps (Store.wipe_writes _ _)) fun _ kept => kept
  | run request =>
    change Keeps (fun _ => True) service (service.run machine request) id
    cases known : KeyedTable.lookup ProgramEntry.progId request.progId service.programs with
    | none =>
      simp only [run, known]
      exact ⟨unchanged, nofun⟩
    | some entry =>
      cases unleased : leasedInput service.store request entry.program with
      | some record =>
        simp only [run, known, unleased]
        refine ⟨unchanged, fun _ => ?_⟩
        obtain ⟨spec, _, hit⟩ := exists_of_findSome?_eq_some unleased
        obtain ⟨found, leased⟩ := Option.filter_eq_some_iff.mp hit
        exact ⟨_, trivial, Store.refs_of_leased found (of_decide_eq_true leased)⟩
      | none =>
        have opened : Kept (fun _ => True) service (service.opened entry) :=
          .noted rfl (Nat.le_succ _) rfl rfl rfl
        exact .following opened (run_keeps known unleased)
  | snapshot | restoreSnapshot | sendObject => cases plain
  | _ =>
    refine ensures_mono (handle_looks machine service rfl) (fun _ kept => kept) ?_
    rintro error _ ⟨rfl, held⟩
    exact ⟨unchanged, fun leased => ⟨_, rfl, held leased⟩⟩

end EngineState

end Dataflow.Service
