import Dataflow.VerbFootprint

/-!
The dispatcher of `service/server.py` against the threads that release leases. A
handler that raises LEASED and the append to the parked list are two steps, and so
are the release of a lease and the unpark it triggers. Unparked calls go back to the
tail of the queue one by one. Any thread may move between any two steps.
-/

namespace Dataflow.Service

open StatefulOutcome EngineState List

/-- A call with its ticket; tickets number the calls in the order they are submitted. -/
structure QueuedCall (Digest : Type) where
  ticket : Nat
  call : Call Digest
  deriving DecidableEq

structure Dispatcher (Digest : Type) where
  engine : EngineState Digest
  submitted : Nat := 0
  fifo : List (QueuedCall Digest) := []
  parked : List (QueuedCall Digest) := []
  /-- A call whose handler raised LEASED and that is not on the parked list yet. -/
  parking : Option (QueuedCall Digest) := none
  /-- Lease releases whose hook has not run yet. -/
  unparks : Nat := 0
  /-- What each running unpark took off the parked list and has not put back yet. -/
  requeues : List (List (QueuedCall Digest)) := []

inductive Move (Digest : Type) where
  | submit (call : Call Digest)
  | serve
  | park
  | finishSnapshot (index : Nat)
  | finishRestore (index : Nat)
  | finishSend (index : Nat)
  | unpark
  | requeue (index : Nat)

def Move.releases {Digest : Type} : Move Digest → Bool
  | .submit _ | .serve | .park => false
  | _ => true

namespace Dispatcher

variable {Digest : Type} [DecidableEq Digest]

/-- The next call of the queue, run to its end. A send that cannot start releases its
lease on this very thread, so its hook runs inside the handler. -/
def serve (machine : Machine) (dispatcher : Dispatcher Digest) : Dispatcher Digest :=
  match dispatcher.parking, dispatcher.fifo with
  | none, call :: rest =>
    match dispatcher.engine.handle machine call.call with
    | .ok engine => { dispatcher with engine := engine, fifo := rest }
    | .error (error, engine) =>
      if error.code = .leased then
        { dispatcher with engine := engine, fifo := rest, parking := some call }
      else if error.code = .peerUnreachable then
        { dispatcher with engine := engine, fifo := rest ++ dispatcher.parked, parked := [] }
      else { dispatcher with engine := engine, fifo := rest }
  | _, _ => dispatcher

def park (dispatcher : Dispatcher Digest) : Dispatcher Digest :=
  match dispatcher.parking with
  | none => dispatcher
  | some call => { dispatcher with parked := dispatcher.parked ++ [call], parking := none }

/-- A thread is done with its leases; the hook is still to come. -/
def released (dispatcher : Dispatcher Digest) (engine : EngineState Digest) : Dispatcher Digest :=
  { dispatcher with engine := engine, unparks := dispatcher.unparks + 1 }

def finishSnapshot (digest : ByteRanges.Bytes → Digest) (dispatcher : Dispatcher Digest)
    (index : Nat) : Dispatcher Digest :=
  match dispatcher.engine.snapshotJobs[index]? with
  | none => dispatcher
  | some job => dispatcher.released { dispatcher.engine with
      store := (snapshotJob digest dispatcher.engine.store job).2
      snapshotJobs := dispatcher.engine.snapshotJobs.eraseIdx index }

def finishRestore (digest : ByteRanges.Bytes → Digest) (dispatcher : Dispatcher Digest)
    (index : Nat) : Dispatcher Digest :=
  match dispatcher.engine.restoreJobs[index]? with
  | none => dispatcher
  | some job => dispatcher.released { dispatcher.engine with
      store := (restoreJob digest dispatcher.engine.store job).2
      restoreJobs := dispatcher.engine.restoreJobs.eraseIdx index }

def finishSend (dispatcher : Dispatcher Digest) (index : Nat) : Dispatcher Digest :=
  match dispatcher.engine.sends[index]? with
  | none => dispatcher
  | some id => dispatcher.released { dispatcher.engine with
      store := dispatcher.engine.store.releaseLeases [id]
      sends := dispatcher.engine.sends.eraseIdx index }

def unpark (dispatcher : Dispatcher Digest) : Dispatcher Digest :=
  if dispatcher.unparks = 0 then dispatcher
  else { dispatcher with
    parked := []
    unparks := dispatcher.unparks - 1
    requeues := dispatcher.requeues ++ [dispatcher.parked] }

def requeue (dispatcher : Dispatcher Digest) (index : Nat) : Dispatcher Digest :=
  match dispatcher.requeues[index]? with
  | some (call :: rest) => { dispatcher with
      fifo := dispatcher.fifo ++ [call]
      requeues := dispatcher.requeues.set index rest }
  | _ => dispatcher

def step (machine : Machine) (digest : ByteRanges.Bytes → Digest)
    (dispatcher : Dispatcher Digest) : Move Digest → Dispatcher Digest
  | .submit call => { dispatcher with
      submitted := dispatcher.submitted + 1
      fifo := dispatcher.fifo ++ [⟨dispatcher.submitted, call⟩] }
  | .serve => dispatcher.serve machine
  | .park => dispatcher.park
  | .finishSnapshot index => dispatcher.finishSnapshot digest index
  | .finishRestore index => dispatcher.finishRestore digest index
  | .finishSend index => dispatcher.finishSend index
  | .unpark => dispatcher.unpark
  | .requeue index => dispatcher.requeue index

def run (machine : Machine) (digest : ByteRanges.Bytes → Digest)
    (dispatcher : Dispatcher Digest) (moves : List (Move Digest)) : Dispatcher Digest :=
  moves.foldl (step machine digest) dispatcher

/-- A service that has just booted: programs may be registered, nothing is stored. -/
def boot (slab : ByteRanges.Memory) (allocator : SlabAllocator) (programs : List ProgramEntry) :
    Dispatcher Digest :=
  { engine := { store := { slab := slab, allocator := allocator }, programs := programs } }

end Dispatcher

/-! ### jobs give leases back -/

section Jobs

variable {Digest : Type}

section Views

variable {Seen : Type} (view : ObjectRecord → Seen)
  (blind : ∀ record isProtected, view { record with isProtected := isProtected } = view record)
include blind

theorem restore_protection_view (slices : List (StoredSlice Digest)) (store : Store) (id : String) :
    ((restoreProtection slices store).object id).map view = (store.object id).map view := by
  simp only [restoreProtection]
  induction slices generalizing store with
  | nil => rfl
  | cons slice rest ih =>
    rw [foldl_cons, ih]
    split_ifs
    · exact Store.update_object_map view (fun _ => rfl) fun record => blind record _
    · rfl

omit blind in
theorem place_all_objects (payload : ByteRanges.Bytes) (placements : List Placement) (store : Store) :
    Leaves (placeAll payload placements store) fun after => after.objects = store.objects := by
  induction placements generalizing store with
  | nil => exact rfl
  | cons placement rest ih =>
    simp only [placeAll]
    split
    · exact rfl
    split_ifs
    · exact rfl
    · exact ih _

/-- A restore leaves every record as it is, apart from the protection. -/
theorem restore_body_view [DecidableEq Digest] (digest : ByteRanges.Bytes → Digest) (store : Store)
    (job : RestoreJob Digest) : Leaves (restoreBody digest store job)
      fun after => ∀ id, (after.object id).map view = (store.object id).map view := by
  simp only [restoreBody]
  split
  · exact fun _ => rfl
  apply ensures_bind (leaves_mono (place_all_objects _ _ store) fun after same id => by
    simp only [Store.object, same])
  intro placed same id
  show ((if _ then _ else _ : Store).object id).map view = _
  split_ifs
  · exact (restore_protection_view view blind _ placed id).trans (same id)
  · exact same id

end Views

variable [DecidableEq Digest]

theorem restore_body_leaseless (digest : ByteRanges.Bytes → Digest) (store : Store)
    (job : RestoreJob Digest) : Leaves (restoreBody digest store job) (Store.SameLeases store) :=
  leaves_mono (restore_body_view ObjectRecord.leaseRefs (fun _ _ => rfl) digest store job) fun _ same id =>
    congrArg (Option.getD · 0) (same id)

theorem restore_job_refs (digest : ByteRanges.Bytes → Digest) (store : Store)
    (job : RestoreJob Digest) (id : String) : (restoreJob digest store job).2.refs id =
      (if (restoreJob digest store job).1.isSome ∧ id ∈ job.created then 0 else store.refs id) -
        job.targets.count id := by
  have leases := restore_body_leaseless digest store job
  cases body : restoreBody digest store job with
  | ok restored =>
    rw [body] at leases
    simp [restoreJob, body, Store.release_leases_refs, leases id]
  | error pair =>
    rw [body] at leases
    simp [restoreJob, body, Store.release_leases_refs, Store.rollback_created_refs, leases id]

theorem count_flat_map_erase {Job : Type} {jobs : List Job} {index : Nat} {job : Job}
    (found : jobs[index]? = some job) (held : Job → List String) (id : String) :
    (jobs.flatMap held).count id = (held job).count id + ((jobs.eraseIdx index).flatMap held).count id := by
  obtain ⟨bound, here⟩ := List.getElem?_eq_some_iff.mp found
  have order := here ▸ getElem_cons_eraseIdx_perm bound
  rw [← (order.flatMap_right held).count_eq id, flatMap_cons, count_append]

end Jobs

/-! ### no lost wakeup -/

namespace Dispatcher

variable {Digest : Type} {machine : Machine}
  {digest : ByteRanges.Bytes → Digest} {dispatcher : Dispatcher Digest}

variable [DecidableEq Digest]

/-- A waiting call has an outstanding lease or a coming unpark to wait for, and every
outstanding lease has a thread that will release it. -/
structure Awake (dispatcher : Dispatcher Digest) : Prop where
  waking : dispatcher.parked ≠ [] ∨ dispatcher.parking ≠ none →
    dispatcher.engine.store.Leased ∨ 0 < dispatcher.unparks
  covered : ∀ id, dispatcher.engine.store.refs id ≤ dispatcher.engine.holders.count id

/-- An unpark runs while no call is between its LEASED and the parked list, or while
there is something else left that will wake it. -/
def Timely (dispatcher : Dispatcher Digest) : Move Digest → Prop
  | .unpark => dispatcher.parking = none ∨ dispatcher.engine.store.Leased ∨ 1 < dispatcher.unparks
  | _ => True

def TimelyRun (machine : Machine) (digest : ByteRanges.Bytes → Digest) :
    Dispatcher Digest → List (Move Digest) → Prop
  | _, [] => True
  | dispatcher, move :: moves =>
    dispatcher.Timely move ∧ TimelyRun machine digest (dispatcher.step machine digest move) moves

omit [DecidableEq Digest] in
theorem Awake.serve (awake : Awake dispatcher) : Awake (dispatcher.serve machine) := by
  unfold Dispatcher.serve
  split
  · next call rest idle queue =>
    have effects := handle_effects machine dispatcher.engine call.call
    split
    · next engine handled =>
      rw [handled] at effects
      exact ⟨fun waiting => (awake.waking waiting).imp_left effects.1.leased,
        effects.1.covered awake.covered⟩
    next error engine handled =>
    rw [handled] at effects
    obtain ⟨accounted, _, blamed⟩ := effects
    split_ifs with leased unreachable
    · exact ⟨fun _ => .inl (blamed leased).1, accounted.covered awake.covered⟩
    · -- the hook of the failed send leaves nobody parked
      refine ⟨fun waiting => ?_, accounted.covered awake.covered⟩
      rcases waiting with parked | parking
      · exact absurd rfl parked
      · exact absurd idle parking
    · exact ⟨fun waiting => (awake.waking waiting).imp_left accounted.leased,
        accounted.covered awake.covered⟩
  · exact awake

omit [DecidableEq Digest] in
theorem Awake.park (awake : Awake dispatcher) : Awake dispatcher.park := by
  unfold Dispatcher.park
  split
  · exact awake
  · next call waiting =>
    refine ⟨fun _ => awake.waking (.inr ?_), awake.covered⟩
    rw [waiting]
    exact Option.some_ne_none call

omit [DecidableEq Digest] in
theorem Awake.released {engine : EngineState Digest}
    (covered : ∀ id, engine.store.refs id ≤ engine.holders.count id) :
    Awake (dispatcher.released engine) :=
  ⟨fun _ => .inr (Nat.succ_pos _), covered⟩

section

variable (awake : Awake dispatcher)
include awake

omit [DecidableEq Digest] in
theorem Awake.finishSnapshot (index : Nat) : Awake (dispatcher.finishSnapshot digest index) := by
  unfold Dispatcher.finishSnapshot
  split
  · exact awake
  next job found =>
  apply Awake.released
  intro id
  have bound := awake.covered id
  have erased := count_flat_map_erase found SnapshotJob.leaseIds id
  simp only [snapshotJob, Store.release_leases_refs, holders, count_append] at bound ⊢
  omega

theorem Awake.finishRestore (index : Nat) : Awake (dispatcher.finishRestore digest index) := by
  unfold Dispatcher.finishRestore
  split
  · exact awake
  next job found =>
  apply Awake.released
  intro id
  have bound := awake.covered id
  have erased := count_flat_map_erase found RestoreJob.targets id
  have given := restore_job_refs digest dispatcher.engine.store job id
  simp only [holders, count_append] at bound ⊢
  split_ifs at given <;> omega

omit [DecidableEq Digest] in
theorem Awake.finishSend (index : Nat) : Awake (dispatcher.finishSend index) := by
  unfold Dispatcher.finishSend
  split
  · exact awake
  next sent found =>
  apply Awake.released
  intro id
  have bound := awake.covered id
  have erased := count_flat_map_erase found (fun sent => [sent]) id
  simp only [flatMap_singleton'] at erased
  simp only [Store.release_leases_refs, holders, count_append] at bound ⊢
  omega

omit [DecidableEq Digest] in
theorem Awake.unpark (timely : dispatcher.Timely .unpark) : Awake dispatcher.unpark := by
  unfold Dispatcher.unpark
  split_ifs with idle
  · exact awake
  refine ⟨fun waiting => ?_, awake.covered⟩
  rcases waiting with parked | parking
  · exact absurd rfl parked
  rcases timely with none_parking | leased | another
  · exact absurd none_parking parking
  · exact .inl leased
  · right
    show 0 < dispatcher.unparks - 1
    omega

omit [DecidableEq Digest] in
theorem Awake.requeue (index : Nat) : Awake (dispatcher.requeue index) := by
  unfold Dispatcher.requeue
  split
  · exact ⟨awake.waking, awake.covered⟩
  · exact awake

theorem Awake.step (move : Move Digest)
    (timely : dispatcher.Timely move) : Awake (dispatcher.step machine digest move) := by
  cases move with
  | submit call => exact ⟨awake.waking, awake.covered⟩
  | serve => exact awake.serve
  | park => exact awake.park
  | finishSnapshot index => exact awake.finishSnapshot index
  | finishRestore index => exact awake.finishRestore index
  | finishSend index => exact awake.finishSend index
  | unpark => exact awake.unpark timely
  | requeue index => exact awake.requeue index

theorem Awake.run (moves : List (Move Digest))
    (timely : TimelyRun machine digest dispatcher moves) :
    Awake (dispatcher.run machine digest moves) := by
  induction moves generalizing dispatcher with
  | nil => exact awake
  | cons move moves ih => exact ih (awake.step move timely.1) timely.2

end

/-! ### waking -/

omit [DecidableEq Digest] in
theorem boot_awake (slab : ByteRanges.Memory) (allocator : SlabAllocator)
    (programs : List ProgramEntry) : Awake (boot slab allocator programs : Dispatcher Digest) := by
  constructor
  · rintro (parked | parking)
    · exact absurd rfl parked
    · exact absurd rfl parking
  · exact fun _ => Nat.le_refl 0

/-- The releasing threads alone bring the call back to the queue. -/
def Wakes (machine : Machine) (digest : ByteRanges.Bytes → Digest)
    (dispatcher : Dispatcher Digest) (call : QueuedCall Digest) : Prop :=
  ∃ moves : List (Move Digest), (∀ move ∈ moves, move.releases = true) ∧
    call ∈ (dispatcher.run machine digest moves).fifo

theorem requeue_all (index : Nat) (calls : List (QueuedCall Digest))
    (taken : dispatcher.requeues[index]? = some calls) :
    (dispatcher.run machine digest (replicate calls.length (.requeue index))).fifo =
      dispatcher.fifo ++ calls := by
  induction calls generalizing dispatcher with
  | nil => simp [run]
  | cons call rest ih =>
    have moved : dispatcher.requeue index = { dispatcher with
        fifo := dispatcher.fifo ++ [call]
        requeues := dispatcher.requeues.set index rest } := by
      simp only [Dispatcher.requeue, taken]
    obtain ⟨bound, _⟩ := List.getElem?_eq_some_iff.mp taken
    have left : (dispatcher.requeue index).requeues[index]? = some rest := by
      rw [moved]
      exact getElem?_set_self bound
    have later := ih left
    rw [moved] at later
    simp only [run, length_cons, replicate_succ, foldl_cons, step, moved]
    simpa only [run, append_assoc, singleton_append] using later

theorem wakes_of_unpark (coming : 0 < dispatcher.unparks) {call : QueuedCall Digest}
    (waiting : call ∈ dispatcher.parked) : Wakes machine digest dispatcher call := by
  have running : dispatcher.unpark.requeues[dispatcher.requeues.length]? =
      some dispatcher.parked := by
    rw [Dispatcher.unpark, if_neg (Nat.pos_iff_ne_zero.mp coming)]
    exact getElem?_concat_length
  refine ⟨.unpark :: replicate dispatcher.parked.length (.requeue dispatcher.requeues.length),
    ?_, ?_⟩
  · intro move mem
    rcases mem_cons.mp mem with first | later
    · rw [first]
      rfl
    · rw [eq_of_mem_replicate later]
      rfl
  · show call ∈ (dispatcher.unpark.run machine digest _).fifo
    rw [requeue_all _ _ running]
    exact mem_append_right _ waiting

theorem wakes_after {move : Move Digest} {call : QueuedCall Digest} (release : move.releases = true)
    (wakes : Wakes machine digest (dispatcher.step machine digest move) call) :
    Wakes machine digest dispatcher call := by
  obtain ⟨moves, releases, back⟩ := wakes
  refine ⟨move :: moves, ?_, back⟩
  intro other mem
  rcases mem_cons.mp mem with first | later
  · exact first ▸ release
  · exact releases other later

theorem exists_finish (awake : Awake dispatcher) (leased : dispatcher.engine.store.Leased) :
    ∃ move : Move Digest, move.releases = true ∧
      (dispatcher.step machine digest move).parked = dispatcher.parked ∧
      0 < (dispatcher.step machine digest move).unparks := by
  obtain ⟨id, held⟩ := leased
  have listed := count_pos_iff.mp (Nat.lt_of_lt_of_le held (awake.covered id))
  rcases mem_append.mp listed with job | send
  · rcases mem_append.mp job with snapshot | restore
    · obtain ⟨job, queued, _⟩ := mem_flatMap.mp snapshot
      obtain ⟨index, found⟩ := mem_iff_getElem?.mp queued
      refine ⟨.finishSnapshot index, rfl, ?_⟩
      simp [step, Dispatcher.finishSnapshot, found, Dispatcher.released]
    · obtain ⟨job, queued, _⟩ := mem_flatMap.mp restore
      obtain ⟨index, found⟩ := mem_iff_getElem?.mp queued
      refine ⟨.finishRestore index, rfl, ?_⟩
      simp [step, Dispatcher.finishRestore, found, Dispatcher.released]
  · obtain ⟨index, found⟩ := mem_iff_getElem?.mp send
    refine ⟨.finishSend index, rfl, ?_⟩
    simp [step, Dispatcher.finishSend, found, Dispatcher.released]

/-- In every timely run a parked call waits for a lease or an unpark that is still to
come, and the threads that owe them bring it back. -/
theorem parked_call_wakes (machine : Machine) (digest : ByteRanges.Bytes → Digest)
    (slab : ByteRanges.Memory) (allocator : SlabAllocator) (programs : List ProgramEntry)
    (moves : List (Move Digest))
    (timely : TimelyRun machine digest (boot slab allocator programs) moves)
    (call : QueuedCall Digest)
    (waiting : call ∈ ((boot slab allocator programs).run machine digest moves).parked) :
    (((boot slab allocator programs).run machine digest moves).engine.store.Leased ∨
        0 < ((boot slab allocator programs).run machine digest moves).unparks) ∧
      Wakes machine digest ((boot slab allocator programs).run machine digest moves) call := by
  have awake := (boot_awake slab allocator programs).run moves timely
  have owed := awake.waking (.inl (ne_nil_of_mem waiting))
  refine ⟨owed, ?_⟩
  rcases owed with leased | coming
  · obtain ⟨move, release, kept, pending⟩ := exists_finish awake leased
    exact wakes_after release (wakes_of_unpark pending (kept ▸ waiting))
  · exact wakes_of_unpark coming waiting

def noMachine : Machine :=
  { prepare := fun _ => .ok (), execute := fun _ _ store => ⟨store.slab, store.allocator, .ok []⟩ }

def smallBoot : Dispatcher Unit :=
  boot (fun _ => 0) { capacity := 8192, free := [⟨0, 8192⟩] } []

/-- A put on an object that a snapshot has leased. -/
def leasedPut : List (Move Unit) :=
  [.submit (.putObject "a" (some [1]) []), .serve, .submit (.snapshot none), .serve,
    .submit (.putObject "a" (some [2]) []), .serve]

theorem parked_call_wakes_put : ⟨2, .putObject "a" (some [2]) []⟩ ∈
        (smallBoot.run noMachine (fun _ => ()) (leasedPut ++ [.park])).parked ∧
      Wakes noMachine (fun _ => ()) (smallBoot.run noMachine (fun _ => ()) (leasedPut ++ [.park]))
        ⟨2, .putObject "a" (some [2]) []⟩ := by
  have waiting : ⟨2, .putObject "a" (some [2]) []⟩ ∈
      (smallBoot.run noMachine (fun _ => ()) (leasedPut ++ [.park])).parked := by
    decide +kernel
  have timely : TimelyRun noMachine (fun _ => ()) smallBoot (leasedPut ++ [.park]) := by
    simp [leasedPut, TimelyRun, Timely]
  exact ⟨waiting, (parked_call_wakes noMachine (fun _ => ()) _ _ _ _ timely _ waiting).2⟩

/-- The snapshot ends and unparks between the LEASED of the put and its append: the put
stays parked with no lease, no job and no unpark left. -/
theorem put_parked_after_last_unpark :
    let last := smallBoot.run noMachine (fun _ => ())
      (leasedPut ++ [.finishSnapshot 0, .unpark, .park])
    last.parked = [⟨2, .putObject "a" (some [2]) []⟩] ∧
      last.engine.store.objects.map ObjectRecord.leaseRefs = [0] ∧
      last.engine.holders = [] ∧ last.unparks = 0 ∧ last.fifo = [] ∧ last.requeues = [[]] := by
  decide +kernel

end Dispatcher

end Dataflow.Service
