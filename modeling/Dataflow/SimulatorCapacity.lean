import Dataflow.Simulator

/-!
The simulator's accounting. After every event, at the end of a run and wherever
a run raises, the tracked byte total of a location is the sum of the sizes in
its pool. If no size is negative, resident fast bytes and the workspace of the
running task stay within the fast capacity, and the over-commit check after the
reservations of a launch never fires.
-/

namespace Dataflow.Sim

open StatefulOutcome KeyedTable List

def residentBytes (location : Location) (pool : List PoolEntry) : Int :=
  KeyedTable.total (fun entry => if entry.location = location then entry.size else 0) pool

/-- An accepted chain without negative sizes. -/
structure Sized (chain : TaskChain) : Prop where
  accepted : validateChain chain = none
  objects : ∀ object ∈ chain.initialMemory, 0 ≤ object.size
  outputs : ∀ task ∈ chain.tasks, ∀ output ∈ task.outputs, 0 ≤ output.size

def WithinFast (chain : TaskChain) (bytes : Int) : Prop :=
  ∀ capacity, chain.fastMemoryCapacity = some capacity → bytes ≤ capacity

/-- What an event's snapshot shows. -/
structure EventSound (chain : TaskChain) (event : Event) : Prop where
  fast : event.fastTotal = residentBytes .fast event.memory
  backing : event.backingTotal = residentBytes .backing event.memory
  within : Sized chain → WithinFast chain (event.fastTotal + event.workspace)

def SimState.waiting (state : SimState) : List Queued :=
  state.fromSlow.queue ++ state.toSlow.queue ++ state.deferred

/-- The sizes under which the chain brings objects in. -/
def TaskChain.declared (chain : TaskChain) : List (String × Int) :=
  chain.initialMemory.map (fun object => (object.id, object.size)) ++
    (chain.tasks.flatMap Task.outputs).map fun output => (output.id, output.size)

structure Fits (chain : TaskChain) (state : SimState) : Prop where
  workspace : 0 ≤ state.activeWorkspace
  within : WithinFast chain (state.total .fast + state.activeWorkspace)

structure Accounted (chain : TaskChain) (state : SimState) : Prop where
  distinct : (state.pool.map PoolEntry.key).Nodup
  declared : ∀ entry ∈ state.pool, (entry.id, entry.size) ∈ chain.declared
  asked : ∀ transfer ∈ state.waiting, (transfer.objId, transfer.srcSize) ∈ chain.declared
  totals : ∀ location, state.total location = residentBytes location state.pool
  events : ∀ event ∈ state.events, EventSound chain event
  fits : Sized chain → Fits chain state

/-- A run that raises leaves accounted state, and it is not over-committed. -/
def Raised (chain : TaskChain) (fault : SimError) (state : SimState) : Prop :=
  Accounted chain state ∧ (Sized chain → ∀ task used capacity,
    fault ≠ .overCommitted task used capacity)

abbrev Respects (chain : TaskChain) (run : Simulation SimState) : Prop :=
  Ensures run (Accounted chain) (Raised chain)

section Primitives

variable {chain : TaskChain} {state next : SimState} {entry : PoolEntry} {object : String}
  {location : Location} {direction : Direction}

@[simp] theorem total_add_total (other : Location) (bytes : Int) :
    (state.addTotal location bytes).total other =
      state.total other + if location = other then bytes else 0 := by
  cases location <;> cases other <;> simp [SimState.addTotal, SimState.total]

theorem add_total_same (state : SimState) (location : Location) (bytes : Int) :
    let next := state.addTotal location bytes
    next.pool = state.pool ∧ next.events = state.events ∧ next.waiting = state.waiting ∧
      next.activeWorkspace = state.activeWorkspace := by
  cases location <;> exact ⟨rfl, rfl, rfl, rfl⟩

theorem Sized.declared {size : Int} (sized : Sized chain) (known : (object, size) ∈ chain.declared) :
    0 ≤ size := by
  rcases mem_append.mp known with initial | made
  · obtain ⟨source, listed, same⟩ := mem_map.mp initial
    cases same
    exact sized.objects source listed
  · obtain ⟨output, listed, same⟩ := mem_map.mp made
    obtain ⟨task, mem, inside⟩ := mem_flatMap.mp listed
    cases same
    exact sized.outputs task mem output inside

theorem entry_key (found : state.entry object location = some entry) :
    entry.key = (object, location) :=
  lookup_key found

section

variable (held : Accounted chain state)
include held

/-- Nothing the accounting reads has changed, except that transfers may be waiting elsewhere. -/
theorem Accounted.carry (pool : next.pool = state.pool)
    (totals : ∀ location, next.total location = state.total location)
    (workspace : next.activeWorkspace = state.activeWorkspace) (events : next.events = state.events)
    (waiting : ∀ transfer ∈ next.waiting,
      transfer ∈ state.waiting ∨ (transfer.objId, transfer.srcSize) ∈ chain.declared) :
    Accounted chain next where
  distinct := pool ▸ held.distinct
  declared := pool ▸ held.declared
  asked transfer mem := (waiting transfer mem).elim (held.asked transfer) id
  totals location := by rw [totals, pool, held.totals]
  events := events ▸ held.events
  fits sized := by
    refine ⟨workspace ▸ (held.fits sized).workspace, ?_⟩
    rw [workspace, totals]
    exact (held.fits sized).within

theorem entry_declared
    (found : state.entry object location = some entry) : (object, entry.size) ∈ chain.declared := by
  obtain rfl := congrArg Prod.fst (entry_key found)
  exact held.declared entry (lookup_mem found)

theorem Accounted.emit (kind : EventKind) (t : ℚ) : Accounted chain (state.emit kind t) :=
  { held with
    events := forall_mem_concat held.events
      ⟨held.totals .fast, held.totals .backing, fun sized => (held.fits sized).within⟩
    fits := fun sized => { held.fits sized with } }

theorem Accounted.set_entry (object : String) (location : Location)
    (changed : MemoryState) : Accounted chain (state.setEntry object location changed) := by
  have keeps : ∀ entry : PoolEntry, PoolEntry.key { entry with state := changed } = entry.key :=
    fun _ => rfl
  have entries : ∀ entry ∈ (state.setEntry object location changed).pool,
      (entry.id, entry.size) ∈ chain.declared := by
    intro entry mem
    obtain ⟨before, listed, rfl⟩ := mem_map.mp mem
    have known := held.declared before listed
    split_ifs <;> exact known
  have bytes : ∀ place, residentBytes place (state.setEntry object location changed).pool =
      residentBytes place state.pool := by
    intro place
    simp only [SimState.setEntry, residentBytes, KeyedTable.update, KeyedTable.total, map_map]
    congr 1
    apply map_congr_left
    intro entry _
    by_cases hit : entry.key = (object, location) <;> simp [hit]
  exact { held with
    distinct := (keys_update keeps).symm ▸ held.distinct
    declared := entries
    totals := fun place => (held.totals place).trans (bytes place).symm
    fits := fun sized => { held.fits sized with } }

theorem Accounted.insert
    (absent : state.entry entry.id entry.location = none)
    (known : (entry.id, entry.size) ∈ chain.declared)
    (room : Sized chain → WithinFast chain
      (state.total .fast + (if entry.location = .fast then entry.size else 0) +
        state.activeWorkspace)) :
    Accounted chain (state.insert entry) := by
  obtain ⟨pool, rest⟩ : (state.insert entry).pool = state.pool ++ [entry] ∧
      (state.insert entry).events = state.events ∧
      (state.insert entry).waiting = state.waiting ∧
      (state.insert entry).activeWorkspace = state.activeWorkspace := add_total_same _ _ _
  have totals : ∀ place, (state.insert entry).total place =
      state.total place + if entry.location = place then entry.size else 0 := by
    intro place
    exact total_add_total place entry.size
  refine ⟨?_, ?_, rest.2.1 ▸ held.asked, fun place => ?_, rest.1 ▸ held.events, fun sized => ?_⟩
  · rw [pool]
    exact keys_append_nodup held.distinct (lookup_none.mp absent)
  · rw [pool]
    exact forall_mem_concat held.declared known
  · rw [totals, held.totals, pool]
    simp [residentBytes]
  · refine ⟨rest.2.2 ▸ (held.fits sized).workspace, ?_⟩
    rw [totals, rest.2.2]
    exact room sized

theorem Accounted.remove
    (found : state.entry object location = some entry) : Accounted chain (state.remove entry) := by
  have found' : KeyedTable.lookup PoolEntry.key entry.key state.pool = some entry := by
    rw [entry_key found]
    exact found
  obtain ⟨pool, rest⟩ :
      (state.remove entry).pool = KeyedTable.remove PoolEntry.key entry.key state.pool ∧
      (state.remove entry).events = state.events ∧
      (state.remove entry).waiting = state.waiting ∧
      (state.remove entry).activeWorkspace = state.activeWorkspace := add_total_same _ _ _
  have totals : ∀ place, (state.remove entry).total place =
      state.total place - if entry.location = place then entry.size else 0 := by
    intro place
    refine (total_add_total place (-entry.size)).trans ?_
    split_ifs <;> simp [SimState.total, sub_eq_add_neg]
  have fewer : ∀ other ∈ (state.remove entry).pool, (other.id, other.size) ∈ chain.declared := by
    intro other mem
    rw [pool] at mem
    exact held.declared other (mem_of_mem_filter mem)
  refine ⟨?_, fewer, rest.2.1 ▸ held.asked, fun place => ?_, rest.1 ▸ held.events, fun sized => ?_⟩
  · rw [pool]
    exact keys_remove_nodup held.distinct
  · rw [totals, held.totals, pool, residentBytes, residentBytes, total_remove held.distinct found']
  refine ⟨rest.2.2 ▸ (held.fits sized).workspace, fun capacity limited => ?_⟩
  have before := (held.fits sized).within capacity limited
  have size := sized.declared (held.declared entry (lookup_mem found))
  rw [totals, rest.2.2]
  split_ifs <;> omega

end

end Primitives

/-! ### transfers -/

section Transfers

variable {chain : TaskChain} {state next : SimState} {object : String} {location : Location}
  {direction : Direction} {transfer : Queued} {flight : InFlight} {fault : SimError}

section

variable (held : Accounted chain state)
include held

theorem Accounted.raises (other : ∀ task used capacity, fault ≠ .overCommitted task used capacity) :
    Raised chain fault state :=
  ⟨held, fun _ => other⟩

theorem require_accounted (object : String) (location : Location) :
    Ensures (state.require object location) (fun entry => state.entry object location = some entry)
      (Raised chain) := by
  unfold SimState.require
  cases found : state.entry object location with
  | none => exact held.raises (by simp)
  | some entry => rfl

theorem set_lane_accounted (direction : Direction) (lane : Lane)
    (waiting : ∀ transfer ∈ lane.queue, transfer ∈ (state.lane direction).queue) :
    Accounted chain (state.setLane direction lane) := by
  cases direction with
  | fromSlow =>
    refine held.carry rfl (fun _ => rfl) rfl rfl fun transfer => ?_
    simp only [SimState.waiting, SimState.setLane, mem_append]
    exact fun mem => .inl (mem.imp_left (Or.imp_left (waiting transfer)))
  | toSlow =>
    refine held.carry rfl (fun _ => rfl) rfl rfl fun transfer => ?_
    simp only [SimState.waiting, SimState.setLane, mem_append]
    exact fun mem => .inl (mem.imp_left (Or.imp_right (waiting transfer)))

theorem enqueue_accounted (direction : Direction)
    (known : (transfer.objId, transfer.srcSize) ∈ chain.declared) :
    Accounted chain (state.enqueue direction transfer) := by
  cases direction with
  | fromSlow | toSlow =>
    refine held.carry rfl (fun _ => rfl) rfl rfl fun other => ?_
    simp only [SimState.waiting, SimState.enqueue, SimState.setLane, SimState.lane,
      mem_append, mem_singleton]
    grind

end

theorem unblocked_room (free : blocked chain direction transfer state = false)
    (absent : state.entry transfer.objId (destination direction) = none)
    (within : WithinFast chain (state.total .fast + state.activeWorkspace)) :
    WithinFast chain (state.total .fast +
      (if destination direction = .fast then transfer.srcSize else 0) + state.activeWorkspace) := by
  intro capacity limited
  have before := within capacity limited
  cases direction with
  | fromSlow =>
    rw [destination] at absent
    have room : transfer.srcSize ≤ capacity - state.total .fast - state.activeWorkspace := by
      simpa [blocked, destination, TaskChain.capacity, limited, absent] using free
    omega
  | toSlow => simpa [destination] using before

theorem open_destination_accounted (held : Accounted chain state)
    (free : blocked chain direction transfer state = false)
    (known : (transfer.objId, transfer.srcSize) ∈ chain.declared) :
    Respects chain (openDestination direction transfer state) := by
  simp only [openDestination]
  split
  case h_1 found =>
      refine held.insert ?_ known fun regular => ?_
      · exact found
      · exact unblocked_room free found (held.fits regular).within
  case h_2 existing found =>
      split_ifs
      · exact held.raises (by simp)
      · exact held.set_entry _ _ _

theorem begin_transfer_accounted (held : Accounted chain state) (direction : Direction) (now : ℚ) :
    Accounted chain (beginTransfer direction transfer now state) := by
  apply Accounted.emit
  have flying := set_lane_accounted held direction { state.lane direction with
    inFlight := some
      { objId := transfer.objId, srcSize := transfer.srcSize
        startT := now, endT := now + transfer.runtime } } fun _ => id
  exact flying.carry rfl (fun _ => rfl) rfl rfl fun _ => .inl

theorem size_set_entry (object other : String) (location place : Location) (changed : MemoryState) :
    ((state.setEntry object location changed).entry other place).map (·.size) =
      (state.entry other place).map (·.size) := by
  have keeps : ∀ entry : PoolEntry, PoolEntry.key { entry with state := changed } = entry.key :=
    fun _ => rfl
  simp only [SimState.entry, SimState.setEntry]
  by_cases same : (other, place) = (object, location)
  · rw [same, lookup_update_self keeps, Option.map_map]
    rfl
  · rw [lookup_update_other keeps same]

theorem blocked_congr (state : SimState) {next : SimState}
    (same : ∀ place, (next.entry transfer.objId place).map (·.size) =
      (state.entry transfer.objId place).map (·.size))
    (totals : ∀ place, next.total place = state.total place)
    (workspace : next.activeWorkspace = state.activeWorkspace) :
    blocked chain direction transfer next = blocked chain direction transfer state := by
  simp only [blocked, same, totals, workspace]

section

variable (held : Accounted chain state)
include held

theorem head_declared {rest : List Queued}
    (queued : (state.lane direction).queue = transfer :: rest) :
    (transfer.objId, transfer.srcSize) ∈ chain.declared := by
  apply held.asked
  have mem := queued ▸ mem_cons_self
  cases direction with
  | fromSlow => exact mem_append_left _ (mem_append_left _ mem)
  | toSlow => exact mem_append_left _ (mem_append_right _ mem)

theorem mark_source_accounted (direction : Direction) :
    Ensures (markSource direction transfer state) (fun next => Accounted chain next ∧
        blocked chain direction transfer next = blocked chain direction transfer state)
      (Raised chain) := by
  cases direction with
  | fromSlow => exact ⟨held, rfl⟩
  | toSlow =>
    refine ensures_bind (require_accounted held transfer.objId .fast) fun _ _ => ?_
    exact ⟨held.set_entry _ _ _, blocked_congr _ (fun place => size_set_entry _ _ _ place _)
      (fun _ => rfl) rfl⟩

theorem try_start_accounted (direction : Direction) (now : ℚ) :
    Respects chain (tryStart chain direction now state) := by
  unfold tryStart
  split
  case h_2 => exact held
  case h_1 transfer rest idle queued =>
      split_ifs with full
      · exact held
      have popped := set_lane_accounted held direction { inFlight := none, queue := rest }
        fun other mem => queued ▸ mem_cons_of_mem transfer mem
      have room : blocked chain direction transfer
          (state.setLane direction { inFlight := none, queue := rest }) = false := by
        rw [← Bool.not_eq_true, blocked_congr state]
        · exact full
        · cases direction <;> exact fun _ => rfl
        · cases direction <;> exact fun place => by cases place <;> rfl
        · cases direction <;> rfl
      refine ensures_bind (mark_source_accounted popped direction) fun marked fine => ?_
      refine ensures_bind (open_destination_accounted fine.1 (fine.2.trans room)
        (head_declared held queued)) fun opened kept => ?_
      exact begin_transfer_accounted kept direction now

theorem activate_deferred_accounted (object : String) (t : ℚ) :
    Accounted chain (activateDeferred object t state) := by
  unfold activateDeferred
  have known : ∀ transfer ∈ state.deferred.filter (·.objId = object),
      (transfer.objId, transfer.srcSize) ∈ chain.declared := fun transfer mem =>
    held.asked transfer (mem_append_right _ (mem_of_mem_filter mem))
  have start : Accounted chain
      { state with deferred := state.deferred.filter (·.objId ≠ object) } := by
    refine held.carry rfl (fun _ => rfl) rfl rfl fun transfer => ?_
    simp only [SimState.waiting, mem_append]
    exact fun mem => .inl (mem.imp_right mem_of_mem_filter)
  revert known
  generalize state.deferred.filter (·.objId = object) = waiters
  generalize { state with deferred := state.deferred.filter (·.objId ≠ object) } = begun at start
  intro known
  induction waiters generalizing begun with
  | nil => exact start
  | cons transfer rest ih =>
    apply ih
    · exact (enqueue_accounted start .fromSlow (known transfer mem_cons_self)).emit _ _
    · exact (forall_mem_cons.mp known).2

theorem settle_entries_accounted (direction : Direction) :
    Respects chain (settleEntries direction flight state) := by
  cases direction with
  | fromSlow =>
    refine ensures_bind (require_accounted held flight.objId .fast) fun _ _ => ?_
    exact held.set_entry _ _ _
  | toSlow =>
    refine ensures_bind (require_accounted held flight.objId .fast) fun source found => ?_
    have freed := held.remove found
    refine ensures_bind (require_accounted freed flight.objId .backing) fun _ _ => ?_
    exact freed.set_entry _ _ _

theorem complete_accounted (direction : Direction) :
    Respects chain (complete direction flight state) := by
  refine ensures_bind (settle_entries_accounted held direction) fun settled fine => ?_
  have idle := set_lane_accounted fine direction { settled.lane direction with inFlight := none }
    fun _ => id
  have ended := idle.emit (.transferEnd direction flight.objId) flight.endT
  cases direction with
  | fromSlow => exact ended
  | toSlow => exact activate_deferred_accounted ended _ _

theorem settle_accounted (direction : Direction) :
    Respects chain (settle chain direction flight state) := by
  refine ensures_bind (complete_accounted held direction) fun completed fine => ?_
  refine ensures_bind (try_start_accounted fine direction flight.endT) fun started kept => ?_
  cases direction with
  | fromSlow => exact kept
  | toSlow => exact try_start_accounted kept .fromSlow flight.endT

end

theorem advance_loop_accounted (target : ℚ) (fuel : Nat) (held : Accounted chain state) :
    Respects chain (advanceLoop chain target fuel state) := by
  induction fuel generalizing state with
  | zero => exact held
  | succ fuel ih =>
    unfold advanceLoop
    split
    · exact held
    · split_ifs
      · exact held
      · exact ensures_bind (settle_accounted held _) fun settled fine => ih fine

theorem drain_loop_accounted (fuel : Nat) (held : Accounted chain state) :
    Respects chain (drainLoop chain fuel state) := by
  induction fuel generalizing state with
  | zero => exact held
  | succ fuel ih =>
    unfold drainLoop
    split
    · exact held
    · exact ensures_bind (settle_accounted held _) fun settled fine => ih fine

end Transfers

/-! ### one task -/

section Tasks

variable {chain : TaskChain} {state : SimState} {task : Task} {position : Nat}

section

variable (held : Accounted chain state)
include held

theorem deferred_ready_accounted (object : String) (now : ℚ) :
    Ensures (deferredPrefetchReadyT object now state) (fun _ => True) (Raised chain) := by
  unfold deferredPrefetchReadyT
  split
  · exact held.raises (by simp)
  · split
    · exact held.raises (by simp)
    · trivial

theorem input_ready_accounted (object : String) (now : ℚ) :
    Ensures (inputReadyT object now state) (fun _ => True) (Raised chain) := by
  have deferred := deferred_ready_accounted held object now
  simp only [inputReadyT]
  split
  · split_ifs
    · exact deferred
    · split
      · trivial
      · exact held.raises (by simp)
    · split
      · trivial
      · exact held.raises (by simp)
  split
  · trivial
  · split
    · trivial
    · exact held.raises (by simp)
  · split_ifs
    · exact deferred
    · exact held.raises (by simp)
  · split_ifs
    · exact deferred
    · exact held.raises (by simp)
  · exact held.raises (by simp)
  · exact held.raises (by simp)

theorem reservation_ready_accounted (needed : Int) (now : ℚ) (name : String) :
    Ensures (computeReservationReadyT chain needed now name state) (fun _ => True)
      (Raised chain) := by
  simp only [computeReservationReadyT]
  split
  · trivial
  split_ifs
  · trivial
  · split
    · trivial
    · exact held.raises (by simp)

theorem target_start_accounted (task : Task) :
    Ensures (targetStart chain task state) (fun _ => True) (Raised chain) := by
  have inputs : ∀ object ∈ task.inputs, ∀ target : ℚ, True → Ensures (do
      let ready ← inputReadyT object state.computeBusyUntil state
      pure (max target ready)) (fun _ => True) (Raised chain) := fun object _ _ _ =>
    ensures_bind (input_ready_accounted held object _) fun _ _ => trivial
  refine ensures_bind (ensures_foldlM_const _ _ inputs _ trivial) fun _ _ => ?_
  split_ifs
  · exact ensures_bind (reservation_ready_accounted held _ _ _) fun _ _ => trivial
  · trivial

end

theorem wait_ready_accounted (fuel : Nat) (target : ℚ) (held : Accounted chain state) :
    Ensures (waitReady chain task fuel target state)
      (fun found => Accounted chain found.2 ∧ readyToRun chain task found.2 = true)
      (Raised chain) := by
  induction fuel generalizing target state with
  | zero =>
    unfold waitReady
    split_ifs with ready
    · exact ⟨held, ready⟩
    · exact held.raises (by simp [fastDeadlock])
  | succ fuel ih =>
    unfold waitReady
    split_ifs with ready
    · exact ⟨held, ready⟩
    refine ensures_bind (try_start_accounted held _ _) fun arriving fine => ?_
    refine ensures_bind (try_start_accounted fine _ _) fun started kept => ?_
    split
    · exact kept.raises (by simp [fastDeadlock])
    · exact ensures_bind (advance_loop_accounted _ _ kept) fun advanced settled => ih _ settled

def PoolEntry.fastBytes (entry : PoolEntry) : Int :=
  if entry.location = .fast then entry.size else 0

theorem insert_all_accounted {Item : Type} (items : List Item)
    (collides : Item → SimError) (entryOf : Item → PoolEntry)
    (other : ∀ item task used capacity, collides item ≠ .overCommitted task used capacity)
    (known : ∀ item ∈ items, ((entryOf item).id, (entryOf item).size) ∈ chain.declared) (held : Accounted chain state)
    (room : Sized chain → WithinFast chain (state.total .fast + state.activeWorkspace +
      KeyedTable.total (fun item => (entryOf item).fastBytes) items)) :
    Respects chain (items.foldlM (fun state item => state.insertNew (collides item) (entryOf item)) state) := by
  induction items generalizing state with
  | nil => exact held
  | cons item rest ih =>
    have later : ∀ other ∈ rest, ((entryOf other).id, (entryOf other).size) ∈ chain.declared :=
      (forall_mem_cons.mp known).2
    rw [foldlM_cons]
    unfold SimState.insertNew
    split_ifs with taken
    · exact held.raises (other item)
    have absent := Option.not_isSome_iff_eq_none.mp taken
    have total : (state.insert (entryOf item)).total .fast =
        state.total .fast + (entryOf item).fastBytes :=
      total_add_total .fast (entryOf item).size
    have workspace : (state.insert (entryOf item)).activeWorkspace = state.activeWorkspace :=
      (add_total_same _ _ _).2.2.2
    refine ih later (held.insert absent (known item mem_cons_self)
      fun regular capacity limited => ?_) fun regular capacity limited => ?_
    · have bound := room regular capacity limited
      have after : 0 ≤ KeyedTable.total (fun item => (entryOf item).fastBytes) rest := by
        apply total_nonneg
        intro other mem
        have size := regular.declared (later other mem)
        unfold PoolEntry.fastBytes
        split_ifs <;> omega
      rw [total_cons] at bound
      rw [← PoolEntry.fastBytes]
      omega
    · have bound := room regular capacity limited
      rw [total_cons] at bound
      omega

theorem output_bytes_total (task : Task) : task.outputBytes .fast = KeyedTable.total
    (fun output : OutputAlloc => if output.location = .fast then output.size else 0)
    task.outputs :=
  total_filter

theorem output_bytes_nonneg (sized : ∀ output ∈ task.outputs, 0 ≤ output.size) :
    0 ≤ task.outputBytes .fast := by
  rw [output_bytes_total]
  apply total_nonneg
  intro output listed
  have size := sized output listed
  split_ifs <;> omega

theorem output_declared {output : OutputAlloc} (mem : task ∈ chain.tasks)
    (listed : output ∈ task.outputs) : (output.id, output.size) ∈ chain.declared :=
  mem_append_right _ (mem_map.mpr ⟨output, mem_flatMap.mpr ⟨task, mem, listed⟩, rfl⟩)

theorem task_sized (regular : Sized chain) (found : chain.tasks[position]? = some task) :
    (∀ output ∈ task.outputs, 0 ≤ output.size) ∧ 0 ≤ task.workspaceBytes :=
  ⟨regular.outputs task (mem_of_getElem? found), (accepted_task regular.accepted found).workspace⟩

theorem ready_room (found : chain.tasks[position]? = some task) (held : Accounted chain state)
    (ready : readyToRun chain task state = true) (regular : Sized chain) :
    WithinFast chain (state.total .fast + task.workspaceBytes + task.outputBytes .fast) := by
  obtain ⟨sizes, workspace⟩ := task_sized regular found
  obtain ⟨active, within⟩ := held.fits regular
  have reservation : task.reservation = task.outputBytes .fast + task.workspaceBytes := rfl
  intro capacity limited
  have before := within capacity limited
  simp only [readyToRun, overage, limited, decide_eq_true_eq] at ready
  have fits := ready.2
  split_ifs at fits with past
  have bytes : state.total .fast = state.fastTotal := rfl
  -- without a reservation there is nothing to add
  by_cases some : 0 < task.reservation <;> omega

theorem launched_accounted (held : Accounted chain state) (start : ℚ) :
    Accounted chain (startTask.launched task start state) := by
  apply Accounted.emit
  exact held.carry rfl (fun _ => rfl) rfl rfl fun _ => .inl

theorem start_task_accounted (found : chain.tasks[position]? = some task)
    (held : Accounted chain state) (ready : readyToRun chain task state = true) (start : ℚ) :
    Respects chain (startTask chain task start state) := by
  have room := ready_room found held ready
  have active : Accounted chain { state with activeWorkspace := task.workspaceBytes } := by
    refine { held with fits := fun regular => ?_ }
    obtain ⟨outputs, workspace⟩ := task_sized regular found
    refine ⟨workspace, fun capacity limited => ?_⟩
    have bound := room regular capacity limited
    have nonneg := output_bytes_nonneg outputs
    show state.total .fast + task.workspaceBytes ≤ capacity
    omega
  unfold startTask
  split_ifs
  · exact held.raises (by simp)
  have reserves := insert_all_accounted task.outputs
    (fun output => .outputCollides task.id output.id output.location)
    (fun output => ⟨output.id, output.location, output.size, .reserved⟩)
    (by simp) (fun output listed => output_declared (mem_of_getElem? found) listed) active
    (output_bytes_total task ▸ room)
  refine ensures_bind reserves fun reserved fine => ?_
  split
  case h_1 capacity limited =>
      simp only
      split_ifs with past
      · refine ⟨fine, fun regular => ?_⟩
        have bound := (fine.fits regular).within capacity limited
        exact absurd past (not_lt.mpr bound)
      · exact launched_accounted fine start
  case h_2 => exact launched_accounted fine start

section

variable (held : Accounted chain state)
include held

theorem output_live_accounted (output : OutputAlloc) :
    Respects chain (outputLive state output) :=
  ensures_bind (require_accounted held _ _) fun _ _ => held.set_entry _ _ _

theorem apply_release_accounted (object : String) :
    Respects chain (applyRelease chain position task state object) := by
  simp only [applyRelease]
  split
  case h_1 => exact held.raises (by simp)
  case h_2 entry found =>
      have freed := held.remove found
      split_ifs
      · exact held.raises (by simp)
      split
      case h_1 backing there =>
          split_ifs
          · exact freed.remove there
          · exact freed
      case h_2 => exact freed

theorem runtime_of_accounted (direction : Direction) (size : Int) (override : Option ℚ) :
    Ensures (runtimeOf chain direction size override state) (fun _ => True) (Raised chain) := by
  unfold runtimeOf transferRuntime
  split
  case h_1 => trivial
  case h_2 fault raised =>
      apply held.raises
      rintro name used capacity rfl
      split at raised
      · cases raised
      · split at raised
        · cases raised
        · split_ifs at raised
          cases raised

theorem apply_offload_accounted (endT : ℚ) (trigger : TransferTrigger) :
    Respects chain (applyOffload chain task endT state trigger) := by
  unfold applyOffload
  split
  case h_1 => exact held.raises (by simp)
  case h_2 source found =>
      have queues : Respects chain (applyOffload.queueOffload chain endT state trigger source) := by
        refine ensures_bind (runtime_of_accounted held _ _ _) fun _ _ => ?_
        have marked := held.set_entry trigger.objId .fast .pendingOutbound
        exact (enqueue_accounted marked .toSlow (entry_declared held found)).emit _ _
      split_ifs
      · exact held.raises (by simp)
      split
      · exact queues
      · split_ifs
        · exact held.raises (by simp)
        · exact held.raises (by simp)
        · exact queues

theorem apply_prefetch_accounted (endT : ℚ) (trigger : TransferTrigger) :
    Respects chain (applyPrefetch chain task endT state trigger) := by
  simp only [applyPrefetch]
  split_ifs
  · exact held.raises (by simp)
  · refine ensures_bind (runtime_of_accounted held _ _ _) fun _ _ => Accounted.emit ?_ _ _
    refine held.carry rfl (fun _ => rfl) rfl rfl fun other => ?_
    have known : (trigger.objId, (((state.entry trigger.objId .backing).or
        (state.entry trigger.objId .fast)).map (·.size)).getD 0) ∈ chain.declared := by
      cases backing : state.entry trigger.objId .backing with
      | some entry => exact entry_declared held backing
      | none =>
        cases fast : state.entry trigger.objId .fast with
        | some entry => exact entry_declared held fast
        | none => simp_all [offloadInFlight]
    simp only [SimState.waiting, mem_append, mem_singleton]
    grind
  · split
    case h_1 source found =>
        split_ifs
        · exact held.raises (by simp)
        · refine ensures_bind (runtime_of_accounted held _ _ _) fun _ _ => ?_
          exact (enqueue_accounted held .fromSlow (entry_declared held found)).emit _ _
    case h_2 => exact held.raises (by simp)

theorem finish_task_accounted (endT : ℚ) :
    Respects chain (finishTask chain position task endT state) := by
  have idle : Accounted chain { state with activeWorkspace := 0 } := by
    refine { held with fits := fun regular => ?_ }
    obtain ⟨workspace, within⟩ := held.fits regular
    refine ⟨le_refl 0, fun capacity limited => ?_⟩
    have bound := within capacity limited
    show state.total .fast + 0 ≤ capacity
    omega
  refine ensures_bind (ensures_foldlM_const _ task.outputs
    (fun output _ state fine => output_live_accounted fine output) _ idle) fun live fine => ?_
  refine ensures_bind (ensures_foldlM_const _ task.releasesAfter
    (fun object _ state fine => apply_release_accounted fine object) _ (fine.emit _ _))
    fun released kept => ?_
  have noted : Accounted chain (if task.releasesAfter = [] then released
      else released.emit (.release task.releasesAfter) endT) := by
    split_ifs
    · exact kept
    · exact kept.emit _ _
  refine ensures_bind (ensures_foldlM_const _ task.offloadAfter
    (fun trigger _ state fine => apply_offload_accounted fine endT trigger) _ noted)
    fun offloaded fine => ?_
  refine ensures_bind (ensures_foldlM_const _ task.prefetchAfter
    (fun trigger _ state fine => apply_prefetch_accounted fine endT trigger) _ fine)
    fun prefetched fine => ?_
  refine ensures_bind (try_start_accounted fine _ _) fun arriving fine => ?_
  exact try_start_accounted fine _ _

end

theorem run_task_accounted (found : chain.tasks[position]? = some task)
    (held : Accounted chain state) :
    Respects chain (runTask chain position task state) := by
  refine ensures_bind (target_start_accounted held task) fun target _ => ?_
  refine ensures_bind (advance_loop_accounted target _ held) fun advanced fine => ?_
  refine ensures_bind (wait_ready_accounted _ target fine) fun ready kept => ?_
  refine ensures_bind (start_task_accounted found kept.1 kept.2 ready.1) fun started fine => ?_
  refine ensures_bind (advance_loop_accounted _ _ fine) fun elapsed fine => ?_
  exact finish_task_accounted fine _

end Tasks

/-! ### whole runs -/

section Runs

variable {chain : TaskChain} {state : SimState}

theorem initial_within (accepted : validateChain chain = none) :
    WithinFast chain (initialBytes chain .fast) := by
  intro capacity limited
  obtain ⟨_, _, _, clean⟩ := accepted_parts accepted
  simp only [validateCapacity, first_violation_none, mem_cons, not_mem_nil, or_false,
    forall_eq_or_imp, forall_eq, checkOverflow, limited, violation_none, not_lt] at clean
  exact clean.1

theorem load_initial_accounted (chain : TaskChain) :
    Respects chain (loadInitial chain) := by
  have empty : Sized chain → WithinFast chain (initialBytes chain .fast) :=
    fun regular => initial_within regular.accepted
  have start : Accounted chain {} := by
    refine ⟨nodup_nil, nofun, nofun, fun place => by cases place <;> rfl, nofun, fun regular => ?_⟩
    refine ⟨le_refl 0, fun capacity limited => ?_⟩
    have bound := empty regular capacity limited
    have nonneg : 0 ≤ initialBytes chain .fast := by
      rw [initialBytes, total_filter]
      apply total_nonneg
      intro object listed
      have size := regular.objects object listed
      split_ifs <;> omega
    exact nonneg.trans bound
  have loads := insert_all_accounted chain.initialMemory
    (fun object => .duplicateInitial object.id object.location)
    (fun object => ⟨object.id, object.location, object.size, .live⟩)
    (by simp) (fun object listed => mem_append_left _ (mem_map_of_mem listed)) start
    fun regular => by
      have bound := empty regular
      rw [initialBytes, total_filter] at bound
      simpa [SimState.total, PoolEntry.fastBytes] using bound
  have checks : ∀ location state, Accounted chain state →
      Respects chain (checkInitialCapacity chain location state) := by
    intro location state held
    unfold checkInitialCapacity
    split
    · exact held
    · split_ifs
      · exact held.raises (by simp)
      · exact held
  refine ensures_bind loads fun loaded held => ?_
  refine ensures_bind (checks .fast loaded held) fun first held => ?_
  refine ensures_bind (checks .backing first held) fun second held => ?_
  exact held.carry rfl (fun _ => rfl) rfl rfl fun _ => .inl

theorem finish_accounted (held : Accounted chain state) :
    Respects chain (finish chain state) := by
  refine ensures_bind (drain_loop_accounted _ held) fun drained fine => ?_
  split_ifs
  · exact fine.raises (by simp)
  · exact fine.carry rfl (fun _ => rfl) rfl rfl fun _ => .inl

theorem simulate_accounted (chain : TaskChain) :
    Respects chain (simulate chain) := by
  refine ensures_bind (load_initial_accounted chain) fun loaded held => ?_
  refine ensures_bind (ensures_foldlM_const _ chain.tasks.zipIdx ?_ loaded held)
    fun done fine => finish_accounted fine
  intro entry mem state fine
  have found := mem_zipIdx_iff_getElem?.mp mem
  exact run_task_accounted found fine

/-- The tracked total of a location is the sum of the sizes in its pool, at every
event, at the end and wherever the run raises; no chain is excluded. -/
theorem totals_exact (chain : TaskChain) :
    let exact (state : SimState) :=
      (∀ location, state.total location = residentBytes location state.pool) ∧
      ∀ event ∈ state.events, event.fastTotal = residentBytes .fast event.memory ∧
        event.backingTotal = residentBytes .backing event.memory
    Ensures (simulate chain) exact fun _ state => exact state := by
  have sound : ∀ state, Accounted chain state → _ := fun state held =>
    And.intro held.totals fun event mem =>
      And.intro (held.events event mem).fast (held.events event mem).backing
  exact ensures_mono (simulate_accounted chain) sound fun _ state raised => sound state raised.1

/-- The accounting of a moment of the run. -/
structure WithinCapacity (chain : TaskChain) (memory : List PoolEntry)
    (fastTotal backingTotal workspace : Int) : Prop where
  fast : fastTotal = residentBytes .fast memory
  backing : backingTotal = residentBytes .backing memory
  within : ∀ capacity, chain.fastMemoryCapacity = some capacity → fastTotal + workspace ≤ capacity

def CapacityInvariant (chain : TaskChain) (state : SimState) : Prop :=
  WithinCapacity chain state.pool state.fastTotal state.backingTotal state.activeWorkspace ∧
  ∀ event ∈ state.events,
    WithinCapacity chain event.memory event.fastTotal event.backingTotal event.workspace

theorem simulator_capacity (sized : Sized chain) :
    Ensures (simulate chain) (CapacityInvariant chain) fun fault state =>
      CapacityInvariant chain state ∧
        ∀ task used capacity, fault ≠ .overCommitted task used capacity := by
  have sound : ∀ state, Accounted chain state → CapacityInvariant chain state := by
    intro state held
    refine ⟨⟨held.totals .fast, held.totals .backing, (held.fits sized).within⟩, ?_⟩
    intro event member
    obtain ⟨fast, backing, within⟩ := held.events event member
    exact ⟨fast, backing, within sized⟩
  exact ensures_mono (simulate_accounted chain) sound fun fault state raised =>
    ⟨sound state raised.1, raised.2 sized⟩

end Runs

/-- Offloads make room for a prefetch, an output and a deferred round trip. -/
def roundTrip : TaskChain where
  initialMemory := [{ id := "A", size := 4 }, { id := "B", size := 4, location := .backing }]
  tasks :=
    [{ id := "t0", inputs := ["A"], mutatesInputs := ["A"], offloadAfter := [{ objId := "A" }]
       prefetchAfter := [{ objId := "B" }] },
     { id := "t1", inputs := ["B"], outputs := [{ id := "C", size := 1 }], workspaceBytes := 1
       releasesAfter := ["B"], prefetchAfter := [{ objId := "A" }] },
     { id := "t2", inputs := ["A"] }]
  fastMemoryCapacity := some 6
  bandwidthFromSlow := some 2
  bandwidthToSlow := some 2

theorem simulator_capacity_round_trip : Sized roundTrip ∧
    Ensures (simulate roundTrip) (fun state => state.peakFast = 6) (fun _ _ => False) ∧
    Ensures (simulate roundTrip) (CapacityInvariant roundTrip) fun fault state =>
      CapacityInvariant roundTrip state ∧
        ∀ task used capacity, fault ≠ .overCommitted task used capacity :=
  have sized := ⟨by decide +kernel, by decide, by decide⟩
  ⟨sized, by decide +kernel, simulator_capacity sized⟩

/-- A negative size makes room that its release takes away again. -/
def negativeSize : TaskChain where
  initialMemory := [{ id := "A", size := 10 }, { id := "B", size := -5 }]
  tasks := [{ id := "t0", inputs := ["B"], releasesAfter := ["B"] }, { id := "t1" }]
  fastMemoryCapacity := some 5

/-- The chain is accepted; after the release 10 bytes are resident under a
capacity of 5, and the next launch raises the over-commit error. -/
theorem negative_size_over_commits : validateChain negativeSize = none ∧
    Ensures (simulate negativeSize) (fun _ => False) fun fault state =>
      fault = .overCommitted "t1" 10 5 ∧ state.fastTotal = 10 :=
  ⟨by decide +kernel, by decide +kernel⟩

end Dataflow.Sim
