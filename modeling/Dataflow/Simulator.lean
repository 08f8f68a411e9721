import Dataflow.Chain
import Dataflow.Runtime
import Mathlib.Data.List.Sort

/-!
The simulator of `dataflow_sim/engine/simulator.py`: one compute stream and two
transfer streams over a pool of copies with byte totals per location. A task
starts at the earliest predicted time, after which transfers are drained until
its inputs are live and its outputs fit; queued transfers take destination
bytes when they start. Python's `while` loops run on fuel: the number of
transfers still pending, each iteration completing one.
-/

namespace Dataflow.Sim

open StatefulOutcome

/-! ### state -/

inductive MemoryState where
  | live
  | reserved
  | pendingInbound
  | inbound
  | pendingOutbound
  | outbound
  deriving DecidableEq

structure PoolEntry where
  id : String
  location : Location
  size : Int
  state : MemoryState
  deriving DecidableEq

abbrev PoolKey := String × Location

def PoolEntry.key (entry : PoolEntry) : PoolKey := (entry.id, entry.location)

structure Queued where
  objId : String
  srcSize : Int
  runtime : ℚ
  deriving DecidableEq

structure InFlight where
  objId : String
  srcSize : Int
  startT : ℚ
  endT : ℚ
  deriving DecidableEq

/-- A transfer stream: the transfer on it and those waiting for it. -/
structure Lane where
  inFlight : Option InFlight := none
  queue : List Queued := []
  deriving DecidableEq

inductive EventKind where
  | taskStart (task : String)
  | taskEnd (task : String)
  | release (objects : List String)
  | transferEnqueue (direction : Direction) (object : String)
  | transferDeferred (object : String)
  | transferStart (direction : Direction) (object : String)
  | transferEnd (direction : Direction) (object : String)
  deriving DecidableEq

/-- An event with its memory snapshot, and the accounting at that moment. -/
structure Event where
  t : ℚ
  kind : EventKind
  memory : List PoolEntry
  fastTotal : Int
  backingTotal : Int
  workspace : Int
  deriving DecidableEq

structure SimState where
  pool : List PoolEntry := []
  fastTotal : Int := 0
  backingTotal : Int := 0
  fromSlow : Lane := {}
  toSlow : Lane := {}
  computeBusyUntil : ℚ := 0
  activeWorkspace : Int := 0
  /-- `deferred_prefetches` maps an object to its waiting transfers; they carry
  their object, so they are kept in one list in firing order. -/
  deferred : List Queued := []
  transferSeq : List ((Direction × String) × Nat) := []
  intervals : List Interval := []
  peakFast : Int := 0
  peakBacking : Int := 0
  events : List Event := []
  deriving DecidableEq

inductive SimError where
  | duplicateInitial (object : String) (location : Location)
  | initialCapacity (location : Location)
  | missingBandwidth (direction : Direction)
  | zeroBandwidth (direction : Direction)
  | missingEntry (object : String) (location : Location)
  | overwriteSize (object : String) (existing source : Int)
  | noDeferred (object : String)
  | noOffloadForDeferred (object : String)
  | inputBackingOnly (object : String)
  | inputAbsent (object : String)
  | inputNotScheduled (object : String)
  | inputOffloading (object : String) (state : MemoryState)
  | inputReserved (object : String)
  | inputUnknownState (object : String) (state : MemoryState)
  | outputReservation (task : String) (need overage : Int)
  | fastDeadlock (task : String) (missing : List String) (need : Option Int)
  | backingOutputs (task : String) (size : Int)
  | outputCollides (task object : String) (location : Location)
  | overCommitted (task : String) (used capacity : Int)
  | releaseAbsent (task object : String)
  | releaseNotLive (task object : String) (state : MemoryState)
  | offloadNotLive (task object : String)
  | offloadBackingBusy (task object : String)
  | offloadSizeMismatch (task object : String)
  | prefetchFastExists (task object : String)
  | prefetchNoSource (task object : String)
  | transfersStuck (fromSlow toSlow deferred : List String)
  deriving DecidableEq

/-- Simulator code: a value, or the error with the state it was raised in. -/
abbrev Simulation := Outcome SimError SimState

namespace SimState

variable (state : SimState)

def total : Location → Int
  | .fast => state.fastTotal
  | .backing => state.backingTotal

def addTotal (location : Location) (bytes : Int) : SimState :=
  match location with
  | .fast => { state with fastTotal := state.fastTotal + bytes }
  | .backing => { state with backingTotal := state.backingTotal + bytes }

def lane : Direction → Lane
  | .fromSlow => state.fromSlow
  | .toSlow => state.toSlow

def setLane (direction : Direction) (lane : Lane) : SimState :=
  match direction with
  | .fromSlow => { state with fromSlow := lane }
  | .toSlow => { state with toSlow := lane }

def entry (object : String) (location : Location) : Option PoolEntry :=
  KeyedTable.lookup PoolEntry.key (object, location) state.pool

def insert (entry : PoolEntry) : SimState :=
  { state with pool := state.pool ++ [entry] }.addTotal entry.location entry.size

/-- Initial objects and outputs may not meet an entry of their key. -/
def insertNew (collides : SimError) (entry : PoolEntry) : Simulation SimState :=
  if (KeyedTable.lookup PoolEntry.key entry.key state.pool).isSome then .error (collides, state)
  else .ok (state.insert entry)

def remove (entry : PoolEntry) : SimState :=
  { state with pool := KeyedTable.remove PoolEntry.key entry.key state.pool }.addTotal
    entry.location (-entry.size)

def setEntry (object : String) (location : Location) (next : MemoryState) : SimState :=
  { state with
    pool := KeyedTable.update PoolEntry.key (object, location)
      (fun entry => { entry with state := next }) state.pool }

def require (object : String) (location : Location) : Simulation PoolEntry :=
  match state.entry object location with
  | some entry => .ok entry
  | none => .error (.missingEntry object location, state)

def enqueue (direction : Direction) (transfer : Queued) : SimState :=
  let lane := state.lane direction
  state.setLane direction { lane with queue := lane.queue ++ [transfer] }

/-- `emit`: peaks are taken here, and the snapshot is logged. -/
def emit (kind : EventKind) (t : ℚ) : SimState :=
  { state with
    peakFast := max state.peakFast (state.fastTotal + state.activeWorkspace)
    peakBacking := max state.peakBacking state.backingTotal
    events := state.events ++
      [{ t := t, kind := kind, memory := state.pool, fastTotal := state.fastTotal
         backingTotal := state.backingTotal, workspace := state.activeWorkspace }] }

def pending : Nat :=
  state.fromSlow.inFlight.toList.length + state.fromSlow.queue.length +
    state.toSlow.inFlight.toList.length + state.toSlow.queue.length + state.deferred.length

end SimState

variable (chain : TaskChain)

def TaskChain.capacity : Location → Option Int
  | .fast => chain.fastMemoryCapacity
  | .backing => chain.backingMemoryCapacity

def TaskChain.bandwidth : Direction → Option Int
  | .fromSlow => chain.bandwidthFromSlow
  | .toSlow => chain.bandwidthToSlow

def destination : Direction → Location
  | .fromSlow => .fast
  | .toSlow => .backing

/-! ### transfers -/

/-- Floor division, as the source rounds; a zero bandwidth raises there. -/
def transferRuntime (direction : Direction) (size : Int)
    (override : Option ℚ) : Except SimError ℚ :=
  match override with
  | some runtime => .ok (max runtime 0)
  | none =>
    match chain.bandwidth direction with
    | none => .error (.missingBandwidth direction)
    | some bandwidth =>
      if bandwidth = 0 then .error (.zeroBandwidth direction)
      else .ok (max ((size + bandwidth - 1).fdiv bandwidth) 1 : Int)

/-- A transfer that is scheduled on a stream, with its predicted times. -/
structure Scheduled where
  objId : String
  startT : ℚ
  endT : ℚ
  srcSize : Int
  deriving DecidableEq

/-- The queue behind a stream that is free from `cursor` on. -/
def predictQueue (now : ℚ) : ℚ → List Queued → List Scheduled
  | _, [] => []
  | cursor, transfer :: rest =>
    let start := max cursor now
    { objId := transfer.objId, startT := start, endT := start + transfer.runtime
      srcSize := transfer.srcSize } :: predictQueue now (start + transfer.runtime) rest

variable (direction : Direction)

def predictSchedule (now : ℚ) (state : SimState) : List Scheduled :=
  let lane := state.lane direction
  match lane.inFlight with
  | none => predictQueue now now lane.queue
  | some flight =>
    { objId := flight.objId, startT := flight.startT, endT := flight.endT
      srcSize := flight.srcSize } :: predictQueue now flight.endT lane.queue

/-- A queue head whose destination has no room stays where it is. -/
def blocked (direction : Direction) (transfer : Queued) (state : SimState) : Bool :=
  let location := destination direction
  match chain.capacity location with
  | none => false
  | some capacity =>
    let counted := ((state.entry transfer.objId location).map (·.size)).getD 0
    let workspace := if location = .fast then state.activeWorkspace else 0
    decide (capacity - state.total location - workspace + counted < transfer.srcSize)

/-- The transfer is on the stream: its interval is recorded under a name of its own. -/
def beginTransfer (transfer : Queued) (now : ℚ) (state : SimState) : SimState :=
  let seq := (state.transferSeq.lookup (direction, transfer.objId)).getD 0
  let flying := state.setLane direction { state.lane direction with
    inFlight := some
      { objId := transfer.objId, srcSize := transfer.srcSize
        startT := now, endT := now + transfer.runtime } }
  let recorded := { flying with
    transferSeq := ((direction, transfer.objId), seq + 1) :: flying.transferSeq
    intervals := flying.intervals ++ [
      ({ name := intervalName direction transfer.objId seq, start := now
         finish := now + transfer.runtime, track := .transfer direction } : Interval)] }
  recorded.emit (.transferStart direction transfer.objId) now

/-- The destination of a starting transfer, allocated unless it exists. -/
def openDestination (transfer : Queued) (state : SimState) : Simulation SimState :=
  let location := destination direction
  match state.entry transfer.objId location with
  | none => .ok (state.insert
      { id := transfer.objId, location := location, size := transfer.srcSize, state := .inbound })
  | some existing =>
    if direction = .toSlow ∧ existing.size ≠ transfer.srcSize then
      .error (.overwriteSize transfer.objId existing.size transfer.srcSize, state)
    else .ok (state.setEntry transfer.objId location .inbound)

/-- A starting offload flips the state of its source. -/
def markSource (transfer : Queued) (state : SimState) : Simulation SimState :=
  match direction with
  | .fromSlow => .ok state
  | .toSlow => do
      let _ ← state.require transfer.objId .fast
      pure (state.setEntry transfer.objId .fast .outbound)

def tryStart (direction : Direction) (now : ℚ) (state : SimState) : Simulation SimState :=
  match (state.lane direction).inFlight, (state.lane direction).queue with
  | none, transfer :: rest =>
    if blocked chain direction transfer state then .ok state else do
      let popped := state.setLane direction { inFlight := none, queue := rest }
      let marked ← markSource direction transfer popped
      let opened ← openDestination direction transfer marked
      pure (beginTransfer direction transfer now opened)
  | _, _ => .ok state

/-- `deferred_prefetches.pop`: the waiting transfers of the object join the queue. -/
def activateDeferred (object : String) (t : ℚ) (state : SimState) : SimState :=
  (state.deferred.filter (·.objId = object)).foldl
    (fun state transfer => (state.enqueue .fromSlow transfer).emit
      (.transferEnqueue .fromSlow transfer.objId) t)
    { state with deferred := state.deferred.filter (·.objId ≠ object) }

/-- What the end of a transfer does to the copies of its object. -/
def settleEntries (flight : InFlight) (state : SimState) : Simulation SimState :=
  match direction with
  | .fromSlow => do
      let _ ← state.require flight.objId .fast
      pure (state.setEntry flight.objId .fast .live)
  | .toSlow => do
      let source ← state.require flight.objId .fast
      let freed := state.remove source
      let _ ← freed.require flight.objId .backing
      pure (freed.setEntry flight.objId .backing .live)

def complete (flight : InFlight) (state : SimState) : Simulation SimState := do
  let settled ← settleEntries direction flight state
  let idle := settled.setLane direction { settled.lane direction with inFlight := none }
  let ended := idle.emit (.transferEnd direction flight.objId) flight.endT
  match direction with
  | .fromSlow => pure ended
  | .toSlow => pure (activateDeferred flight.objId flight.endT ended)

/-- The transfer that ends next; from-slow goes first on ties. -/
def nextFlight (state : SimState) : Option (Direction × InFlight) :=
  match state.fromSlow.inFlight, state.toSlow.inFlight with
  | none, none => none
  | some arriving, none => some (.fromSlow, arriving)
  | none, some leaving => some (.toSlow, leaving)
  | some arriving, some leaving =>
    if arriving.endT ≤ leaving.endT then some (.fromSlow, arriving) else some (.toSlow, leaving)

def settle (direction : Direction) (flight : InFlight) (state : SimState) :
    Simulation SimState := do
  let completed ← complete direction flight state
  let started ← tryStart chain direction flight.endT completed
  match direction with
  | .fromSlow => pure started
  | .toSlow => tryStart chain .fromSlow flight.endT started

def advanceLoop (chain : TaskChain) (target : ℚ) : Nat → SimState → Simulation SimState
  | 0, state => .ok state
  | fuel + 1, state =>
    match nextFlight state with
    | none => .ok state
    | some (direction, flight) =>
      if target < flight.endT then .ok state else do
        let settled ← settle chain direction flight state
        advanceLoop chain target fuel settled

def advance (target : ℚ) (state : SimState) : Simulation SimState :=
  advanceLoop chain target state.pending state

/-! ### predictions -/

/-- When the deferred prefetch of an input will have arrived: after its offload,
behind everything scheduled on the from-slow stream. -/
def deferredPrefetchReadyT (object : String) (now : ℚ) (state : SimState) : Simulation ℚ :=
  match state.deferred.filter (·.objId = object) with
  | [] => .error (.noDeferred object, state)
  | waiter :: _ =>
    match (predictSchedule .toSlow now state).find? (·.objId = object) with
    | none => .error (.noOffloadForDeferred object, state)
    | some offload =>
      let busyUntil := match (predictSchedule .fromSlow now state).map (·.endT) with
        | [] => now
        | first :: rest => rest.foldl max first
      .ok (max offload.endT busyUntil + waiter.runtime)

def inputReadyT (object : String) (now : ℚ) (state : SimState) : Simulation ℚ :=
  let scheduled := (predictSchedule .fromSlow now state).find? (·.objId = object)
  let isDeferred := state.deferred.any (·.objId = object)
  match state.entry object .fast with
  | none =>
    if isDeferred then deferredPrefetchReadyT object now state else
    match scheduled with
    | some transfer => .ok transfer.endT
    | none =>
      if (state.entry object .backing).isSome then .error (.inputBackingOnly object, state)
      else .error (.inputAbsent object, state)
  | some entry =>
    match entry.state with
    | .live => .ok now
    | .inbound =>
      match scheduled with
      | some transfer => .ok transfer.endT
      | none => .error (.inputNotScheduled object, state)
    | .pendingOutbound | .outbound =>
      if isDeferred then deferredPrefetchReadyT object now state
      else .error (.inputOffloading object entry.state, state)
    | .reserved => .error (.inputReserved object, state)
    | .pendingInbound => .error (.inputUnknownState object entry.state, state)

/-- The offload that frees the last of the needed bytes, or what is free with all of them. -/
def freedBy (needed : Int) : Int → List Scheduled → Except Int ℚ
  | free, [] => .error free
  | free, offload :: rest =>
    if needed ≤ free + offload.srcSize then .ok offload.endT
    else freedBy needed (free + offload.srcSize) rest

def computeReservationReadyT (needed : Int) (now : ℚ) (task : String)
    (state : SimState) : Simulation ℚ :=
  match chain.fastMemoryCapacity with
  | none => .ok now
  | some capacity =>
    let free := capacity - state.fastTotal - state.activeWorkspace
    if needed ≤ free then .ok now else
    match freedBy needed free
        ((predictSchedule .toSlow now state).insertionSort (·.endT ≤ ·.endT)) with
    | .ok t => .ok t
    | .error free =>
      .error (.outputReservation task (capacity + needed - free) (needed - free), state)

/-! ### one task -/

def Task.reservation (task : Task) : Int :=
  task.outputBytes .fast + task.workspaceBytes

def targetStart (task : Task) (state : SimState) : Simulation ℚ := do
  let probe := state.computeBusyUntil
  let inputs ← task.inputs.foldlM (fun target object => do
    let ready ← inputReadyT object probe state
    pure (max target ready)) probe
  if 0 < task.reservation then do
    let ready ← computeReservationReadyT chain task.reservation probe task.id state
    pure (max inputs ready)
  else pure inputs

def missingInputs (task : Task) (state : SimState) : List String :=
  task.inputs.filter fun object => (state.entry object .fast).map (·.state) ≠ some .live

/-- The fast bytes the launch would need, if they exceed the capacity. -/
def overage (task : Task) (state : SimState) : Option Int :=
  match chain.fastMemoryCapacity with
  | none => none
  | some capacity =>
    if 0 < task.reservation ∧ capacity < state.fastTotal + task.reservation
    then some (state.fastTotal + task.reservation) else none

def readyToRun (task : Task) (state : SimState) : Bool :=
  missingInputs task state = [] ∧ overage chain task state = none

def fastDeadlock (chain : TaskChain) (task : Task) (state : SimState) : SimError :=
  .fastDeadlock task.id (missingInputs task state) (overage chain task state)

/-- Drain transfers until the task can run; with nothing in flight it is
deadlocked. Without fuel there is no transfer left to start. -/
def waitReady (chain : TaskChain) (task : Task) : Nat → ℚ → SimState → Simulation (ℚ × SimState)
  | 0, target, state =>
    if readyToRun chain task state then .ok (target, state)
    else .error (fastDeadlock chain task state, state)
  | fuel + 1, target, state =>
    if readyToRun chain task state then .ok (target, state) else do
      let arriving ← tryStart chain .fromSlow target state
      let started ← tryStart chain .toSlow target arriving
      match nextFlight started with
      | none => .error (fastDeadlock chain task started, started)
      | some (_, flight) => do
          let advanced ← advance chain flight.endT started
          waitReady chain task fuel flight.endT advanced

def reserveOutput (task : Task) (state : SimState) (output : OutputAlloc) : Simulation SimState :=
  state.insertNew (.outputCollides task.id output.id output.location)
    { id := output.id, location := output.location, size := output.size, state := .reserved }

/-- Steps 3 to 5: the backing check, the reservations and the launch. -/
def startTask (task : Task) (start : ℚ) (state : SimState) : Simulation SimState := do
  if (match chain.backingMemoryCapacity with
      | none => false
      | some capacity => decide (capacity < state.backingTotal + task.outputBytes .backing))
  then .error (.backingOutputs task.id (task.outputBytes .backing), state) else
  let reserved ← task.outputs.foldlM (reserveOutput task)
    { state with activeWorkspace := task.workspaceBytes }
  match chain.fastMemoryCapacity with
  | some capacity =>
    let used := reserved.fastTotal + reserved.activeWorkspace
    if capacity < used then .error (.overCommitted task.id used capacity, reserved)
    else .ok (launched reserved)
  | none => .ok (launched reserved)
where
  launched (state : SimState) : SimState :=
    let recorded := { state with
      intervals := state.intervals ++ [
        ({ name := task.id, start := start, finish := start + task.runtime
           track := .compute } : Interval)]
      computeBusyUntil := start + task.runtime }
    recorded.emit (.taskStart task.id) start

def outputLive (state : SimState) (output : OutputAlloc) : Simulation SimState := do
  let _ ← state.require output.id output.location
  pure (state.setEntry output.id output.location .live)

def applyRelease (position : Nat) (task : Task) (state : SimState)
    (object : String) : Simulation SimState :=
  match state.entry object .fast with
  | none => .error (.releaseAbsent task.id object, state)
  | some entry =>
    if entry.state ≠ .live then .error (.releaseNotLive task.id object entry.state, state) else
    let freed := state.remove entry
    match freed.entry object .backing with
    | some backing =>
      if deadEverywhere chain position object ∧ backing.state = .live
      then .ok (freed.remove backing) else .ok freed
    | none => .ok freed

/-- `transfer_runtime` raises in the state it is called in. -/
def runtimeOf (direction : Direction) (size : Int) (override : Option ℚ)
    (state : SimState) : Simulation ℚ :=
  match transferRuntime chain direction size override with
  | .ok runtime => .ok runtime
  | .error fault => .error (fault, state)

def applyOffload (task : Task) (endT : ℚ) (state : SimState)
    (trigger : TransferTrigger) : Simulation SimState :=
  match state.entry trigger.objId .fast with
  | none => .error (.offloadNotLive task.id trigger.objId, state)
  | some source =>
    if source.state ≠ .live then .error (.offloadNotLive task.id trigger.objId, state) else
    match state.entry trigger.objId .backing with
    | none => queueOffload source
    | some existing =>
      if existing.state ≠ .live then
        .error (.offloadBackingBusy task.id trigger.objId, state)
      else if existing.size ≠ source.size then
        .error (.offloadSizeMismatch task.id trigger.objId, state)
      else queueOffload source
where
  queueOffload (source : PoolEntry) : Simulation SimState := do
    let runtime ← runtimeOf chain .toSlow source.size trigger.runtime state
    let marked := state.setEntry trigger.objId .fast .pendingOutbound
    let queued := marked.enqueue .toSlow
      { objId := trigger.objId, srcSize := source.size, runtime := runtime }
    pure (queued.emit (.transferEnqueue .toSlow trigger.objId) endT)

/-- An offload of the object is queued or on its stream. -/
def offloadInFlight (fast backing : Option PoolEntry) : Bool :=
  (match fast with
    | some entry => decide (entry.state = .pendingOutbound ∨ entry.state = .outbound)
    | none => false) ||
  (match backing with
    | some entry => decide (entry.state = .pendingInbound ∨ entry.state = .inbound)
    | none => false)

def fastArriving (fast : Option PoolEntry) : Bool :=
  match fast with
  | some entry => decide (entry.state = .live ∨ entry.state = .inbound)
  | none => false

def applyPrefetch (task : Task) (endT : ℚ) (state : SimState)
    (trigger : TransferTrigger) : Simulation SimState :=
  let fast := state.entry trigger.objId .fast
  let backing := state.entry trigger.objId .backing
  if fastArriving fast then .error (.prefetchFastExists task.id trigger.objId, state)
  else if offloadInFlight fast backing then do
    -- the size of the backing copy if there is one, else of the copy being written
    let size := ((backing.or fast).map (·.size)).getD 0
    let runtime ← runtimeOf chain .fromSlow size trigger.runtime state
    let transfer : Queued := { objId := trigger.objId, srcSize := size, runtime := runtime }
    let waiting := { state with deferred := state.deferred ++ [transfer] }
    pure (waiting.emit (.transferDeferred trigger.objId) endT)
  else match backing with
    | some source =>
      if source.state ≠ .live then .error (.prefetchNoSource task.id trigger.objId, state) else do
      let runtime ← runtimeOf chain .fromSlow source.size trigger.runtime state
      let queued := state.enqueue .fromSlow
        { objId := trigger.objId, srcSize := source.size, runtime := runtime }
      pure (queued.emit (.transferEnqueue .fromSlow trigger.objId) endT)
    | none => .error (.prefetchNoSource task.id trigger.objId, state)

def finishTask (position : Nat) (task : Task) (endT : ℚ) (state : SimState) :
    Simulation SimState := do
  let live ← task.outputs.foldlM outputLive { state with activeWorkspace := 0 }
  let ended := live.emit (.taskEnd task.id) endT
  let released ← task.releasesAfter.foldlM (applyRelease chain position task) ended
  let noted := if task.releasesAfter = [] then released
    else released.emit (.release task.releasesAfter) endT
  let offloaded ← task.offloadAfter.foldlM (applyOffload chain task endT) noted
  let prefetched ← task.prefetchAfter.foldlM (applyPrefetch chain task endT) offloaded
  let arriving ← tryStart chain .fromSlow endT prefetched
  tryStart chain .toSlow endT arriving

def runTask (position : Nat) (task : Task) (state : SimState) : Simulation SimState := do
  let target ← targetStart chain task state
  let advanced ← advance chain target state
  let (start, ready) ← waitReady chain task advanced.pending target advanced
  let started ← startTask chain task start ready
  let elapsed ← advance chain (start + task.runtime) started
  finishTask chain position task (start + task.runtime) elapsed

/-! ### whole runs -/

def loadObject (state : SimState) (object : Object) : Simulation SimState :=
  state.insertNew (.duplicateInitial object.id object.location)
    { id := object.id, location := object.location, size := object.size, state := .live }

def checkInitialCapacity (location : Location) (state : SimState) : Simulation SimState :=
  match chain.capacity location with
  | none => .ok state
  | some capacity =>
    if capacity < state.total location then .error (.initialCapacity location, state)
    else .ok state

def loadInitial : Simulation SimState := do
  let loaded ← chain.initialMemory.foldlM loadObject {}
  let fits ← checkInitialCapacity chain .fast loaded
  let fits ← checkInitialCapacity chain .backing fits
  pure { fits with peakFast := fits.fastTotal, peakBacking := fits.backingTotal }

def drainLoop (chain : TaskChain) : Nat → SimState → Simulation SimState
  | 0, state => .ok state
  | fuel + 1, state =>
    match nextFlight state with
    | none => .ok state
    | some (direction, flight) => do
        let settled ← settle chain direction flight state
        drainLoop chain fuel settled

/-- The final drain and the check that nothing is left. -/
def finish (state : SimState) : Simulation SimState := do
  let drained ← drainLoop chain state.pending state
  if drained.fromSlow.queue ≠ [] ∨ drained.toSlow.queue ≠ [] ∨ drained.deferred ≠ [] then
    .error (.transfersStuck (drained.fromSlow.queue.map (·.objId))
      (drained.toSlow.queue.map (·.objId)) (drained.deferred.map (·.objId)), drained)
  else pure { drained with peakBacking := max drained.peakBacking drained.backingTotal }

/-- `_run_impl` -/
def simulate : Simulation SimState := do
  let loaded ← loadInitial chain
  let done ← chain.tasks.zipIdx.foldlM
    (fun state entry => runTask chain entry.2 entry.1 state) loaded
  finish chain done

end Dataflow.Sim
