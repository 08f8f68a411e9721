import Dataflow.Program
import Dataflow.KeyedTable
import Dataflow.StatefulOutcome

/-!
Run-time data of `runtime/`: the byte ledger, the object table with its two
slots per record, transfer jobs and lanes, the buffer pool as the engine sees
it, and the state of one run. Trace events, poisoning and dispatch statistics
are diagnostics and are left out; the intervals of the trace stay.
-/

namespace Dataflow

open StatefulOutcome

/-! ### ledger.py -/

structure Ledger where
  fastCapacity : Option Int
  backingCapacity : Option Int
  usedFast : Int := 0
  usedBacking : Int := 0
  peakFastBytes : Int := 0
  peakBackingBytes : Int := 0
  deriving DecidableEq

namespace Ledger

def capacity (ledger : Ledger) : Location → Option Int
  | .fast => ledger.fastCapacity
  | .backing => ledger.backingCapacity

def used (ledger : Ledger) : Location → Int
  | .fast => ledger.usedFast
  | .backing => ledger.usedBacking

def canReserve (ledger : Ledger) (location : Location) (sizeBytes : Int) : Bool :=
  if sizeBytes ≤ 0 then true else
    match ledger.capacity location with
    | none => true
    | some capacity => decide (ledger.used location + sizeBytes ≤ capacity)

def add (ledger : Ledger) (location : Location) (sizeBytes : Int) : Ledger :=
  match location with
  | .fast =>
    { ledger with
      usedFast := ledger.usedFast + sizeBytes
      peakFastBytes := max ledger.peakFastBytes (ledger.usedFast + sizeBytes) }
  | .backing =>
    { ledger with
      usedBacking := ledger.usedBacking + sizeBytes
      peakBackingBytes := max ledger.peakBackingBytes (ledger.usedBacking + sizeBytes) }

/-- `none` is the over-commit `LedgerError`. -/
def charge (ledger : Ledger) (location : Location) (sizeBytes : Int) : Option Ledger :=
  if sizeBytes ≤ 0 then some ledger else
    if ledger.canReserve location sizeBytes then some (ledger.add location sizeBytes) else none

def subtract (ledger : Ledger) (location : Location) (sizeBytes : Int) : Ledger :=
  if sizeBytes ≤ 0 then ledger else
    match location with
    | .fast => { ledger with usedFast := ledger.usedFast - sizeBytes }
    | .backing => { ledger with usedBacking := ledger.usedBacking - sizeBytes }

end Ledger

/-! ### objects.py -/

/-- A buffer object. `handle` is its identity (`id(buffer)` in the source);
`placed` is the instance key of a buffer cut at an assigned offset. -/
structure Buffer where
  handle : Nat
  location : Location
  sizeBytes : Int
  placed : Option (String × Nat) := none
  deriving DecidableEq

inductive SlotState where
  | reserved
  | live
  | pendingOutbound
  | outbound
  | pendingInbound
  | inbound
  deriving DecidableEq

structure Slot where
  buffer : Buffer
  state : SlotState
  version : Nat
  readyEvent : Option ℚ := none
  deriving DecidableEq

structure ObjectRecord where
  id : String
  sizeBytes : Int
  version : Nat := 0
  fast : Option Slot := none
  backing : Option Slot := none
  deriving DecidableEq

namespace ObjectRecord

def slot (record : ObjectRecord) : Location → Option Slot
  | .fast => record.fast
  | .backing => record.backing

def setSlot (record : ObjectRecord) (location : Location) (slot : Option Slot) : ObjectRecord :=
  match location with
  | .fast => { record with fast := slot }
  | .backing => { record with backing := slot }

end ObjectRecord

abbrev ObjectTable := List ObjectRecord

namespace ObjectTable

def get (table : ObjectTable) (object : String) : Option ObjectRecord :=
  KeyedTable.lookup ObjectRecord.id object table

def modify (table : ObjectTable) (object : String) (change : ObjectRecord → ObjectRecord) :
    ObjectTable :=
  KeyedTable.update ObjectRecord.id object change table

/-- `add` keeps an existing record of the same id. -/
def add (table : ObjectTable) (record : ObjectRecord) : ObjectTable :=
  match table.get record.id with
  | some _ => table
  | none => table ++ [record]

def fastState (table : ObjectTable) (object : String) : Option SlotState :=
  match table.get object with
  | none => none
  | some record => record.fast.map (·.state)

end ObjectTable

/-! ### pool.py, as far as the engine calls it -/

class PoolOps (Pool : Type) where
  canGet : Pool → Location → Int → String → Bool
  get : Pool → Location → Int → Option String → Option (Buffer × Pool)
  getEscaped : Pool → Location → Int → String → Option (Buffer × Pool)
  put : Pool → Buffer → Pool

/-- The calls a run has made on its pool, in order. -/
inductive PoolCall where
  | took (buffer : Buffer)
  | returned (buffer : Buffer)
  deriving DecidableEq

/-! ### transfers.py -/

inductive Direction where
  | fromSlow
  | toSlow
  deriving DecidableEq

def Direction.label : Direction → String
  | .fromSlow => "from_slow"
  | .toSlow => "to_slow"

structure TransferJob where
  objectId : String
  sizeBytes : Int
  runtimeOverride : Option ℚ
  anchorEvent : ℚ
  firedByTask : String
  startEvent : ℚ := 0
  doneEvent : ℚ := 0
  intervalName : String := ""
  version : Nat := 0
  deriving DecidableEq

/-- One `TransferEngine`: its stream clock, its FIFO queue and the single
transfer in flight, whose completion token is pending on that stream. -/
structure TransferLane where
  bandwidth : Option Int
  clockUs : ℚ := 0
  queue : List TransferJob := []
  inflight : Option TransferJob := none
  nameSeq : List (String × Nat) := []
  deriving DecidableEq

/-- `none` is the missing-bandwidth `TransferError`. -/
def transferRuntimeUs (bandwidth : Option Int) (sizeBytes : Int) (override : Option ℚ) : Option ℚ :=
  match override with
  | some runtime => some (max runtime 0)
  | none =>
    match bandwidth with
    | none => none
    | some bandwidth =>
      if bandwidth ≤ 0 then none
      else some (max ((sizeBytes + bandwidth - 1) / bandwidth : Int) 1 : Int)

def intervalName (direction : Direction) (object : String) (seq : Nat) : String :=
  let base := direction.label ++ ":" ++ object
  if seq = 0 then base else base ++ "#" ++ toString seq

/-! ### trace.py -/

inductive Track where
  | compute
  | transfer (direction : Direction)
  deriving DecidableEq

structure Interval where
  name : String
  start : ℚ
  finish : ℚ
  track : Track
  deriving DecidableEq

/-! ### engine.py: errors, tokens and the state of a run -/

inductive EngineError where
  | invalidProgram
  | keyError (object : String)
  | assertion (object : String)
  | ledger (location : Location)
  | pool (object : String)
  | noBackingSource (object : String)
  | noFastSource (object : String)
  | missingBandwidth (object : String)
  | hostTask (task : String)
  | backingCapacity (task : String)
  | outputCollides (task object : String)
  | duplicateInitial (object : String)
  | providedTooSmall (object : String)
  | releaseNotLive (task object : String)
  | offloadNotLive (task object : String)
  | offloadBackingBusy (task object : String)
  | offloadSizeMismatch (task object : String)
  | prefetchFastExists (task object : String)
  | prefetchNoSource (task object : String)
  | deadlock
  | transfersStuck
  | finalLocations
  | cancelled
  | taskRaised (task : String)
  deriving DecidableEq

/-- `_TaskDone`: the token the compute stream delivers when the task ends. -/
structure TaskDone where
  task : TaskSpec
  startEvent : ℚ
  doneEvent : ℚ
  deriving DecidableEq

/-- What one launch hands to its executable: the version of each input's fast copy. -/
structure Launch where
  task : String
  versions : List (String × Option Nat)
  deriving DecidableEq

/-- Where the dispatch loop of `run_dispatch` stands. -/
inductive Phase where
  | dispatch (position : Nat)
  | pacing (position : Nat)
  | inputs (position : Nat)
  | reserve (position : Nat) (escaped : List String) (blocked : Bool)
  | drain
  | finished
  deriving DecidableEq

structure RunState (Pool : Type) where
  table : ObjectTable := []
  ledger : Ledger
  pool : Pool
  poolCalls : List PoolCall := []
  h2d : TransferLane
  d2h : TransferLane
  /-- `deferred` maps an object to its waiting jobs; every job carries its object,
  so the jobs are kept in one list in firing order. -/
  deferred : List TransferJob := []
  /-- The launched task whose token has not been delivered. -/
  outstanding : Option TaskDone := none
  cursor : Nat := 0
  currentTaskId : Option String := none
  pressureEvictions : Nat := 0
  prefetchOverride : List (String × Option ℚ) := []
  providedHandles : List Nat := []
  hostUs : ℚ := 0
  computeClockUs : ℚ := 0
  pendingIntervals : List Interval := []
  launches : List Launch := []
  phase : Phase := .dispatch 0
  deriving DecidableEq

/-- Engine code: a value, or the error together with the state it was raised in. -/
abbrev Run (Pool : Type) : Type → Type := Outcome EngineError (RunState Pool)

namespace RunState

variable {Pool : Type}

def lane (state : RunState Pool) : Direction → TransferLane
  | .fromSlow => state.h2d
  | .toSlow => state.d2h

def setLane (state : RunState Pool) (direction : Direction) (lane : TransferLane) : RunState Pool :=
  match direction with
  | .fromSlow => { state with h2d := lane }
  | .toSlow => { state with d2h := lane }

def modifyRecord (state : RunState Pool) (object : String)
    (change : ObjectRecord → ObjectRecord) : RunState Pool :=
  { state with table := state.table.modify object change }

def setSlot (state : RunState Pool) (object : String) (location : Location)
    (slot : Option Slot) : RunState Pool :=
  state.modifyRecord object fun record => record.setSlot location slot

def requireRecord (state : RunState Pool) (object : String) : Run Pool ObjectRecord :=
  match state.table.get object with
  | some record => .ok record
  | none => .error (.keyError object, state)

def charge (state : RunState Pool) (location : Location) (sizeBytes : Int) :
    Run Pool (RunState Pool) :=
  match state.ledger.charge location sizeBytes with
  | some ledger => .ok { state with ledger := ledger }
  | none => .error (.ledger location, state)

/-- The source subtracts first and then raises on a negative counter. -/
def refund (state : RunState Pool) (location : Location) (sizeBytes : Int) :
    Run Pool (RunState Pool) :=
  let after := { state with ledger := state.ledger.subtract location sizeBytes }
  if after.ledger.used location < 0 ∧ 0 < sizeBytes then .error (.ledger location, after)
  else .ok after

variable [PoolOps Pool]

def takeBuffer (state : RunState Pool) (location : Location) (sizeBytes : Int)
    (tag : Option String) (escape : Bool) : Run Pool (Buffer × RunState Pool) :=
  let got := match escape, tag with
    | true, some tag => PoolOps.getEscaped state.pool location sizeBytes tag
    | _, _ => PoolOps.get state.pool location sizeBytes tag
  match got with
  | none => .error (.pool (tag.getD ""), state)
  | some (buffer, pool) =>
    .ok (buffer, { state with pool := pool, poolCalls := state.poolCalls ++ [.took buffer] })

def putBuffer (state : RunState Pool) (buffer : Buffer) : RunState Pool :=
  { state with
    pool := PoolOps.put state.pool buffer
    poolCalls := state.poolCalls ++ [.returned buffer] }

end RunState

end Dataflow
