import Dataflow.Runtime

/-!
The dispatch loop of `runtime/engine.py` with its two transfer engines. One
`step` is one iteration of the loop the dispatcher stands in: it either takes
one completion token, recovers at quiescence, or moves on. The order in which
pending tokens complete is not fixed here: a `Choice` names the stream whose
token arrives next, so a run under arbitrary choices is a run under arbitrary
task and transfer durations.
-/

namespace Dataflow

open StatefulOutcome RunState

variable {Pool : Type}

/-! ### the chain index -/

/-- `enumerate(tasks)` -/
def numbered (program : Program) : List (Nat × TaskSpec) :=
  (List.range program.tasks.length).zip program.tasks

def usesByObj (program : Program) (object : String) : List Nat :=
  (numbered program).flatMap fun entry =>
    (entry.2.inputs.filter (· = object)).map fun _ => entry.1

def directivesByObj (program : Program) (object : String) : List Nat :=
  (numbered program).flatMap fun entry =>
    (entry.2.directiveObjects.filter (· = object)).map fun _ => entry.1

/-- Last position whose inputs or transfer directives name the object. -/
def lastRef (program : Program) (object : String) : Option Nat :=
  ((numbered program).filter fun entry =>
    object ∈ entry.2.inputs ∨ object ∈ entry.2.offloadAfter.map (·.objectId) ∨
      object ∈ entry.2.prefetchAfter.map (·.objectId)).getLast?.map (·.1)

def taskIndex (program : Program) (task : String) : Option Nat :=
  ((numbered program).filter fun entry => entry.2.id = task).getLast?.map (·.1)

def bisectLeft (positions : List Nat) (bound : Nat) : Nat :=
  (positions.takeWhile (· < bound)).length

/-- A release frees the backing copy too: no later reference, no final placement. -/
def deadEverywhere (program : Program) (task object : String) : Bool :=
  (match lastRef program object with
    | none => true
    | some last =>
      match taskIndex program task with
      | none => false
      | some index => decide (last ≤ index)) &&
  (program.finalLocations.lookup object).isNone

section Transfers

variable [PoolOps Pool]

/-! ### TransferEngine -/

def enqueue (direction : Direction) (job : TransferJob) (state : RunState Pool) : RunState Pool :=
  let lane := state.lane direction
  state.setLane direction { lane with queue := lane.queue ++ [job] }

/-- The tail of `try_start`, shared by both directions: the stream waits for the
anchor and the source, the copy is issued and becomes the one in flight. -/
def beginCopy (direction : Direction) (job : TransferJob) (sourceReady : Option ℚ)
    (state : RunState Pool) : Run Pool (RunState Pool) :=
  let lane := state.lane direction
  let anchored := max lane.clockUs job.anchorEvent
  let ready := match sourceReady with
    | some event => max anchored event
    | none => anchored
  let start := max ready state.hostUs
  match transferRuntimeUs lane.bandwidth job.sizeBytes job.runtimeOverride with
  | none => .error (.missingBandwidth job.objectId, state)
  | some duration =>
    let seq := (lane.nameSeq.lookup job.objectId).getD 0
    .ok (state.setLane direction { lane with
      clockUs := start + duration
      inflight := some { job with
        startEvent := start
        doneEvent := start + duration
        intervalName := intervalName direction job.objectId seq }
      nameSeq := (job.objectId, seq + 1) :: lane.nameSeq })

def startFromSlow (escape : Bool) (job : TransferJob) (rest : List TransferJob)
    (record : ObjectRecord) (state : RunState Pool) : Run Pool (RunState Pool) :=
  match record.backing with
  | none => .error (.noBackingSource job.objectId, state)
  | some source =>
    if ¬ state.ledger.canReserve .fast job.sizeBytes then .ok state else
    let blocked := !PoolOps.canGet state.pool .fast job.sizeBytes job.objectId
    if blocked ∧ ¬ escape then .ok state else do
      let popped := { state with h2d := { state.h2d with queue := rest } }
      let charged ← popped.charge .fast job.sizeBytes
      let (buffer, taken) ←
        charged.takeBuffer .fast job.sizeBytes (some job.objectId) blocked
      let placed := taken.setSlot job.objectId .fast
        (some { buffer := buffer, state := .inbound, version := source.version })
      beginCopy .fromSlow { job with version := source.version } source.readyEvent placed

def startToSlow (job : TransferJob) (rest : List TransferJob) (record : ObjectRecord)
    (state : RunState Pool) : Run Pool (RunState Pool) :=
  match record.fast with
  | none => .error (.noFastSource job.objectId, state)
  | some source =>
    let need := if record.backing.isSome then 0 else job.sizeBytes
    if ¬ state.ledger.canReserve .backing need then .ok state else do
      let popped := { state with d2h := { state.d2h with queue := rest } }
      let placed ← match record.backing with
        | none => do
            let charged ← popped.charge .backing job.sizeBytes
            let (buffer, taken) ← charged.takeBuffer .backing job.sizeBytes none false
            pure (taken.setSlot job.objectId .backing
              (some { buffer := buffer, state := .inbound, version := source.version }))
        | some existing =>
          pure (popped.setSlot job.objectId .backing
            (some { existing with state := .inbound, version := source.version }))
      let leaving := placed.setSlot job.objectId .fast (some { source with state := .outbound })
      beginCopy .toSlow { job with version := source.version } source.readyEvent leaving

def tryStart (direction : Direction) (escape : Bool) (state : RunState Pool) :
    Run Pool (RunState Pool) :=
  match (state.lane direction).inflight, (state.lane direction).queue with
  | none, job :: rest => do
      let record ← state.requireRecord job.objectId
      match direction with
      | .fromSlow => startFromSlow escape job rest record state
      | .toSlow => startToSlow job rest record state
  | _, _ => .ok state

def closeInterval (direction : Direction) (job : TransferJob) : Interval :=
  { name := job.intervalName, start := job.startEvent, finish := job.doneEvent
    track := .transfer direction }

/-- `complete`, called with the job of the delivered token. -/
def complete (direction : Direction) (job : TransferJob) (state : RunState Pool) :
    Run Pool (RunState Pool) := do
  let record ← state.requireRecord job.objectId
  let settled ← match direction with
    | .fromSlow =>
      match record.fast with
      | none => .error (.assertion job.objectId, state)
      | some slot =>
        .ok (state.setSlot job.objectId .fast
          (some { slot with state := .live, readyEvent := some job.doneEvent }))
    | .toSlow =>
      match record.fast with
      | some slot =>
        if slot.state = .outbound then do
          let refunded ← state.refund .fast job.sizeBytes
          let emptied := (refunded.putBuffer slot.buffer).setSlot job.objectId .fast none
          match record.backing with
          | none => .error (.assertion job.objectId, emptied)
          | some backing =>
            .ok (emptied.setSlot job.objectId .backing
              (some { backing with state := .live, readyEvent := some job.doneEvent }))
        else .error (.assertion job.objectId, state)
      | none => .error (.assertion job.objectId, state)
  let lane := settled.lane direction
  .ok { settled.setLane direction { lane with inflight := none } with
    pendingIntervals := settled.pendingIntervals ++ [closeInterval direction job] }

/-! ### token handlers -/

def outputLive (done : ℚ) (state : RunState Pool) (output : OutputSpec) :
    Run Pool (RunState Pool) := do
  let record ← state.requireRecord output.id
  match record.slot output.location with
  | some slot =>
    if slot.state = .reserved then
      .ok (state.setSlot output.id output.location
        (some { slot with state := .live, readyEvent := some done }))
    else .error (.assertion output.id, state)
  | none => .error (.assertion output.id, state)

def applyMutation (done : ℚ) (state : RunState Pool) (object : String) :
    Run Pool (RunState Pool) := do
  let record ← state.requireRecord object
  match record.fast with
  | none => .error (.assertion object,
      state.modifyRecord object fun record => { record with version := record.version + 1 })
  | some slot =>
    .ok (state.modifyRecord object fun record =>
      { record with
        version := record.version + 1
        fast := some { slot with version := record.version + 1, readyEvent := some done } })

def applyRelease (program : Program) (task : TaskSpec) (state : RunState Pool) (object : String) :
    Run Pool (RunState Pool) := do
  let record ← state.requireRecord object
  match record.fast with
  | some slot =>
    if slot.state = .live then do
      let refunded ← state.refund .fast record.sizeBytes
      let emptied := (refunded.putBuffer slot.buffer).setSlot object .fast none
      match record.backing with
      | some backing =>
        if deadEverywhere program task.id object ∧ backing.state = .live then do
          let freed ← emptied.refund .backing record.sizeBytes
          let dropped := freed.setSlot object .backing none
          -- caller-provided buffers stay with the caller
          .ok (if backing.buffer.handle ∈ state.providedHandles then dropped
            else dropped.putBuffer backing.buffer)
        else .ok emptied
      | none => .ok emptied
    else .error (.releaseNotLive task.id object, state)
  | none => .error (.releaseNotLive task.id object, state)

/-- The transfer a directive asks for, anchored on the task's end. -/
def directiveJob (task : TaskSpec) (done : ℚ) (trigger : TransferDirective)
    (record : ObjectRecord) : TransferJob :=
  { objectId := trigger.objectId, sizeBytes := record.sizeBytes
    runtimeOverride := trigger.runtimeUs, anchorEvent := done, firedByTask := task.id }

def applyOffload (task : TaskSpec) (done : ℚ) (state : RunState Pool)
    (trigger : TransferDirective) : Run Pool (RunState Pool) := do
  let record ← state.requireRecord trigger.objectId
  match record.fast with
  | some source =>
    if source.state = .live then
      match record.backing with
      | some existing =>
        if existing.state ≠ .live then
          .error (.offloadBackingBusy task.id trigger.objectId, state)
        else if existing.buffer.sizeBytes ≠ record.sizeBytes then
          .error (.offloadSizeMismatch task.id trigger.objectId, state)
        else .ok (queueOffload record source state)
      | none => .ok (queueOffload record source state)
    else .error (.offloadNotLive task.id trigger.objectId, state)
  | none => .error (.offloadNotLive task.id trigger.objectId, state)
where
  queueOffload (record : ObjectRecord) (source : Slot) (state : RunState Pool) : RunState Pool :=
    enqueue .toSlow (directiveJob task done trigger record)
      (state.setSlot trigger.objectId .fast (some { source with state := .pendingOutbound }))

def offloadInFlight (record : ObjectRecord) : Bool :=
  (match record.fast with
    | some slot => decide (slot.state = .pendingOutbound ∨ slot.state = .outbound)
    | none => false) ||
  (match record.backing with
    | some slot => decide (slot.state = .pendingInbound ∨ slot.state = .inbound)
    | none => false)

def fastArriving (record : ObjectRecord) : Bool :=
  match record.fast with
  | some slot => decide (slot.state = .live ∨ slot.state = .inbound)
  | none => false

def applyPrefetch (task : TaskSpec) (done : ℚ) (state : RunState Pool)
    (trigger : TransferDirective) : Run Pool (RunState Pool) := do
  let record ← state.requireRecord trigger.objectId
  if fastArriving record then .error (.prefetchFastExists task.id trigger.objectId, state) else
  let job := directiveJob task done trigger record
  let noted := { state with
    prefetchOverride := (trigger.objectId, trigger.runtimeUs) :: state.prefetchOverride }
  if offloadInFlight record then .ok { noted with deferred := noted.deferred ++ [job] } else
  match record.backing with
  | some source =>
    if source.state = .live then .ok (enqueue .fromSlow job noted)
    else .error (.prefetchNoSource task.id trigger.objectId, noted)
  | none => .error (.prefetchNoSource task.id trigger.objectId, noted)

/-- Retire a task: outputs become live, mutations advance versions, then the
task's releases, offloads and prefetches fire, and both lanes are poked. -/
def onTaskDone (program : Program) (token : TaskDone) (state : RunState Pool) :
    Run Pool (RunState Pool) := do
  let task := token.task
  let live ← task.outputs.foldlM (outputLive token.doneEvent) { state with outstanding := none }
  let mutated ← task.mutates.foldlM (applyMutation token.doneEvent) live
  let noted := { mutated with
    pendingIntervals := mutated.pendingIntervals ++
      [{ name := task.id, start := token.startEvent, finish := token.doneEvent, track := .compute }] }
  let released ← task.releasesAfter.foldlM (applyRelease program task) noted
  let offloaded ← task.offloadAfter.foldlM (applyOffload task token.doneEvent) released
  let prefetched ← task.prefetchAfter.foldlM (applyPrefetch task token.doneEvent) offloaded
  let started ← tryStart .fromSlow false prefetched
  tryStart .toSlow false started

/-- `deferred.pop(object)`: the waiting jobs of the object, in firing order. -/
def activateDeferred (object : String) (state : RunState Pool) : RunState Pool :=
  { state with
    h2d := { state.h2d with
      queue := state.h2d.queue ++ state.deferred.filter (·.objectId = object) }
    deferred := state.deferred.filter (·.objectId ≠ object) }

def onTransferDone (direction : Direction) (job : TransferJob) (state : RunState Pool) :
    Run Pool (RunState Pool) :=
  match direction with
  | .fromSlow => do
      let settled ← complete .fromSlow job state
      tryStart .fromSlow false settled
  | .toSlow => do
      let settled ← complete .toSlow job state
      let started ← tryStart .toSlow false (activateDeferred job.objectId settled)
      tryStart .fromSlow false started

/-! ### completion tokens -/

inductive Stream where
  | compute
  | h2d
  | d2h
  deriving DecidableEq

inductive Token where
  | taskDone (token : TaskDone)
  | transferDone (direction : Direction) (job : TransferJob)
  deriving DecidableEq

/-- What the environment decides at one step. -/
structure Choice where
  stream : Stream := .compute
  cancel : Bool := false
  taskRaises : Bool := false
  deriving DecidableEq

def pendingOn (state : RunState Pool) : Stream → Option Token
  | .compute => state.outstanding.map .taskDone
  | .h2d => state.h2d.inflight.map (.transferDone .fromSlow)
  | .d2h => state.d2h.inflight.map (.transferDone .toSlow)

/-- `next_completion`: none exactly when nothing is in flight; otherwise the
chosen stream's token, or another pending one if that stream is idle. -/
def nextCompletion (choice : Choice) (state : RunState Pool) : Option Token :=
  (pendingOn state choice.stream).or
    ((pendingOn state .h2d).or ((pendingOn state .d2h).or (pendingOn state .compute)))

def Token.time : Token → ℚ
  | .taskDone token => token.doneEvent
  | .transferDone _ job => job.doneEvent

def handle (program : Program) (token : Token) (state : RunState Pool) : Run Pool (RunState Pool) :=
  let arrived := { state with hostUs := max state.hostUs token.time }
  match token with
  | .taskDone token => onTaskDone program token arrived
  | .transferDone direction job => onTransferDone direction job arrived

/-! ### quiescence -/

/-- `escape_blocked_head`, from_slow only; the flag says whether a transfer started. -/
def escapeBlockedHead (state : RunState Pool) : Run Pool (Bool × RunState Pool) :=
  match state.h2d.inflight, state.h2d.queue with
  | none, job :: _ =>
    if ¬ state.ledger.canReserve .fast job.sizeBytes then .ok (false, state)
    else if PoolOps.canGet state.pool .fast job.sizeBytes job.objectId then .ok (false, state)
    else do
      let started ← tryStart .fromSlow true state
      pure (started.h2d.inflight.isSome, started)
  | _, _ => .ok (false, state)

/-- The next use of an object the valve may evict now, if it may. -/
def evictionUse (program : Program) (cursor : Nat) (exclude : List String)
    (record : ObjectRecord) : Option Nat :=
  match record.fast, record.backing with
  | some fast, some backing =>
    if record.id ∈ exclude ∨ fast.state ≠ .live ∨ backing.state ≠ .live ∨
        fast.version ≠ record.version ∨ backing.version ≠ record.version then none else
    let uses := usesByObj program record.id
    match uses[bisectLeft uses cursor]? with
    | none => none
    | some next =>
      let directives := directivesByObj program record.id
      if bisectLeft directives cursor < bisectLeft directives next then none else some next
  | _, _ => none

/-- Keep the later next use, then the larger size; ties keep the earlier record. -/
def betterVictim (program : Program) (cursor : Nat) (exclude : List String)
    (best : Option (Nat × ObjectRecord)) (record : ObjectRecord) : Option (Nat × ObjectRecord) :=
  match evictionUse program cursor exclude record, best with
  | none, _ => best
  | some next, none => some (next, record)
  | some next, some (bestNext, bestRecord) =>
    if bestNext < next ∨ (bestNext = next ∧ bestRecord.sizeBytes < record.sizeBytes)
    then some (next, record) else best

def evictionVictim (program : Program) (exclude : List String) (state : RunState Pool) :
    Option (Nat × ObjectRecord) :=
  state.table.foldl (betterVictim program state.cursor exclude) none

def reloadJob (state : RunState Pool) (record : ObjectRecord) : TransferJob :=
  { objectId := record.id, sizeBytes := record.sizeBytes
    runtimeOverride := (state.prefetchOverride.lookup record.id).join
    anchorEvent := state.h2d.clockUs
    firedByTask := state.currentTaskId.getD "pressure_evict" }

/-- `_evict_for_pressure`; `none` when no victim is safe or the thrash guard is reached. -/
def evictForPressure (program : Program) (exclude : List String) (state : RunState Pool) :
    Run Pool (Option (RunState Pool)) :=
  if 10 * program.tasks.length ≤ state.pressureEvictions then .ok none else
  match evictionVictim program exclude state with
  | none => .ok none
  | some (_, record) =>
    match record.fast with
    | none => .ok none
    | some slot => do
        let refunded ← state.refund .fast record.sizeBytes
        let emptied := (refunded.putBuffer slot.buffer).setSlot record.id .fast none
        pure (some (enqueue .fromSlow (reloadJob state record)
          { emptied with pressureEvictions := emptied.pressureEvictions + 1 }))

def pokeH2d (wanted : Bool) (state : RunState Pool) : Run Pool (RunState Pool) :=
  if wanted then tryStart .fromSlow false state else .ok state

/-- `step` when no token is pending: pump the parked head, escape it, or evict. -/
def recover (program : Program) (exclude : List String) (pumpH2d : Bool) (state : RunState Pool) :
    Run Pool (RunState Pool) := do
  let pumped ← pokeH2d pumpH2d state
  if state.h2d.inflight.isNone ∧ pumped.h2d.inflight.isSome then .ok pumped else do
    let (escaped, after) ← escapeBlockedHead pumped
    if escaped then .ok after else do
      match ← evictForPressure program exclude after with
      | some evicted => .ok evicted
      | none => .error (.deadlock, after)

/-- `state.step`: deliver the next token, or recover at quiescence. -/
def await (program : Program) (choice : Choice) (exclude : List String) (pumpH2d : Bool)
    (state : RunState Pool) : Run Pool (RunState Pool) :=
  match nextCompletion choice state with
  | some token => handle program token state
  | none => recover program exclude pumpH2d state

/-! ### the dispatch loop -/

def bytesAt (location : Location) (outputs : List OutputSpec) : Int :=
  ((outputs.filter (·.location = location)).map (·.sizeBytes)).sum

def busyOutputs (task : TaskSpec) (escaped : List String) (state : RunState Pool) : List String :=
  (task.outputs.filter fun output =>
    output.location = .fast ∧ output.id ∉ escaped ∧
      ¬ PoolOps.canGet state.pool output.location output.sizeBytes output.id).map (·.id)

def reserveOutput (task : TaskSpec) (escaped : List String) (state : RunState Pool)
    (output : OutputSpec) : Run Pool (RunState Pool) := do
  let charged ← state.charge output.location output.sizeBytes
  let (buffer, taken) ← charged.takeBuffer output.location output.sizeBytes (some output.id)
    (decide (output.id ∈ escaped))
  let added := { taken with
    table := taken.table.add { id := output.id, sizeBytes := output.sizeBytes } }
  let record ← added.requireRecord output.id
  if (record.slot output.location).isSome then
    .error (.outputCollides task.id output.id, added)
  else .ok (added.setSlot output.id output.location
    (some { buffer := buffer, state := .reserved, version := record.version }))

def launchVersions (task : TaskSpec) (state : RunState Pool) : List (String × Option Nat) :=
  task.inputs.map fun object =>
    (object, (state.table.get object).bind fun record => record.fast.map (·.version))

/-- Start the task on the compute stream; the executable may raise. -/
def launch (choice : Choice) (task : TaskSpec) (position : Nat) (state : RunState Pool) :
    Run Pool (RunState Pool) :=
  let start := max state.computeClockUs state.hostUs
  if choice.taskRaises then .error (.taskRaised task.id, state) else
  .ok { state with
    computeClockUs := start + task.runtimeUs
    outstanding := some
      { task := task, startEvent := start, doneEvent := start + task.runtimeUs }
    launches := state.launches ++ [{ task := task.id, versions := launchVersions task state }]
    phase := .dispatch (position + 1) }

/-- Steps 3 to 5 of the loop body, once inputs are live and fast bytes are free. -/
def reserveAndLaunch (choice : Choice) (task : TaskSpec) (position : Nat)
    (escaped : List String) (blocked : Bool) (state : RunState Pool) :
    Run Pool (RunState Pool) := do
  if ¬ state.ledger.canReserve .backing (bytesAt .backing task.outputs) then
    .error (.backingCapacity task.id, state) else
  let reserved ← task.outputs.foldlM (reserveOutput task escaped) state
  let pumped ← pokeH2d blocked reserved
  launch choice task position pumped

def finalViolations (program : Program) (state : RunState Pool) : List String :=
  (program.finalLocations.filter fun entry =>
    match state.table.get entry.1 with
    | none => true
    | some record =>
      match record.slot entry.2 with
      | none => true
      | some slot => decide (slot.state ≠ .live ∨ slot.version ≠ record.version)).map (·.1)

def waitingInputs (task : TaskSpec) (state : RunState Pool) : List String :=
  task.inputs.filter fun object => state.table.fastState object ≠ some .live

/-- One iteration of whichever loop of `run_dispatch` the run stands in. -/
def step (program : Program) (choice : Choice) (state : RunState Pool) : Run Pool (RunState Pool) :=
  match state.phase with
  | .dispatch position =>
    match program.tasks[position]? with
    | none => .ok { state with phase := .drain }
    | some task =>
      if choice.cancel then .error (.cancelled, state)
      else if task.host then .error (.hostTask task.id, state)
      else .ok { state with
        cursor := position, currentTaskId := some task.id, phase := .pacing position }
  | .pacing position =>
    match program.tasks[position]?, state.outstanding with
    | some task, some _ => await program choice task.inputs true state
    | _, _ => .ok { state with phase := .inputs position }
  | .inputs position =>
    match program.tasks[position]? with
    | none => .ok { state with phase := .drain }
    | some task =>
      if waitingInputs task state = [] then
        .ok { state with phase := .reserve position [] false }
      else await program choice task.inputs true state
  | .reserve position escaped blocked =>
    match program.tasks[position]? with
    | none => .ok { state with phase := .drain }
    | some task =>
      let admitted := state.ledger.canReserve .fast (bytesAt .fast task.outputs)
      let busy := busyOutputs task escaped state
      if admitted ∧ busy = [] then reserveAndLaunch choice task position escaped blocked state
      else match nextCompletion choice state with
        | some token => handle program token state
        | none =>
          if admitted then
            .ok { state with phase := .reserve position (escaped ++ busy) blocked }
          else do
            let recovered ← recover program task.inputs false state
            pure { recovered with phase := .reserve position escaped true }
  | .drain =>
    match nextCompletion choice state with
    | some token => handle program token state
    | none =>
      if state.h2d.queue ≠ [] ∨ state.d2h.queue ≠ [] ∨ state.deferred ≠ [] then
        .error (.transfersStuck, state)
      else if finalViolations program state ≠ [] then .error (.finalLocations, state)
      else .ok { state with phase := .finished }
  | .finished => .ok state

/-- The run after a list of environment choices, one per iteration. -/
def runSteps (program : Program) (choices : List Choice) (state : RunState Pool) :
    Run Pool (RunState Pool) :=
  choices.foldlM (fun state choice => step program choice state) state

/-! ### setup and terminal cleanup -/

def initialState (program : Program) (provided : List (String × Buffer)) (pool : Pool) :
    RunState Pool :=
  { ledger :=
      { fastCapacity := program.fastMemoryCapacity
        backingCapacity := program.backingMemoryCapacity }
    pool := pool
    h2d := { bandwidth := program.bandwidthFromSlow }
    d2h := { bandwidth := program.bandwidthToSlow }
    providedHandles := provided.map (·.2.handle) }

/-- The buffer of an initial object: the provided one when it already sits at the
object's location, otherwise one of the pool. -/
def initialBuffer (provided : List (String × Buffer)) (spec : ObjectSpec) (state : RunState Pool) :
    Run Pool (Buffer × RunState Pool) :=
  match provided.lookup spec.id with
  | none => state.takeBuffer spec.location spec.sizeBytes (some spec.id) false
  | some buffer =>
    if buffer.sizeBytes < spec.sizeBytes then .error (.providedTooSmall spec.id, state)
    else if buffer.location = spec.location then .ok (buffer, state)
    else state.takeBuffer spec.location spec.sizeBytes (some spec.id) false

/-- `_load_initial` -/
def loadInitial (provided : List (String × Buffer)) (state : RunState Pool) (spec : ObjectSpec) :
    Run Pool (RunState Pool) := do
  let added := { state with
    table := state.table.add { id := spec.id, sizeBytes := spec.sizeBytes } }
  let record ← added.requireRecord spec.id
  if (record.slot spec.location).isSome then .error (.duplicateInitial spec.id, added) else
  let charged ← added.charge spec.location spec.sizeBytes
  let (buffer, taken) ← initialBuffer provided spec charged
  .ok (taken.setSlot spec.id spec.location
    (some { buffer := buffer, state := .live, version := 0 }))

def load (program : Program) (provided : List (String × Buffer)) (pool : Pool) :
    Run Pool (RunState Pool) :=
  program.initialObjects.foldlM (loadInitial provided) (initialState program provided pool)

def heldBuffers (record : ObjectRecord) : List Buffer :=
  (record.fast.toList ++ record.backing.toList).map (·.buffer)

/-- Every buffer still held by an object returns to the pool, except the caller's own. -/
def reclaim (state : RunState Pool) : RunState Pool :=
  ((state.table.flatMap heldBuffers).filter fun buffer =>
    buffer.handle ∉ state.providedHandles).foldl RunState.putBuffer state

/-- `execute`: the state a run leaves behind, with its error if it failed; `none`
while the choices have not brought the run to an end. The cleanup scope is
published after setup, so a failing setup is not cleaned up. -/
def execute (program : Program) (provided : List (String × Buffer)) (pool : Pool)
    (choices : List Choice) : Option (Option EngineError × RunState Pool) :=
  if validateProgram program ≠ [] then
    some (some .invalidProgram, initialState program provided pool) else
  match load program provided pool with
  | .error (fault, state) => some (some fault, state)
  | .ok start =>
    match runSteps program choices start with
    | .error (fault, state) => some (some fault, reclaim state)
    | .ok state => if state.phase = .finished then some (none, reclaim state) else none

end Transfers

end Dataflow
