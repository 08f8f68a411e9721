import Dataflow.Program
import Dataflow.Snapshot

/-!
The queued verbs of the service as the dispatcher runs them: the store handlers,
`run` with its records and counters, the admission of snapshot and restore, send,
and the commit of an inbound object. The execution engine is a parameter. It may
rewrite the slab and the allocator, and it returns the objects it produced.
-/

namespace Dataflow.Service

open StatefulOutcome ByteRanges KeyedTable

inductive RunState where
  | queued
  | running
  | done
  | cancelled
  | error
  deriving DecidableEq

structure RunRecord where
  runId : Nat
  progId : String
  tasksTotal : Nat
  state : RunState := .queued
  error : Option ServiceError := none
  /-- What fetch found: absent, or the four bytes of a float. -/
  fetched : List (String × Option Bytes) := []
  deriving DecidableEq

structure ProgramEntry where
  progId : String
  program : Program
  prepared : Bool := false
  runs : Nat := 0
  deriving DecidableEq

structure Counters where
  runsTotal : Nat := 0
  runsFailed : Nat := 0
  tasksExecuted : Nat := 0
  deriving DecidableEq

/-- How an execution failed: the code it is reported with, and its message. -/
structure Failure where
  wasCancelled : Bool
  message : String
  deriving DecidableEq

structure Execution where
  slab : ByteRanges.Memory
  allocator : SlabAllocator
  result : Except Failure (List (String × Bytes))

structure Machine where
  /-- The placement dry run; a message when it fails. -/
  prepare : Program → Except String Unit
  /-- The store extents bound to the program's initial objects. -/
  execute : Program → List (String × ObjectRecord) → Store → Execution

structure EngineState (Digest : Type) where
  store : Store
  programs : List ProgramEntry := []
  runs : List RunRecord := []
  counters : Counters := {}
  nextRun : Nat := 0
  snapshotJobs : List (SnapshotJob Digest) := []
  restoreJobs : List (RestoreJob Digest) := []
  /-- Objects leased by sends that have not resolved. -/
  sends : List String := []

variable {Digest : Type}

abbrev ServiceRun (Digest : Type) := Outcome ServiceError (EngineState Digest)

namespace EngineState

def withStore (service : EngineState Digest) (store : Store) : EngineState Digest :=
  { service with store := store }

def liftStore {Value : Type} (service : EngineState Digest) (run : StoreRun Value) :
    ServiceRun Digest Value :=
  match run with
  | .ok value => .ok value
  | .error (error, store) => .error (error, service.withStore store)

def updateRun (service : EngineState Digest) (runId : Nat) (change : RunRecord → RunRecord) :
    EngineState Digest :=
  { service with runs := update RunRecord.runId runId change service.runs }

def updateProgram (service : EngineState Digest) (progId : String)
    (change : ProgramEntry → ProgramEntry) : EngineState Digest :=
  { service with
    programs := update ProgramEntry.progId progId change service.programs }

/-! ### run -/

structure RunRequest where
  progId : String
  rebind : List (String × String) := []
  fetch : List String := []
  deriving DecidableEq

def RunRequest.target (request : RunRequest) (id : String) : String :=
  (request.rebind.lookup id).getD id

def leasedInput (store : Store) (request : RunRequest) (program : Program) : Option ObjectRecord :=
  program.initialObjects.findSome? fun spec =>
    (store.object (request.target spec.id)).filter fun record => 0 < record.leaseRefs

/-- A failed binding is noted on the run record; the versions advanced before stay. -/
def bindInputs (request : RunRequest) (runId : Nat) :
    List ObjectSpec → List (String × ObjectRecord) → EngineState Digest →
      ServiceRun Digest (List (String × ObjectRecord) × EngineState Digest)
  | [], values, service => .ok (values, service)
  | spec :: specs, values, service =>
    let target := request.target spec.id
    let refuse (code : ErrorCode) (message : String) :
        ServiceRun Digest (List (String × ObjectRecord) × EngineState Digest) :=
      .error (⟨code, message⟩, service.updateRun runId fun record =>
        { record with state := .error, error := some ⟨code, spec.id ++ " -> " ++ target⟩ })
    match service.store.object target with
    | none => refuse .missingInputs (spec.id ++ " -> " ++ target ++ " not resident")
    | some record =>
      if (record.sizeBytes : Int) ≠ spec.sizeBytes then
        refuse .bindingMismatch (spec.id ++ ": " ++ target ++ " is " ++
          toString record.sizeBytes ++ " B, program wants " ++ toString spec.sizeBytes ++ " B")
      else
        bindInputs request runId specs (values ++ [(spec.id, record)])
          (service.withStore (service.store.update target fun record =>
            { record with version := record.version + 1 }))

/-- Produced finals are put into the store; a bound object is there already. -/
def captureFinals (values : List (String × ObjectRecord)) (objects : List (String × Bytes)) :
    List (String × Location) → Store → StoreRun Store
  | [], store => .ok store
  | (id, _) :: rest, store =>
    match values.lookup id, objects.lookup id with
    | none, some data => do
        let put ← store.put id (some data) none
        captureFinals values objects rest put
    | _, _ => captureFinals values objects rest store

def fetchAll (runId : Nat) : List String → EngineState Digest → ServiceRun Digest (EngineState Digest)
  | [], service => .ok service
  | id :: rest, service =>
    let found := (service.store.object id).map service.store.bytes
    match found with
    | some data =>
      if data.length = 4 then
        fetchAll runId rest (service.updateRun runId fun record =>
          { record with fetched := record.fetched ++ [(id, some data)] })
      else .error (badRequest ("fetch " ++ id ++ ": " ++ toString data.length ++
        " B — only 4-byte fp32 objects fetch inline; use get_object"), service)
    | none =>
      fetchAll runId rest (service.updateRun runId fun record =>
        { record with fetched := record.fetched ++ [(id, none)] })

def hostProgram (program : Program) : Bool :=
  !program.tasks.isEmpty && program.tasks.all TaskSpec.host

def preparePlacement (machine : Machine) (entry : ProgramEntry) (service : EngineState Digest) :
    ServiceRun Digest (EngineState Digest) :=
  if hostProgram entry.program = true ∨ entry.prepared = true then .ok service
  else
    match machine.prepare entry.program with
    | .error message => .error (⟨.internal, "RuntimeError: " ++ message⟩, service)
    | .ok () => .ok (service.updateProgram entry.progId fun entry => { entry with prepared := true })

def finishRun (request : RunRequest) (runId : Nat) (program : Program)
    (values : List (String × ObjectRecord)) (service : EngineState Digest)
    (result : Except Failure (List (String × Bytes))) : ServiceRun Digest (EngineState Digest) :=
  match result with
  | .error failure =>
    let code : ErrorCode := if failure.wasCancelled then .cancelled else .runFailed
    let error : ServiceError := ⟨code, failure.message⟩
    let noted := service.updateRun runId fun record =>
      { record with
        state := if failure.wasCancelled then .cancelled else .error
        error := some error }
    .error (error, { noted with counters := { noted.counters with
      runsFailed := noted.counters.runsFailed + if failure.wasCancelled then 0 else 1 } })
  | .ok objects => do
      let counted := { service with counters := { service.counters with
        tasksExecuted := service.counters.tasksExecuted + program.tasks.length } }
      let store ← counted.liftStore
        (captureFinals values objects program.finalLocations counted.store)
      let fetched ← fetchAll runId request.fetch (counted.withStore store)
      .ok (fetched.updateRun runId fun record => { record with state := .done })

def run (machine : Machine) (service : EngineState Digest) (request : RunRequest) :
    ServiceRun Digest (EngineState Digest) :=
  match lookup ProgramEntry.progId request.progId service.programs with
  | none => .error (⟨.unknownProgram, request.progId⟩, service)
  | some entry =>
    match leasedInput service.store request entry.program with
    | some record => .error (⟨.leased, record.id ++ " leased by a snapshot"⟩, service)
    | none => do
        let runId := service.nextRun + 1
        let opened := { service with
          nextRun := runId
          runs := service.runs ++
            [{ runId := runId, progId := entry.progId, tasksTotal := entry.program.tasks.length }] }
        let (values, bound) ← bindInputs request runId entry.program.initialObjects [] opened
        let placed ← preparePlacement machine entry bound
        let started := placed.updateRun runId fun record => { record with state := .running }
        let execution := machine.execute entry.program values started.store
        let executed := { started with
          store := { started.store with
            slab := execution.slab, allocator := execution.allocator }
          counters := { started.counters with runsTotal := started.counters.runsTotal + 1 } }
        let counted := executed.updateProgram entry.progId fun entry =>
          { entry with runs := entry.runs + 1 }
        finishRun request runId entry.program values counted execution.result

/-! ### dispatch -/

/-- Token ids are drawn from a seeded generator; the call carries the drawn bytes. -/
inductive Fill where
  | zeros (sizeBytes : Nat)
  | file (path : String) (content : Option Bytes)
  | tokens (ids : Bytes)
  | retired (kind : String)
  | unknown (kind : String)
  deriving DecidableEq

inductive Call (Digest : Type) where
  | putObject (id : String) (payload : Option Bytes) (info : Info)
  | putObjectFile (id path : String) (content : Option Bytes) (info : Info)
  | createObject (id : String) (sizeBytes : Nat) (info : Info)
  | materializeObject (id : String) (fill : Fill)
  | releaseObject (id : String) (force : Bool)
  | wipe (scope : String) (force : Bool)
  | duplicateObject (src dst : String)
  | run (request : RunRequest)
  | snapshot (slices : Option (List SliceSpec))
  | restoreSnapshot (file : Option (SnapshotFile Digest)) (request : RestoreRequest)
  | sendObject (id peer : String) (releaseAfter linked : Bool)
  | peerCommitInbound (destId : String) (extent : Extent) (sizeBytes : Nat) (info : Info)
  deriving DecidableEq

def materialize (store : Store) (id : String) : Fill → StoreRun Store
  | .zeros size => do
      let put ← store.put id none (some size)
      match put.object id with
      | none => .ok put
      | some record => .ok { put with
          slab := write put.slab record.extent.offset (List.replicate record.sizeBytes 0) }
  | .file path content => store.putFromFile id path content
  | .tokens ids => store.put id (some ids) none
  | .retired kind => .error (badRequest ("fill kind '" ++ kind ++ "' is retired: the engine no " ++
      "longer knows model families. Model/optimizer-state init is a program — register + run it " ++
      "through a registered resolver kind (dataflow_training.run.driver.init_model)"), store)
  | .unknown kind => .error (badRequest ("unknown fill kind '" ++ kind ++ "'"), store)

/-- The lease of a send that cannot start is given back. -/
def sendObject (service : EngineState Digest) (id peer : String) (releaseAfter linked : Bool) :
    ServiceRun Digest (EngineState Digest) :=
  if (service.store.object id).isNone then .error (⟨.unknownObject, id⟩, service)
  else if releaseAfter then
    .error (badRequest "release_after lands with the leases/release second-writer audit", service)
  else do
    let leased ← service.liftStore (service.store.acquireLeases [id])
    if linked then .ok { service.withStore leased with sends := service.sends ++ [id] }
    else .error (⟨.peerUnreachable, peer⟩, service.withStore (leased.releaseLeases [id]))

def onStore (service : EngineState Digest) (run : StoreRun Store) :
    ServiceRun Digest (EngineState Digest) := do
  let store ← service.liftStore run
  .ok (service.withStore store)

def handle (machine : Machine) (service : EngineState Digest) :
    Call Digest → ServiceRun Digest (EngineState Digest)
  | .putObject id payload info =>
    match payload with
    | none => .error (badRequest "put_object needs payload or path", service)
    | some data => service.onStore (service.store.put id (some data) none info)
  | .putObjectFile id path content info =>
    service.onStore (service.store.putFromFile id path content info)
  | .createObject id sizeBytes info =>
    service.onStore (service.store.put id none (some sizeBytes) info)
  | .materializeObject id fill => service.onStore (materialize service.store id fill)
  | .releaseObject id force =>
    service.onStore (Prod.snd <$> service.store.release id force)
  | .wipe scope force => service.onStore (Prod.snd <$> service.store.wipe scope force)
  | .duplicateObject src dst => service.onStore (service.store.duplicate src dst)
  | .run request => service.run machine request
  | .snapshot slices => do
      let (job, store) ← service.liftStore (Service.snapshot service.store slices)
      .ok { service.withStore store with snapshotJobs := service.snapshotJobs ++ [job] }
  | .restoreSnapshot file request => do
      let (job, store) ← service.liftStore (Service.restoreSnapshot service.store file request)
      .ok { service.withStore store with restoreJobs := service.restoreJobs ++ [job] }
  | .sendObject id peer releaseAfter linked => service.sendObject id peer releaseAfter linked
  | .peerCommitInbound destId extent sizeBytes info =>
    match service.store.adoptInbound destId extent sizeBytes info with
    | none => .error (⟨.leased, destId⟩, service)
    | some store => .ok (service.withStore store)

end EngineState

end Dataflow.Service
