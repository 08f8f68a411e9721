import Dataflow.StoreWrites

/-!
How a run record ends. `run` of `service/handlers_runs.py` with every call that can raise
after the record is opened, the run that the service reports as current, and the errors of
the engine that `execute_run` catches. An exception of another type than ServiceError is
answered as INTERNAL; a call that raises LEASED is parked, not answered.
-/

namespace Dataflow.Settlement

open StatefulOutcome ByteRanges Service EngineState KeyedTable

variable {Digest : Type}

/-- What leaves `Engine.execute` as an exception: `ENGINE_INVARIANT_ERRORS` and any other type. -/
inductive EngineError where
  | execution
  | deadlock
  | ledger
  | slab
  | transfer
  | placement
  | other (name : String)
  deriving DecidableEq

def EngineError.name : EngineError → String
  | .execution => "ExecutionError"
  | .deadlock => "DeadlockError"
  | .ledger => "LedgerError"
  | .slab => "SlabError"
  | .transfer => "TransferError"
  | .placement => "PlacementError"
  | .other name => name

/-- `execute_run` makes a failed outcome of these. -/
def EngineError.caught : EngineError → Bool
  | .execution | .deadlock => true
  | .ledger | .slab | .transfer | .placement | .other _ => false

/-- What a run calls besides the store. -/
structure Plant extends Machine where
  /-- `host_task_buffer` or `store_buffer`. -/
  bufferOf : Program → Service.ObjectRecord → Except String Unit
  /-- The resolver of a registered program, built from its spec. -/
  lookupResolver : String → Except ServiceError Unit
  groupHandles : Except String Unit
  /-- The exception of the engine, which all-host programs never touch. -/
  violates : Program → List (String × Service.ObjectRecord) → Store → Option (EngineError × String)

/-- The service with `current_run`. -/
structure Desk (Digest : Type) where
  service : EngineState Digest
  currentRun : Option Nat := none

abbrev DeskRun (Digest : Type) := Outcome ServiceError (Desk Digest)

namespace Desk

def lift {Value : Type} (desk : Desk Digest) : ServiceRun Digest Value → DeskRun Digest Value
  | .ok value => .ok value
  | .error (error, service) => .error (error, { desk with service := service })

def calls (desk : Desk Digest) : Except ServiceError Unit → DeskRun Digest Unit
  | .ok () => .ok ()
  | .error error => .error (error, desk)

def raises (desk : Desk Digest) : Except String Unit → DeskRun Digest Unit
  | .ok () => .ok ()
  | .error message => .error (⟨.internal, message⟩, desk)

/-- The binding loop: each input is bound and then its buffer is made. -/
def bindAll (plant : Plant) (program : Program) (request : RunRequest) (runId : Nat) :
    List ObjectSpec → List (String × Service.ObjectRecord) → Desk Digest →
      DeskRun Digest (List (String × Service.ObjectRecord) × Desk Digest)
  | [], values, desk => .ok (values, desk)
  | spec :: specs, values, desk => do
    let (bound, service) ← desk.lift (bindInputs request runId [spec] values desk.service)
    let next := { desk with service := service }
    next.raises ((bound.getLast?).elim (.ok ()) fun entry => plant.bufferOf program entry.2)
    bindAll plant program request runId specs bound next

/-- Up to the marking of the run as running and current. -/
def start (plant : Plant) (request : RunRequest) (entry : ProgramEntry) (desk : Desk Digest) :
    DeskRun Digest (List (String × Service.ObjectRecord) × Desk Digest) := do
  let runId := desk.service.nextRun + 1
  let (values, bound) ← bindAll plant entry.program request runId entry.program.initialObjects []
    { desk with service := desk.service.opened entry }
  let placed ← bound.lift (preparePlacement plant.toMachine entry bound.service)
  let marked := placed.updateRun runId fun record => { record with state := .running }
  .ok (values, {
    service := { marked with
      counters := { marked.counters with runsTotal := marked.counters.runsTotal + 1 } }
    currentRun := some runId })

/-- Resolver, groups and execution, up to the return of `execute_run`. -/
def launch (plant : Plant) (entry : ProgramEntry) (values : List (String × Service.ObjectRecord))
    (desk : Desk Digest) :
    DeskRun Digest (Except Failure (List (String × Bytes)) × Desk Digest) := do
  desk.calls (plant.lookupResolver entry.progId)
  desk.raises plant.groupHandles
  let execution := plant.execute entry.program values desk.service.store
  let executed := { desk with service := desk.service.withStore { desk.service.store with
    slab := execution.slab, allocator := execution.allocator } }
  if hostProgram entry.program then .ok (execution.result, executed)
  else
    match plant.violates entry.program values desk.service.store with
    | none => .ok (execution.result, executed)
    | some (error, message) =>
      let told := error.name ++ ": " ++ message
      if error.caught then .ok (.error ⟨false, told⟩, executed)
      else .error (⟨.internal, told⟩, executed)

/-- What follows the execution. The current run is cleared where the outcome is written. -/
def close (request : RunRequest) (runId : Nat) (program : Program)
    (values : List (String × Service.ObjectRecord)) (result : Except Failure (List (String × Bytes)))
    (desk : Desk Digest) : DeskRun Digest (Desk Digest) :=
  match finishRun request runId program values desk.service result, result with
  | .ok service, _ => .ok ⟨service, none⟩
  | .error (error, service), .error _ => .error (error, ⟨service, none⟩)
  | .error (error, service), .ok _ => .error (error, { desk with service := service })

def run (plant : Plant) (desk : Desk Digest) (request : RunRequest) : DeskRun Digest (Desk Digest) :=
  match lookup ProgramEntry.progId request.progId desk.service.programs with
  | none => .error (⟨.unknownProgram, request.progId⟩, desk)
  | some entry =>
    match leasedInput desk.service.store request entry.program with
    | some record => .error (⟨.leased, record.id ++ " leased by a snapshot"⟩, desk)
    | none => do
        let (values, started) ← desk.start plant request entry
        let (result, executed) ← started.launch plant entry values
        let counted := executed.service.updateProgram entry.progId fun entry =>
          { entry with runs := entry.runs + 1 }
        close request (desk.service.nextRun + 1) entry.program values result
          { executed with service := counted }

end Desk

/-! ### when a record ends -/

def terminal : Service.RunState → Bool
  | .done | .cancelled | .error => true
  | .queued | .running => false

def Ended (runId : Nat) (service : EngineState Digest) : Prop :=
  ∀ record ∈ lookup RunRecord.runId runId service.runs, terminal record.state = true

def Settled (runId : Nat) (desk : Desk Digest) : Prop :=
  desk.currentRun = none ∧ Ended runId desk.service

/-- Once the record is opened nothing raises before the execution returns, a binding error
apart, and after a successful execution nothing raises at all; a call that is refused finds no
run left over as the current one. LEASED parks the call. -/
def Smooth (plant : Plant) (desk : Desk Digest) (request : RunRequest) : Prop :=
  match lookup ProgramEntry.progId request.progId desk.service.programs with
  | none => desk.currentRun = none
  | some entry =>
    leasedInput desk.service.store request entry.program = none →
      Ensures (desk.start plant request entry)
        (fun started => Ensures (started.2.launch plant entry started.1)
          (fun executed => ∀ objects, executed.1 = .ok objects →
            Ensures (finishRun request (desk.service.nextRun + 1) entry.program started.1
                (executed.2.service.updateProgram entry.progId fun entry =>
                  { entry with runs := entry.runs + 1 }) executed.1)
              (fun _ => True) fun error _ => error.code = .leased)
          fun error _ => error.code = .leased)
        fun error _ => error.code ≠ .internal ∧ desk.currentRun = none

variable {request : RunRequest} {runId : Nat} {desk : Desk Digest}

theorem ended_update {service : EngineState Digest} {change : RunRecord → RunRecord}
    (keeps : ∀ record, (change record).runId = record.runId)
    (ends : ∀ record, terminal (change record).state = true) :
    Ended runId (service.updateRun runId change) := by
  intro record found
  have written : lookup RunRecord.runId runId (service.updateRun runId change).runs = _ :=
    lookup_update_self keeps
  rw [written] at found
  obtain ⟨old, _, rfl⟩ := Option.map_eq_some_iff.mp found
  exact ends old

theorem bind_all_spec (plant : Plant) (program : Program) (specs : List ObjectSpec)
    (values : List (String × Service.ObjectRecord)) (desk : Desk Digest) :
    Ensures (desk.bindAll plant program request runId specs values)
      (fun bound => bound.2.currentRun = desk.currentRun ∧ bound.2.service.runs = desk.service.runs)
      fun error after => after.currentRun = desk.currentRun ∧ error.code ≠ .leased ∧
        (error.code = .internal → after.service.runs = desk.service.runs) ∧
        (error.code ≠ .internal → Ended runId after.service) := by
  induction specs generalizing values desk with
  | nil => exact ⟨rfl, rfl⟩
  | cons spec specs ih =>
    simp only [Desk.bindAll, bindInputs]
    cases desk.service.store.object (request.target spec.id) with
    | none =>
      exact ⟨rfl, by rintro ⟨⟩, by rintro ⟨⟩, fun _ => ended_update (fun _ => rfl) fun _ => rfl⟩
    | some record =>
      dsimp only
      split_ifs
      · exact ⟨rfl, by rintro ⟨⟩, by rintro ⟨⟩, fun _ => ended_update (fun _ => rfl) fun _ => rfl⟩
      · simp only [Desk.lift, ok_bind, List.getLast?_append, List.getLast?_singleton,
          Option.some_or, Option.elim_some]
        cases plant.bufferOf program record with
        | error message => exact ⟨rfl, by rintro ⟨⟩, fun _ => rfl, fun other => absurd rfl other⟩
        | ok => exact ih _ _

theorem start_spec (plant : Plant) (request : RunRequest) (entry : ProgramEntry)
    (desk : Desk Digest) : Ensures (desk.start plant request entry)
      (fun started => started.2.currentRun = some (desk.service.nextRun + 1))
      fun error after => after.currentRun = desk.currentRun ∧ error.code ≠ .leased ∧
        (error.code = .internal → after.service.runs = (desk.service.opened entry).runs) ∧
        (error.code ≠ .internal → Ended (desk.service.nextRun + 1) after.service) := by
  apply ensures_bind (bind_all_spec _ _ _ _ _)
  rintro ⟨values, bound⟩ ⟨current, runs⟩
  dsimp only [preparePlacement]
  split_ifs
  · exact rfl
  · cases plant.prepare entry.program with
    | error message => exact ⟨current, nofun, fun _ => runs, fun other => absurd rfl other⟩
    | ok => exact rfl

theorem launch_current (plant : Plant) (entry : ProgramEntry)
    (values : List (String × Service.ObjectRecord)) (desk : Desk Digest) :
    Ensures (desk.launch plant entry values) (fun executed => executed.2.currentRun = desk.currentRun)
      fun _ after => after.currentRun = desk.currentRun := by
  simp only [Desk.launch]
  cases plant.lookupResolver entry.progId with
  | error error => exact rfl
  | ok =>
    cases plant.groupHandles with
    | error message => exact rfl
    | ok =>
      split_ifs
      · exact rfl
      · split
        · exact rfl
        · split_ifs <;> exact rfl

theorem close_spec (program : Program) (values : List (String × Service.ObjectRecord))
    (result : Except Failure (List (String × Bytes))) (busy : desk.currentRun = some runId) :
    Ensures (desk.close request runId program values result) (Settled runId)
        (fun error after => error.code ≠ .leased → Settled runId after) ↔
      ∀ objects, result = .ok objects →
        Ensures (finishRun request runId program values desk.service result) (fun _ => True)
          fun error _ => error.code = .leased := by
  simp only [Desk.close]
  cases result with
  | error failure =>
    refine iff_of_true (fun _ => ⟨rfl, ended_update (fun _ => rfl) fun record => ?_⟩) nofun
    cases failure.wasCancelled <;> rfl
  | ok objects =>
    cases finished : finishRun request runId program values desk.service (.ok objects) with
    | error pair =>
      -- the record still says running and the run is still the current one
      have current : ¬Settled runId { desk with service := pair.2 } := fun settled => by
        cases busy.symm.trans settled.1
      constructor
      · exact fun settles _ _ => by_contra fun other => current (settles other)
      · exact fun parked other => absurd (parked objects rfl) other
    | ok service =>
      refine iff_of_true ?_ fun _ _ => trivial
      obtain ⟨store, _, fetched⟩ := bind_ok.mp finished
      obtain ⟨before, _, same⟩ := bind_ok.mp fetched
      cases same
      exact ⟨rfl, ended_update (fun _ => rfl) fun _ => rfl⟩

/-- A program that does nothing, and an object of eight bytes. -/
def wideObject : Desk Unit :=
  { service :=
      { store :=
          { slab := fun _ => 0
            allocator := { capacity := 4096, free := [], usedBytes := 4096, peakBytes := 4096 }
            objects := [{ id := "a", sizeBytes := 8, extent := ⟨0, 4096⟩ }] }
        programs := [{ progId := "p", program := { name := "p" } }] } }

def raiser (raised : Option (EngineError × String)) : Plant :=
  { prepare := fun _ => .ok ()
    execute := fun _ _ store => ⟨store.slab, store.allocator, .ok []⟩
    bufferOf := fun _ _ => .ok ()
    lookupResolver := fun _ => .ok ()
    groupHandles := .ok ()
    violates := fun _ _ _ => raised }

end Dataflow.Settlement
