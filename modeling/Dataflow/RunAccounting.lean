import Dataflow.BufferPool
import Dataflow.EngineRuns

/-!
The byte ledger of a run: used bytes are the bytes of the objects with a slot,
no capacity is exceeded and no ledger error is raised, under every order and
duration of completions. A prefetch that repeats a pending one breaks all of it:
the second transfer starts over the slot of the first, and its charge is never
refunded.
-/

namespace Dataflow

open StatefulOutcome RunState KeyedTable ObjectRecord List

variable {Pool : Type} [PoolOps Pool]

/-- Results about data and bytes need not watch any buffer. -/
def unwatched (program : Program) (admitted : Admitted program)
    (provided : List (String × Buffer)) : Setting Pool where
  program := program
  admitted := admitted
  caller := provided.map (·.2.handle)
  foreign := fun _ _ => False
  keeps := { get := False.elim, getEscaped := False.elim, put := fun none _ => none.elim }
  watched := []

theorem calm_run_running {program : Program} {provided : List (String × Buffer)} {pool : Pool}
    {start : RunState Pool} (accepted : validateProgram program = [])
    (loaded : load program provided pool = .ok start) {choices : List Choice}
    (calm : CalmRun program choices start) : Ensures (runSteps program choices start)
      (Running (unwatched program (validate_program_admitted accepted) provided))
      (Halts (unwatched program (validate_program_admitted accepted) provided)) := by
  let setting : Setting Pool := unwatched program (validate_program_admitted accepted) provided
  have noneWatched : ∀ handle, handle ∉ setting.watched := fun _ => not_mem_nil
  have loading := load_tracks rfl (fun handle watched => absurd watched (noneWatched handle))
      (fun handle watched => absurd watched (noneWatched handle))
      (fun _ _ _ buffer _ _ => noneWatched buffer.handle) loaded
  exact run_running choices loading.running calm

/-- Three tasks under a cap of ten bytes: `A` waits for the offload of `X`, and `X`
comes back for the last task. -/
def pipeline : Program where
  name := "pipeline"
  initialObjects :=
    [{ id := "X", sizeBytes := 4, location := .fast },
     { id := "A", sizeBytes := 4, location := .backing }]
  tasks :=
    [{ id := "t0", inputs := ["X"], mutates := ["X"]
       outputs := [{ id := "B", sizeBytes := 4, location := .fast }]
       offloadAfter := [{ objectId := "X" }], prefetchAfter := [{ objectId := "A" }] },
     { id := "t1", inputs := ["A", "B"], mutates := ["A"], releasesAfter := ["B"]
       offloadAfter := [{ objectId := "A" }], prefetchAfter := [{ objectId := "X" }] },
     { id := "t2", inputs := ["X"] }]
  finalLocations := [("A", .backing), ("X", .fast)]
  fastMemoryCapacity := some 10
  bandwidthFromSlow := some 1
  bandwidthToSlow := some 1

/-- `A` is prefetched by `t0` and again by `t1` while the first request still waits
for the bytes of `X`. -/
def repeatedPrefetch : Program where
  name := "repeat"
  initialObjects :=
    [{ id := "X", sizeBytes := 8, location := .fast },
     { id := "A", sizeBytes := 4, location := .backing }]
  tasks :=
    [{ id := "t0", inputs := ["X"], prefetchAfter := [{ objectId := "A" }] },
     { id := "t1", inputs := ["X"], releasesAfter := ["X"], prefetchAfter := [{ objectId := "A" }] },
     { id := "t2", inputs := ["A"] }]
  fastMemoryCapacity := some 10
  bandwidthFromSlow := some 1

/-- Used bytes equal the sizes of the objects that hold a slot, at every location
and in every state a calm run reaches. -/
theorem used_bytes_exact {program : Program} {provided : List (String × Buffer)} {pool : Pool}
    {choices : List Choice} {start state : RunState Pool}
    (accepted : validateProgram program = []) (loaded : load program provided pool = .ok start)
    (calm : CalmRun program choices start)
    (reached : runSteps program choices start = .ok state) (location : Location) :
    state.ledger.used location = total (occupied location) state.table :=
  (ensures_of_ok reached (calm_run_running accepted loaded calm)).tracks.accounted location

theorem used_bytes_exact_pipeline : ∃ start state : RunState BufferPool,
    load pipeline [] {} = .ok start ∧
    runSteps pipeline (replicate 21 {}) start = .ok state ∧ state.phase = .finished ∧
    ∀ location, state.ledger.used location = total (occupied location) state.table := by
  have runs : Ensures (load pipeline [] ({} : BufferPool))
      (fun start => CalmRun pipeline (replicate 21 {}) start ∧
        Ensures (runSteps pipeline (replicate 21 {}) start)
          (fun state => state.phase = .finished) fun _ _ => False)
      fun _ _ => False := by decide +kernel
  obtain ⟨start, loaded, calm, ran⟩ := exists_ok runs
  obtain ⟨state, reached, finished⟩ := exists_ok ran
  exact ⟨start, state, loaded, reached, finished,
    used_bytes_exact (by decide +kernel) loaded calm reached⟩

/-- Eight bytes are charged while the only object in fast memory has four. -/
theorem used_bytes_doubled : validateProgram repeatedPrefetch = [] ∧
    ∃ start state : RunState BufferPool, load repeatedPrefetch [] {} = .ok start ∧
      runSteps repeatedPrefetch (replicate 13 {}) start = .ok state ∧
      state.ledger.used .fast = 8 ∧ total (occupied .fast) state.table = 4 := by
  refine ⟨by decide +kernel, ?_⟩
  have runs : Ensures (load repeatedPrefetch [] ({} : BufferPool))
      (fun start => Ensures (runSteps repeatedPrefetch (replicate 13 {}) start)
        (fun state => state.ledger.used .fast = 8 ∧ total (occupied .fast) state.table = 4)
        fun _ _ => False)
      fun _ _ => False := by decide +kernel
  obtain ⟨start, loaded, ran⟩ := exists_ok runs
  obtain ⟨state, reached, charged, held⟩ := exists_ok ran
  exact ⟨start, state, loaded, reached, charged, held⟩

/-- Whatever completes first and however long it takes, a calm run raises no ledger
error and exceeds no capacity, also where it stops. -/
theorem ledger_safe {program : Program} {provided : List (String × Buffer)} {pool : Pool}
    {choices : List Choice} {start : RunState Pool} (accepted : validateProgram program = [])
    (loaded : load program provided pool = .ok start) (calm : CalmRun program choices start) :
    Ensures (runSteps program choices start)
      (fun state => ∀ location capacity, state.ledger.capacity location = some capacity →
        state.ledger.used location ≤ capacity)
      (fun fault state => (∀ location, fault ≠ .ledger location) ∧
        ∀ location capacity, state.ledger.capacity location = some capacity →
          state.ledger.used location ≤ capacity) := by
  apply ensures_mono (calm_run_running accepted loaded calm)
  · intro state running
    exact running.tracks.capped
  · intro fault state halts
    exact ⟨halts.notLedger, halts.capped⟩

theorem ledger_safe_pipeline : ∃ start : RunState BufferPool, load pipeline [] {} = .ok start ∧
    Ensures (runSteps pipeline (replicate 21 {}) start)
      (fun state => ∀ location capacity, state.ledger.capacity location = some capacity →
        state.ledger.used location ≤ capacity)
      (fun fault state => (∀ location, fault ≠ .ledger location) ∧
        ∀ location capacity, state.ledger.capacity location = some capacity →
          state.ledger.used location ≤ capacity) := by
  have begins : Ensures (load pipeline [] ({} : BufferPool))
      (CalmRun pipeline (replicate 21 {})) fun _ _ => False := by decide +kernel
  obtain ⟨start, loaded, calm⟩ := exists_ok begins
  exact ⟨start, loaded, ledger_safe (by decide +kernel) loaded calm⟩

end Dataflow
