import Dataflow.RunAccounting
import Mathlib.Data.Nat.Find

/-!
The data of a run does not depend on its timing: when two prefetches of an object
are always separated by a release or an offload of it, every successful run
launches each task on the versions of the sequential reading and ends with its
copies. Separation is a property of the program; what a run needs is that no
retirement repeats a pending prefetch, and the first gives the second. Until then
the task that runs has its operands to itself.
-/

namespace Dataflow

open StatefulOutcome RunState KeyedTable ObjectRecord List

variable {Pool : Type} [PoolOps Pool] {setting : Setting Pool} {state next : RunState Pool}
  {choice : Choice} {program : Program}

def prefetchedAt (program : Program) (index : Nat) : List String :=
  match program.tasks[index]? with
  | none => []
  | some task => task.prefetchAfter.map (·.objectId)

def leavingAt (program : Program) (index : Nat) : List String :=
  match program.tasks[index]? with
  | none => []
  | some task => task.releasesAfter ++ task.offloadAfter.map (·.objectId)

/-- What both tasks prefetch leaves fast memory between the two prefetches. Within a
task the prefetches come last. -/
def SeparatedAt (program : Program) (first second : Nat) : Prop :=
  ∀ object ∈ prefetchedAt program second, object ∈ prefetchedAt program first →
    ∃ between ≤ second, first < between ∧ object ∈ leavingAt program between

instance (program : Program) (first second : Nat) : Decidable (SeparatedAt program first second) :=
  inferInstanceAs (Decidable (∀ object ∈ prefetchedAt program second, _ → ∃ between ≤ second, _))

/-- Any two prefetches of an object are separated by a release or an offload of it. -/
def PrefetchesSeparated (program : Program) : Prop :=
  ∀ second < program.tasks.length, ∀ first < second, SeparatedAt program first second

instance (program : Program) : Decidable (PrefetchesSeparated program) :=
  inferInstanceAs (Decidable (∀ second < program.tasks.length, ∀ first < second, _))

variable {object : String} {index : Nat} {task : TaskSpec}

theorem leaving_at (leaves : object ∈ leavingAt program index) :
    ∃ task, program.tasks[index]? = some task ∧
      (object ∈ task.releasesAfter ∨ object ∈ task.offloadAfter.map (·.objectId)) := by
  cases found : program.tasks[index]? with
  | none => simp [leavingAt, found] at leaves
  | some task =>
    simp only [leavingAt, found, mem_append] at leaves
    exact ⟨task, rfl, leaves⟩

/-- What a task prefetches without offloading it is out of fast memory before, if it
was prefetched earlier at all. -/
theorem out_before_prefetch (admitted : Admitted program) (separated : PrefetchesSeparated program)
    {position : Nat} (there : program.tasks[position]? = some task)
    (listed : object ∈ task.prefetchAfter.map (·.objectId))
    (kept : object ∉ task.offloadAfter.map (·.objectId))
    (earlier : index < position) (before : object ∈ prefetchedAt program index) :
    (memoryAfter program position).Out object := by
  have inside := (List.getElem?_eq_some_iff.mp there).1
  have taskAdmitted := admitted.tasks task (mem_of_getElem? there)
  -- the last prefetch before this one
  let last := Nat.findGreatest (fun index => object ∈ prefetchedAt program index) (position - 1)
  have prefetched := Nat.findGreatest_spec (P := fun index => object ∈ prefetchedAt program index)
      (Nat.le_sub_one_of_lt earlier) before
  have bounded : last ≤ position - 1 := Nat.findGreatest_le _
  have now : object ∈ prefetchedAt program position := by
    simpa only [prefetchedAt, there] using listed
  obtain ⟨between, below, above, leaves⟩ :=
    separated position inside last (by omega) object now prefetched
  obtain ⟨leaver, found, leaves⟩ := leaving_at leaves
  have strictly : between < position := by
    rcases Nat.lt_or_eq_of_le below with strict | same
    · exact strict
    subst same
    rw [there] at found
    cases found
    rcases leaves with released | offloaded
    · exact absurd listed (taskAdmitted.releaseNotPrefetch object released)
    · exact absurd offloaded kept
  refine out_until_prefetched admitted found leaves strictly (Nat.le_of_lt inside) ?_
  intro later other atLeast less here again
  have repeated : object ∈ prefetchedAt program later := by
    simpa only [prefetchedAt, here] using again
  exact Nat.findGreatest_is_greatest (P := fun index => object ∈ prefetchedAt program index)
    (Nat.lt_of_lt_of_le above atLeast) (Nat.le_sub_one_of_lt less) repeated

omit [PoolOps Pool] in
theorem retiring_outstanding (retires : retiring choice state = some task) :
    ∃ token, state.outstanding = some token ∧ token.task = task := by
  cases delivers : nextCompletion choice state with
  | none => cases phase : state.phase <;> simp [retiring, delivers, phase] at retires
  | some token =>
    cases token with
    | taskDone token =>
      refine ⟨token, task_done_outstanding delivers, ?_⟩
      cases phase : state.phase <;> simp [retiring, delivers, phase] at retires <;> exact retires
    | transferDone direction job =>
      cases phase : state.phase <;> simp [retiring, delivers, phase] at retires

theorem calm_of_separated (separated : PrefetchesSeparated setting.program)
    (running : Running setting state) : CalmStep setting.program choice state := by
  intro task retires object listed kept
  rintro ⟨job, mem, named, _⟩
  obtain ⟨token, waits, same⟩ := retiring_outstanding retires
  subst same
  obtain ⟨position, count, there⟩ := running.outstanding token waits
  have frontier : frontierOf state = ⟨position + 1, position, token.task.outputs⟩ := by
    simp only [frontierOf, waits, count, Nat.add_sub_cancel]
  have tracks := running.tracks
  rw [frontier] at tracks
  subst named
  obtain ⟨cause, cell, seen, inFast⟩ := (tracks.standing job.objectId).of_awaited (awaited_at mem)
  rcases cause with ⟨index, firing, early, found, _, fires⟩ | ⟨reader, _, reach, _, _, untouched⟩
  · have fired : job.objectId ∈ prefetchedAt setting.program index := by
      simpa only [prefetchedAt, found] using fires
    exact inFast (out_before_prefetch setting.admitted separated there listed kept early fired
      cell seen)
  · exact untouched position token.task (le_refl _) reach there (mem_append_right _ listed)

theorem calm_run_of_separated (separated : PrefetchesSeparated setting.program)
    (choices : List Choice) (running : Running setting state) :
    CalmRun setting.program choices state := by
  induction choices generalizing state with
  | nil => trivial
  | cons choice rest ih =>
    have calm : CalmStep setting.program choice state := calm_of_separated separated running
    refine ⟨calm, ?_⟩
    intro next stepped
    exact ih (ensures_of_ok stepped (step_running running calm))

/-! ### successful runs -/

/-- The version of an object's copy at a location. -/
def copyVersion (table : ObjectTable) (object : String) (location : Location) : Option Nat :=
  (table.get object).bind fun record => versionOf (record.slot location)

theorem Running.final_copies (running : Running setting state) (finished : state.phase = .finished)
    (object : String) (location : Location) : copyVersion state.table object location =
      (memoryAfter setting.program setting.program.tasks.length object).bind (·.copy location) := by
  have fits := running.atPhase
  simp only [finished, AtPhase] at fits
  obtain ⟨most, none⟩ := fits
  have all := Nat.le_antisymm running.reached most
  have frontier : frontierOf state =
      ⟨setting.program.tasks.length, setting.program.tasks.length, []⟩ := by
    simp only [frontierOf, none, all]
  have tracks := running.tracks
  rw [frontier] at tracks
  have quiet := running.ended finished
  have jobless : placeOf state object = { record := (placeOf state object).record } := by
    simp [placeOf, quiet.inLane, quiet.outLane, quiet.waiting]
  rcases (tracks.standing object).of_no_jobs rfl jobless with ⟨unseen, absent⟩ |
    ⟨record, found, _, _, seen⟩
  · have missing : state.table.get object = Option.none := absent
    simp only [copyVersion, missing, unseen, Option.bind_none]
  · have here : state.table.get object = some record := found
    simp only [copyVersion, here, seen, Option.bind_some]
    cases location <;> rfl

theorem reclaim_keeps (state : RunState Pool) :
    (reclaim state).table = state.table ∧ (reclaim state).launches = state.launches := by
  exact foldlRecOn (motive := fun later : RunState Pool =>
    later.table = state.table ∧ later.launches = state.launches) _ RunState.putBuffer ⟨rfl, rfl⟩
    (fun _ kept _ _ => kept)

theorem execute_succeeded {provided : List (String × Buffer)} {pool : Pool}
    {choices : List Choice} {final : RunState Pool}
    (succeeded : execute program provided pool choices = some (none, final)) :
    validateProgram program = [] ∧ ∃ start state, load program provided pool = .ok start ∧
      runSteps program choices start = .ok state ∧ state.phase = .finished ∧
      final = reclaim state := by
  by_cases accepted : validateProgram program = []
  · refine ⟨accepted, ?_⟩
    cases loaded : load program provided pool with
    | error failed => simp [execute, accepted, loaded] at succeeded
    | ok start =>
      cases ran : runSteps program choices start with
      | error failed => simp [execute, accepted, loaded, ran] at succeeded
      | ok state =>
        simp only [execute, accepted, loaded, ran, ne_eq, not_true_eq_false, if_false,
          Option.ite_none_right_eq_some, Option.some.injEq, Prod.mk.injEq, true_and]
          at succeeded
        exact ⟨start, state, rfl, ran, succeeded.1, succeeded.2.symm⟩
  · simp [execute, accepted] at succeeded

/-- Timing decides neither what the tasks are launched on nor which copies remain. -/
theorem data_timing_independent {provided : List (String × Buffer)} {pool : Pool}
    {choices : List Choice} {final : RunState Pool} (separated : PrefetchesSeparated program)
    (succeeded : execute program provided pool choices = some (none, final)) :
    final.launches = sequentialLaunches program program.tasks.length ∧
    ∀ object location, copyVersion final.table object location =
      (memoryAfter program program.tasks.length object).bind (·.copy location) := by
  obtain ⟨accepted, start, state, loaded, ran, finished, same⟩ := execute_succeeded succeeded
  have begun := ensures_of_ok (rfl : runSteps program [] start = .ok start)
    (calm_run_running accepted loaded trivial)
  have calm := calm_run_of_separated separated choices begun
  have running := ensures_of_ok ran (calm_run_running accepted loaded calm)
  have fits := running.atPhase
  simp only [finished, AtPhase] at fits
  have all := Nat.le_antisymm running.reached fits.1
  rw [same, (reclaim_keeps state).1, (reclaim_keeps state).2]
  constructor
  · rw [running.launches, all]
    rfl
  · exact running.final_copies finished

/-- `A` travels twice: it is prefetched, offloaded after a mutation, and prefetched again. -/
def roundTrip : Program where
  name := "round trip"
  initialObjects :=
    [{ id := "X", sizeBytes := 4, location := .fast },
     { id := "A", sizeBytes := 4, location := .backing }]
  tasks :=
    [{ id := "t0", inputs := ["X"], prefetchAfter := [{ objectId := "A" }] },
     { id := "t1", inputs := ["A", "X"], mutates := ["A"]
       offloadAfter := [{ objectId := "A" }] },
     { id := "t2", inputs := ["X"], releasesAfter := ["X"], prefetchAfter := [{ objectId := "A" }] },
     { id := "t3", inputs := ["A"] }]
  fastMemoryCapacity := some 8
  bandwidthFromSlow := some 1
  bandwidthToSlow := some 1

theorem data_timing_independent_round_trip : ∃ final : RunState BufferPool,
    execute roundTrip [] {} (replicate 26 {}) = some (none, final) ∧
    final.launches = sequentialLaunches roundTrip 4 ∧
    ∀ object location, copyVersion final.table object location =
      (memoryAfter roundTrip 4 object).bind (·.copy location) := by
  have runs : ((execute roundTrip [] ({} : BufferPool) (replicate 26 {})).map (·.1)) =
      some none := by decide +kernel
  obtain ⟨⟨fault, final⟩, executed, succeeded⟩ := Option.map_eq_some_iff.mp runs
  cases succeeded
  exact ⟨final, executed, data_timing_independent (by decide +kernel) executed⟩

/-! ### every moment of a run -/

section Moments

variable {provided : List (String × Buffer)} {pool : Pool} {choices : List Choice}
  {start : RunState Pool}

theorem reached_running (accepted : validateProgram program = [])
    (loaded : load program provided pool = .ok start) (separated : PrefetchesSeparated program)
    (reached : runSteps program choices start = .ok state) :
    Running (unwatched program (validate_program_admitted accepted) provided) state := by
  have begun := ensures_of_ok (rfl : runSteps program [] start = .ok start)
    (calm_run_running accepted loaded trivial)
  exact ensures_of_ok reached
    (calm_run_running accepted loaded (calm_run_of_separated separated choices begun))

variable (accepted : validateProgram program = [])
  (loaded : load program provided pool = .ok start) (separated : PrefetchesSeparated program)
  (reached : runSteps program choices start = .ok state)
include accepted loaded separated reached

/-- While a task runs its inputs are live, and no transfer of its inputs or outputs is
queued, deferred or in flight. -/
theorem operands_undisturbed {token : TaskDone} (runs : state.outstanding = some token) :
    (∀ object ∈ token.task.inputs, state.table.fastState object = some .live) ∧
    ∀ object ∈ token.task.inputs ++ token.task.outputs.map (·.id),
      placeOf state object = { record := state.table.get object } := by
  have running := reached_running accepted loaded separated reached
  have live : ∀ object ∈ token.task.inputs, state.table.fastState object = some .live := by
    have live := running.live
    rwa [heldBy, runs] at live
  refine ⟨live, fun object operand => ?_⟩
  rcases mem_append.mp operand with input | output
  · obtain ⟨record, slot, found, held, alive⟩ := live_slot (live object input)
    rw [found]
    exact ((running.tracks.standing object).of_live found held alive).2.2
  · obtain ⟨position, count, there⟩ := running.outstanding token runs
    have unseen := output_unknown (validate_program_admitted accepted) there output (le_refl position)
    have retired : (frontierOf state).retired = position := by
      simp [frontierOf, runs, count]
    have standing := running.tracks.standing object
    rw [retired] at standing
    have alone : ∃ record, placeOf state object = { record := record } := by
      cases standing with
      | unknown _ here => exact ⟨_, here⟩
      | reserved _ _ _ _ _ _ _ here => exact ⟨_, here⟩
      | _ =>
        rename_i seen _
        cases unseen.symm.trans seen
    obtain ⟨record, here⟩ := alone
    have same : state.table.get object = record := congrArg Place.record here
    rw [same]
    exact here

/-- The launches so far are the sequential ones, and every live fast copy has the version
that the sequential reading gives it after the retired tasks. -/
theorem live_copies_current :
    state.launches = sequentialLaunches program state.launches.length ∧
    ∀ object, state.table.fastState object = some .live →
      copyVersion state.table object .fast =
        (memoryAfter program (frontierOf state).retired object).bind (·.copy .fast) := by
  have running := reached_running accepted loaded separated reached
  refine ⟨running.launches, fun object live => ?_⟩
  obtain ⟨record, slot, found, held, alive⟩ := live_slot live
  have known := ((running.tracks.standing object).of_live found held alive).2.1
  change memoryAfter program _ object = _ at known
  rw [copyVersion, found, known]
  exact congrArg versionOf held

/-- A transfer in flight has a source that nothing else changes and a destination that is
not yet live, of the same version. -/
theorem transfers_carry_one_version {direction : Direction} {job : TransferJob}
    (flying : (state.lane direction).inflight = some job) :
    ∃ record fast backing, state.table.get job.objectId = some record ∧
      record.fast = some fast ∧ record.backing = some backing ∧ fast.version = backing.version ∧
      (fast.state, backing.state) = match direction with
        | .fromSlow => (.inbound, .live)
        | .toSlow => (.outbound, .inbound) := by
  have standing := (reached_running accepted loaded separated reached).tracks.standing job.objectId
  cases direction with
  | fromSlow =>
    obtain ⟨record, slot, source, held, inbound, stored, live, same, _, here⟩ :=
      standing.of_arriving (inflight_for_some rfl ▸ congrArg (inflightFor job.objectId) flying)
    exact ⟨record, slot, source, congrArg Place.record here, held, stored, same, by rw [inbound, live]⟩
  | toSlow =>
    obtain ⟨record, slot, target, again, held, outbound, stored, inward, same, _, _, _, here⟩ :=
      standing.of_departing (inflight_for_some rfl ▸ congrArg (inflightFor job.objectId) flying)
    exact ⟨record, slot, target, congrArg Place.record here, held, stored, same.symm, by rw [outbound, inward]⟩

end Moments

/-- The third task runs while `A` is on its way out. -/
theorem round_trip_moment : ∃ start state : RunState BufferPool, ∃ token job,
    load roundTrip [] {} = .ok start ∧ runSteps roundTrip (replicate 15 {}) start = .ok state ∧
    state.outstanding = some token ∧ (state.lane .toSlow).inflight = some job := by
  have runs : Ensures (load roundTrip [] ({} : BufferPool))
      (fun start => Ensures (runSteps roundTrip (replicate 15 {}) start)
        (fun state => state.outstanding.isSome ∧ (state.lane .toSlow).inflight.isSome)
        fun _ _ => False)
      fun _ _ => False := by decide +kernel
  obtain ⟨start, loaded, ran⟩ := exists_ok runs
  obtain ⟨state, reached, busy, flying⟩ := exists_ok ran
  exact ⟨start, state, _, _, loaded, reached, (Option.some_get busy).symm, (Option.some_get flying).symm⟩

theorem operands_undisturbed_round_trip : ∃ (state : RunState BufferPool) (token : TaskDone),
    state.outstanding = some token ∧
    ∀ object ∈ token.task.inputs, state.table.fastState object = some .live := by
  obtain ⟨start, state, token, job, loaded, reached, runs, _⟩ := round_trip_moment
  exact ⟨state, token, runs,
    (operands_undisturbed (by decide +kernel) loaded (by decide +kernel) reached runs).1⟩

theorem live_copies_current_round_trip : ∃ state : RunState BufferPool,
    state.launches = sequentialLaunches roundTrip state.launches.length := by
  obtain ⟨start, state, _, _, loaded, reached, _⟩ := round_trip_moment
  exact ⟨state, (live_copies_current (by decide +kernel) loaded (by decide +kernel) reached).1⟩

theorem transfers_carry_one_version_round_trip : ∃ (state : RunState BufferPool) (job : TransferJob)
    (record : ObjectRecord), state.d2h.inflight = some job ∧
    state.table.get job.objectId = some record := by
  obtain ⟨start, state, _, job, loaded, reached, _, flying⟩ := round_trip_moment
  obtain ⟨record, _, _, found, _⟩ :=
    transfers_carry_one_version (by decide +kernel) loaded (by decide +kernel) reached flying
  exact ⟨state, job, record, flying, found⟩

end Dataflow
