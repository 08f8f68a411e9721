import Dataflow.LaunchMoves

/-!
Whole runs. `Running` is what every reached state satisfies: the run stands for
the sequential reading after the retired tasks, the launches so far are those of
that reading, and the phase of the loop fits. One step keeps it, so every run
does, as long as no retirement repeats a prefetch that is still pending.
-/

namespace Dataflow

open StatefulOutcome RunState KeyedTable ObjectRecord List

variable {Pool : Type} [PoolOps Pool] {setting : Setting Pool} {state next : RunState Pool}
  {choice : Choice} {task : TaskSpec} {position : Nat}

/-! ### what a step delivers -/

/-- The task the step retires, if it delivers a task's token. -/
def retiring (choice : Choice) (state : RunState Pool) : Option TaskSpec :=
  match state.phase, nextCompletion choice state with
  | .pacing _, some (.taskDone token) | .drain, some (.taskDone token) => some token.task
  | _, _ => none

def CalmStep (program : Program) (choice : Choice) (state : RunState Pool) : Prop :=
  ∀ task ∈ retiring choice state, Calm program task state

instance (program : Program) (choice : Choice) (state : RunState Pool) :
    Decidable (CalmStep program choice state) :=
  match done : retiring choice state with
  | none => .isTrue (by simp [CalmStep, done])
  | some task => decidable_of_iff (Calm program task state) (by simp [CalmStep, done])

/-- No step of the run repeats a pending prefetch. -/
def CalmRun (program : Program) : List Choice → RunState Pool → Prop
  | [], _ => True
  | choice :: rest, state => CalmStep program choice state ∧
      ∀ next, step program choice state = .ok next → CalmRun program rest next

instance decidableCalmRun (program : Program) :
    (choices : List Choice) → (state : RunState Pool) → Decidable (CalmRun program choices state)
  | [], _ => .isTrue trivial
  | choice :: rest, state =>
    match stepped : step program choice state with
    | .error _ => decidable_of_iff (CalmStep program choice state) (by simp [CalmRun, stepped])
    | .ok next =>
      have := decidableCalmRun program rest next
      decidable_of_iff (CalmStep program choice state ∧ CalmRun program rest next)
        (by simp [CalmRun, stepped])

omit [PoolOps Pool] in
theorem next_completion_none (idle : nextCompletion choice state = none) :
    state.outstanding = none ∧ state.h2d.inflight = none ∧ state.d2h.inflight = none := by
  simpa [nextCompletion, pendingOn, and_comm, and_left_comm, and_assoc] using
    (Option.or_eq_none_iff.mp idle).2

omit [PoolOps Pool] in
theorem next_completion_some {token : Token} (delivers : nextCompletion choice state = some token) :
    ∃ stream, pendingOn state stream = some token := by
  simp only [nextCompletion, Option.or_eq_some_iff] at delivers
  rcases delivers with chosen | ⟨_, inbound | ⟨_, outbound | ⟨_, computed⟩⟩⟩
  · exact ⟨choice.stream, chosen⟩
  · exact ⟨.h2d, inbound⟩
  · exact ⟨.d2h, outbound⟩
  · exact ⟨.compute, computed⟩

omit [PoolOps Pool] in
theorem task_done_outstanding {token : TaskDone}
    (delivers : nextCompletion choice state = some (.taskDone token)) :
    state.outstanding = some token := by
  obtain ⟨stream, pending⟩ := next_completion_some delivers
  cases stream <;> simp [pendingOn] at pending
  exact pending

omit [PoolOps Pool] in
theorem transfer_done_inflight {direction : Direction} {job : TransferJob}
    (delivers : nextCompletion choice state = some (.transferDone direction job)) :
    (state.lane direction).inflight = some job := by
  obtain ⟨stream, pending⟩ := next_completion_some delivers
  cases stream <;> simp [pendingOn] at pending <;> obtain ⟨found, rfl⟩ := pending <;> exact found

omit [PoolOps Pool] in
theorem live_slot {object : String} (live : state.table.fastState object = some .live) :
    ∃ record slot, state.table.get object = some record ∧ record.fast = some slot ∧
      slot.state = .live := by
  cases found : state.table.get object with
  | none => simp [ObjectTable.fastState, found] at live
  | some record =>
    simp only [ObjectTable.fastState, found] at live
    obtain ⟨slot, held, alive⟩ := Option.map_eq_some_iff.mp live
    exact ⟨record, slot, rfl, held, alive⟩

/-! ### the invariant -/

def frontierOf (state : RunState Pool) : Frontier :=
  match state.outstanding with
  | none => ⟨state.launches.length, state.launches.length, []⟩
  | some token => ⟨state.launches.length, state.launches.length - 1, token.task.outputs⟩

/-- The inputs that must stay live: those of the outstanding task, or of the task
whose outputs are being reserved. -/
def heldBy (program : Program) (state : RunState Pool) : List String :=
  match state.outstanding, state.phase with
  | some token, _ => token.task.inputs
  | none, .reserve position _ _ => ((program.tasks[position]?).map (·.inputs)).getD []
  | none, _ => []

def AtPhase (program : Program) (state : RunState Pool) : Phase → Prop
  | .dispatch position => state.launches.length = position
  | .pacing position => state.launches.length = position ∧ state.cursor = position ∧
      (program.tasks[position]?).isSome
  | .inputs position | .reserve position _ _ => state.launches.length = position ∧
      state.cursor = position ∧ (program.tasks[position]?).isSome ∧ state.outstanding = none
  | .drain => program.tasks.length ≤ state.launches.length
  | .finished => program.tasks.length ≤ state.launches.length ∧ state.outstanding = none

/-- No transfer is queued, deferred or in flight. -/
structure Quiet (state : RunState Pool) : Prop where
  inLane : state.h2d.queue = [] ∧ state.h2d.inflight = none
  outLane : state.d2h.queue = [] ∧ state.d2h.inflight = none
  waiting : state.deferred = []

structure Running (setting : Setting Pool) (state : RunState Pool) : Prop where
  tracks : Tracks setting (memoryAfter setting.program (frontierOf state).retired)
    (frontierOf state) state
  live : Live (heldBy setting.program state) state
  launches : state.launches = sequentialLaunches setting.program state.launches.length
  reached : state.launches.length ≤ setting.program.tasks.length
  outstanding : ∀ token, state.outstanding = some token → ∃ position,
    state.launches.length = position + 1 ∧ setting.program.tasks[position]? = some token.task
  atPhase : AtPhase setting.program state state.phase
  ended : state.phase = .finished → Quiet state

omit [PoolOps Pool] in
theorem same_of_control (same : control next = control state) :
    next.phase = state.phase ∧ next.cursor = state.cursor ∧
      next.outstanding = state.outstanding ∧ next.launches = state.launches := by
  simp only [control, Prod.mk.injEq] at same
  exact ⟨same.1, same.2.1, same.2.2.2.1, same.2.2.2.2⟩

omit [PoolOps Pool] in
theorem frontier_of_same (launches : next.launches = state.launches)
    (outstanding : next.outstanding = state.outstanding) : frontierOf next = frontierOf state := by
  simp only [frontierOf, launches, outstanding]

section

variable (running : Running setting state)
include running

theorem Running.moved
    (moves : Moves setting (memoryAfter setting.program (frontierOf state).retired)
      (frontierOf state) (heldBy setting.program state) state next)
    (unfinished : state.phase ≠ .finished) : Running setting next := by
  obtain ⟨phase, cursor, outstanding, launches⟩ := same_of_control moves.control
  have frontier := frontier_of_same launches outstanding
  constructor
  · rw [frontier]
    exact moves.tracks
  · have held : heldBy setting.program next = heldBy setting.program state := by
      simp only [heldBy, outstanding, phase]
    rw [held]
    exact moves.live
  · rw [launches]
    exact running.launches
  · rw [launches]
    exact running.reached
  · rw [outstanding, launches]
    exact running.outstanding
  · have fits := running.atPhase
    rw [phase]
    cases here : state.phase <;> simpa only [here, AtPhase, launches, cursor, outstanding] using fits
  · intro finished
    exact absurd (phase.symm.trans finished) unfinished

theorem Running.turn (same : view next = view state) (launches : next.launches = state.launches)
    (outstanding : next.outstanding = state.outstanding)
    (live : Live (heldBy setting.program next) state)
    (fits : AtPhase setting.program next next.phase)
    (ended : next.phase = .finished → Quiet next) : Running setting next := by
  have frontier := frontier_of_same launches outstanding
  constructor
  · rw [frontier]
    exact running.tracks.of_view same
  · intro object mem
    rw [show next.table = state.table from congrArg (·.1) same]
    exact live object mem
  · rw [launches]
    exact running.launches
  · rw [launches]
    exact running.reached
  · rw [outstanding, launches]
    exact running.outstanding
  · exact fits
  · exact ended

theorem Running.held_elsewhere (outstanding : next.outstanding = state.outstanding)
    (free : ∀ position escaped blocked, next.phase ≠ .reserve position escaped blocked) :
    Live (heldBy setting.program next) state := by
  have live := running.live
  cases waits : state.outstanding with
  | some token =>
    simp only [heldBy, outstanding, waits] at live ⊢
    exact live
  | none =>
    have empty : heldBy setting.program next = [] := by
      cases phase : next.phase with
      | reserve position escaped blocked => exact absurd phase (free position escaped blocked)
      | dispatch | pacing | inputs | drain | finished =>
        simp only [heldBy, outstanding, waits, phase]
    rw [empty]
    exact forall_mem_nil _

theorem Running.halts {fault : EngineError}
    (kind : ∀ location, fault ≠ .ledger location) : Halts setting fault state :=
  running.tracks.books.halts kind

/-! ### deliveries -/

theorem Running.retire {token : TaskDone} (waits : state.outstanding = some token) (hostUs : ℚ)
    (phase : (∃ position, state.phase = .pacing position) ∨ state.phase = .drain)
    (calm : Calm setting.program token.task state) :
    Ensures (onTaskDone setting.program token { state with hostUs := hostUs })
      (Running setting) (Halts setting) := by
  obtain ⟨position, count, there⟩ := running.outstanding token waits
  have frontier : frontierOf state = ⟨position + 1, position, token.task.outputs⟩ := by
    simp only [frontierOf, waits, count, Nat.add_sub_cancel]
  have tracks := running.tracks
  have live := running.live
  rw [frontier] at tracks
  simp only [heldBy, waits] at live
  have arrived : Tracks setting (memoryAfter setting.program position)
      ⟨position + 1, position, token.task.outputs⟩ { state with hostUs := hostUs } :=
    tracks.of_view rfl
  have unseen : ∀ output ∈ token.task.outputs,
      memoryAfter setting.program position output.id = none := fun output mem =>
    output_unknown setting.admitted there (mem_map_of_mem mem) (le_refl _)
  apply ensures_mono (on_task_done arrived there live unseen calm)
  · intro next moved
    obtain ⟨samePhase, sameCursor, none, sameLaunches⟩ := same_of_control moved.control
    have later : frontierOf next = ⟨position + 1, position + 1, []⟩ := by
      simp only [frontierOf, none, sameLaunches, count]
    constructor
    · rw [later, memory_after_succ there]
      exact moved.tracks
    · have empty : heldBy setting.program next = [] := by
        rcases phase with ⟨index, paced⟩ | drained
        · simp only [heldBy, none, samePhase, paced]
        · simp only [heldBy, none, samePhase, drained]
      rw [empty]
      exact moved.live
    · rw [sameLaunches]
      exact running.launches
    · rw [sameLaunches]
      exact running.reached
    · intro other still
      rw [none] at still
      cases still
    · have fits := running.atPhase
      rw [samePhase]
      rcases phase with ⟨index, paced⟩ | drained
      · simpa only [paced, AtPhase, sameLaunches, sameCursor] using fits
      · simpa only [drained, AtPhase, sameLaunches] using fits
    · intro finished
      rw [samePhase] at finished
      rcases phase with ⟨index, paced⟩ | drained
      · exact absurd (paced.symm.trans finished) (by simp)
      · exact absurd (drained.symm.trans finished) (by simp)
  · exact fun _ _ halts => halts

theorem Running.deliver {token : Token} (delivers : nextCompletion choice state = some token)
    (unfinished : state.phase ≠ .finished) (begun : ∀ position, state.phase ≠ .dispatch position)
    (calm : CalmStep setting.program choice state) :
    Ensures (handle setting.program token state) (Running setting) (Halts setting) := by
  cases token with
  | taskDone token =>
    have waits := task_done_outstanding delivers
    -- with a task outstanding the loop is pacing or draining
    have phase : (∃ position, state.phase = .pacing position) ∨ state.phase = .drain := by
      have fits := running.atPhase
      cases here : state.phase with
      | dispatch position => exact absurd here (begun position)
      | pacing position => exact Or.inl ⟨position, rfl⟩
      | inputs position => simp [here, AtPhase, waits] at fits
      | reserve position escaped blocked => simp [here, AtPhase, waits] at fits
      | drain => exact Or.inr rfl
      | finished => exact absurd here unfinished
    apply running.retire waits _ phase
    apply calm token.task
    rcases phase with ⟨position, paced⟩ | drained
    · simp [retiring, paced, delivers]
    · simp [retiring, drained, delivers]
  | transferDone direction job =>
    have inflight := transfer_done_inflight delivers
    have arrived : Moves setting (memoryAfter setting.program (frontierOf state).retired)
        (frontierOf state) (heldBy setting.program state) state
        { state with hostUs := max state.hostUs job.doneEvent } :=
      ⟨running.tracks.of_view rfl, running.live, rfl⟩
    have flies : (RunState.lane { state with hostUs := max state.hostUs job.doneEvent }
        direction).inflight = some job := by
      cases direction <;> exact inflight
    apply ensures_mono (arrived.andThen (on_transfer_done arrived.tracks arrived.live direction
      flies))
    · exact fun next moved => running.moved moved unfinished
    · exact fun _ _ halts => halts

theorem Running.await (task : TaskSpec)
    (phase : state.phase = .pacing position ∧ state.outstanding ≠ none ∨
      state.phase = .inputs position) (calm : CalmStep setting.program choice state) :
    Ensures (await setting.program choice task.inputs true state)
      (Running setting) (Halts setting) := by
  have unfinished : state.phase ≠ .finished := by
    rcases phase with ⟨here, _⟩ | here <;> simp [here]
  have begun : ∀ index, state.phase ≠ .dispatch index := by
    rcases phase with ⟨here, _⟩ | here <;> simp [here]
  simp only [Dataflow.await]
  cases delivers : nextCompletion choice state with
  | some token => exact running.deliver delivers unfinished begun calm
  | none =>
    obtain ⟨none, _, _⟩ := next_completion_none delivers
    rcases phase with ⟨_, waits⟩ | here
    · exact absurd none waits
    have fits := running.atPhase
    simp only [here, AtPhase] at fits
    have frontier : frontierOf state = ⟨position, position, []⟩ := by
      simp only [frontierOf, none, fits.1]
    have paused : (frontierOf state).launched = state.cursor := by
      rw [frontier, fits.2.1]
    have settled : (frontierOf state).retired = state.cursor := by
      rw [frontier, fits.2.1]
    have free : heldBy setting.program state = [] := by
      simp only [heldBy, none, here]
    apply ensures_mono (recover_moves running.tracks running.live paused settled _ true)
    · exact fun next moved => running.moved moved unfinished
    · exact fun _ _ halts => halts
    · rw [free]
      exact forall_mem_nil _

end

/-! ### launching -/

theorem launch_versions {frontier : Frontier} {memory : Memory}
    (tracks : Tracks setting memory frontier state) (live : Live task.inputs state) :
    launchVersions task state =
      task.inputs.map fun object => (object, (memory object).bind (·.fast)) := by
  apply map_congr_left
  intro object mem
  obtain ⟨record, slot, found, held, alive⟩ := live_slot (live object mem)
  obtain ⟨_, seen, _⟩ := (tracks.standing object).of_live found held alive
  simp [found, held, seen]

/-- The launched task is no longer a reader to come: its inputs are live, so no
reload of theirs is queued. -/
theorem Tracks.launched {memory : Memory} {outputs : List OutputSpec}
    (tracks : Tracks setting memory ⟨position, position, outputs⟩ state)
    (there : setting.program.tasks[position]? = some task) (live : Live task.inputs state) :
    Tracks setting memory ⟨position + 1, position, outputs⟩ state := by
  apply tracks.shift
  intro object stands
  apply stands.carry (by exact le_refl _)
  · exact fun _ output mem _ => mem
  rintro ⟨next, reader, reach, found, reads, untouched⟩ queued
  refine ⟨next, reader, ?_, found, reads, untouched⟩
  rcases Nat.lt_or_ge position next with later | now
  · exact later
  exfalso
  obtain rfl := Nat.le_antisymm now reach
  rw [there] at found
  cases found
  obtain ⟨record, slot, kept, held, alive⟩ := live_slot (live object reads)
  obtain ⟨_, _, alone⟩ := stands.of_live kept held alive
  exact queued (by rw [alone])

theorem Running.launch {escaped : List String} {blocked : Bool} (running : Running setting state)
    (phase : state.phase = .reserve position escaped blocked)
    (there : setting.program.tasks[position]? = some task)
    (admits : state.ledger.canReserve .fast (bytesAt .fast task.outputs) = true) :
    Ensures (reserveAndLaunch choice task position escaped blocked state)
      (Running setting) (Halts setting) := by
  have fits := running.atPhase
  simp only [phase, AtPhase] at fits
  obtain ⟨count, _, _, none⟩ := fits
  have listed := mem_of_getElem? there
  have admitted := setting.admitted.tasks task listed
  have frontier : frontierOf state = ⟨position, position, []⟩ := by
    simp only [frontierOf, none, count]
  have tracks := running.tracks
  have live := running.live
  rw [frontier] at tracks
  simp only [heldBy, none, phase, there, Option.map_some, Option.getD_some] at live
  simp only [reserveAndLaunch]
  split
  · exact running.halts (by simp)
  rename_i backed
  have unseen : ∀ output ∈ task.outputs, memoryAfter setting.program position output.id = Option.none :=
    fun output mem =>
      output_unknown setting.admitted there (mem_map_of_mem mem) (le_refl _)
  have room : Room state.ledger task.outputs := by
    apply room_of_admitted tracks.capped
    intro location
    cases location with
    | fast => exact admits
    | backing => exact not_not.mp backed
  have distinct := (nodup_flatMap.mp setting.admitted.outputsDistinct).1 task listed
  apply ensures_bind (reserve_outputs task.outputs (Moves.stay tracks live) unseen distinct
    admitted.outputsPositive room)
  intro reserved first
  apply ensures_bind (first.andThen (poke_h2d first.tracks first.live blocked))
  intro pumped moved
  obtain ⟨_, sameCursor, _, sameLaunches⟩ := same_of_control moved.control
  simp only [Dataflow.launch]
  split
  · exact Halts.of_same moved.tracks (by simp) moved.tracks.capped rfl rfl rfl
  have versions := launch_versions moved.tracks moved.live
  constructor
  · simp only [frontierOf, length_append, sameLaunches, count, length_singleton, Nat.add_sub_cancel]
    exact (moved.tracks.launched there moved.live).of_view rfl
  · exact moved.live
  · simp only [length_append, sameLaunches, count, length_singleton]
    rw [sequential_launches_succ there, running.launches, count, versions]
    rfl
  · simp only [length_append, sameLaunches, count, length_singleton]
    exact (List.getElem?_eq_some_iff.mp there).1
  · rintro token ⟨⟩
    refine ⟨position, ?_, there⟩
    simp only [length_append, sameLaunches, count, length_singleton]
  · simp only [AtPhase, length_append, sameLaunches, count, length_singleton]
  · nofun

/-! ### one step -/

omit [PoolOps Pool] in
theorem waiting_inputs_nil (ready : waitingInputs task state = []) : Live task.inputs state := by
  intro object mem
  by_contra absent
  exact filter_eq_nil_iff.mp ready object mem (by simpa using absent)

section

variable (running : Running setting state)
include running

theorem step_dispatch (phase : state.phase = .dispatch position) :
    Ensures (step setting.program choice state) (Running setting) (Halts setting) := by
  have fits := running.atPhase
  simp only [phase, AtPhase] at fits
  simp only [step, phase]
  cases there : setting.program.tasks[position]? with
  | none =>
    refine running.turn rfl rfl rfl ?_ ?_ ?_
    · exact running.held_elsewhere rfl (by simp)
    · simp only [AtPhase, fits]
      exact getElem?_eq_none_iff.mp there
    · nofun
  | some task =>
    dsimp only
    split
    · exact running.halts (by simp)
    split
    · exact running.halts (by simp)
    refine running.turn rfl rfl rfl ?_ ?_ ?_
    · exact running.held_elsewhere rfl (by simp)
    · simp [AtPhase, fits, there]
    · nofun

theorem step_pacing (phase : state.phase = .pacing position)
    (calm : CalmStep setting.program choice state) :
    Ensures (step setting.program choice state) (Running setting) (Halts setting) := by
  have fits := running.atPhase
  simp only [phase, AtPhase] at fits
  obtain ⟨count, cursor, some⟩ := fits
  obtain ⟨task, there⟩ := Option.isSome_iff_exists.mp some
  simp only [step, phase, there]
  cases waits : state.outstanding with
  | some token => exact running.await task (Or.inl ⟨phase, by simp [waits]⟩) calm
  | none =>
    refine running.turn rfl rfl waits.symm ?_ ?_ ?_
    · exact running.held_elsewhere waits.symm (by simp)
    · exact ⟨count, cursor, some, rfl⟩
    · nofun

theorem step_inputs (phase : state.phase = .inputs position)
    (calm : CalmStep setting.program choice state) :
    Ensures (step setting.program choice state) (Running setting) (Halts setting) := by
  have fits := running.atPhase
  simp only [phase, AtPhase] at fits
  obtain ⟨count, cursor, some, none⟩ := fits
  obtain ⟨task, there⟩ := Option.isSome_iff_exists.mp some
  simp only [step, phase, there]
  split
  · rename_i ready
    refine running.turn rfl rfl rfl ?_ ?_ ?_
    · simp only [heldBy, none, there, Option.map_some, Option.getD_some]
      exact waiting_inputs_nil ready
    · exact ⟨count, cursor, some, none⟩
    · nofun
  · exact running.await task (Or.inr phase) calm

theorem Running.reserving {escaped later : List String} {blocked held : Bool} (phase : state.phase = .reserve position escaped blocked) :
    Running setting { state with phase := .reserve position later held } := by
  have fits := running.atPhase
  have live := running.live
  simp only [phase, AtPhase] at fits
  refine running.turn rfl rfl rfl ?_ ?_ ?_
  · simp only [heldBy, fits.2.2.2, phase] at live ⊢
    exact live
  · exact fits
  · nofun

theorem step_reserve {escaped : List String} {blocked : Bool}
    (phase : state.phase = .reserve position escaped blocked)
    (calm : CalmStep setting.program choice state) :
    Ensures (step setting.program choice state) (Running setting) (Halts setting) := by
  have fits := running.atPhase
  simp only [phase, AtPhase] at fits
  obtain ⟨count, cursor, some, none⟩ := fits
  obtain ⟨task, there⟩ := Option.isSome_iff_exists.mp some
  have unfinished : state.phase ≠ .finished := by simp [phase]
  simp only [step, phase, there]
  split
  · rename_i ready
    exact running.launch phase there ready.1
  cases delivers : nextCompletion choice state with
  | some token => exact running.deliver delivers unfinished (by simp [phase]) calm
  | none =>
    dsimp only
    split
    · exact running.reserving phase
    have frontier : frontierOf state = ⟨position, position, []⟩ := by
      simp only [frontierOf, none, count]
    have paused : (frontierOf state).launched = state.cursor := by rw [frontier, cursor]
    have settled : (frontierOf state).retired = state.cursor := by rw [frontier, cursor]
    apply ensures_bind (recover_moves running.tracks running.live paused settled _ false)
    · intro recovered moved
      have again := running.moved moved unfinished
      exact again.reserving ((same_of_control moved.control).1.trans phase)
    · simp only [heldBy, none, phase, there, Option.map_some, Option.getD_some]
      exact fun object mem => mem

theorem step_drain (phase : state.phase = .drain) (calm : CalmStep setting.program choice state) :
    Ensures (step setting.program choice state) (Running setting) (Halts setting) := by
  have fits := running.atPhase
  simp only [phase, AtPhase] at fits
  simp only [step, phase]
  cases delivers : nextCompletion choice state with
  | some token => exact running.deliver delivers (by simp [phase]) (by simp [phase]) calm
  | none =>
    obtain ⟨none, arrived, departed⟩ := next_completion_none delivers
    dsimp only
    split
    · exact running.halts (by simp)
    rename_i empty
    simp only [not_or, ne_eq, not_not] at empty
    split
    · exact running.halts (by simp)
    · refine running.turn rfl rfl rfl ?_ ?_ ?_
      · exact running.held_elsewhere rfl (by simp)
      · exact ⟨fits, none⟩
      · exact fun _ => ⟨⟨empty.1, arrived⟩, ⟨empty.2.1, departed⟩, empty.2.2⟩

theorem step_running (calm : CalmStep setting.program choice state) :
    Ensures (step setting.program choice state) (Running setting) (Halts setting) := by
  cases phase : state.phase with
  | dispatch position => exact step_dispatch running phase
  | pacing position => exact step_pacing running phase calm
  | inputs position => exact step_inputs running phase calm
  | reserve position escaped blocked => exact step_reserve running phase calm
  | drain => exact step_drain running phase calm
  | finished =>
    simp only [step, phase]
    exact running

end

/-! ### whole runs -/

theorem run_running (choices : List Choice) (running : Running setting state)
    (calm : CalmRun setting.program choices state) :
    Ensures (runSteps setting.program choices state) (Running setting) (Halts setting) := by
  induction choices generalizing state with
  | nil => exact running
  | cons choice rest ih =>
    have one := step_running running calm.1
    simp only [runSteps, foldlM_cons]
    cases stepped : step setting.program choice state with
    | error failed =>
      rw [stepped] at one
      exact one
    | ok next =>
      rw [stepped] at one
      exact ih one (calm.2 next stepped)

theorem Loading.running {provided : List (String × Buffer)} {pool : Pool}
    (loading : Loading setting provided pool (initialMemory setting.program) state) :
    Running setting state := by
  obtain ⟨phase, cursor, outstanding, launches⟩ := same_of_control loading.control
  have none : state.outstanding = none := outstanding
  have empty : state.launches = [] := launches
  have begun : state.phase = .dispatch 0 := phase
  have frontier : frontierOf state = ⟨0, 0, []⟩ := by
    simp [frontierOf, none, empty]
  constructor
  · rw [frontier]
    exact loading.tracks
  · simp only [heldBy, none, begun]
    exact forall_mem_nil _
  · rw [empty]
    rfl
  · rw [empty]
    exact Nat.zero_le _
  · intro token still
    rw [none] at still
    cases still
  · simp [begun, AtPhase, empty]
  · intro finished
    rw [begun] at finished
    cases finished

end Dataflow
