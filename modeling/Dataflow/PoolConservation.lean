import Dataflow.TimingIndependence

/-!
Pool conservation. Whatever ends a run (success, cancellation, a raising task, an
engine error), the cleanup hands back exactly the buffers the run still has out,
so every buffer is returned as often as it was taken. Three things break this:
a setup that fails after taking a buffer is never cleaned up, a repeated prefetch
loses the buffer of the first one, and a caller's buffer used as a fast copy
enters the pool and is then skipped by the cleanup.
-/

namespace Dataflow

open StatefulOutcome RunState KeyedTable ObjectRecord List

variable {Pool : Type} [PoolOps Pool] {setting : Setting Pool} {state : RunState Pool}
  {program : Program} {provided : List (String × Buffer)} {pool : Pool}

/-! ### counting pool calls -/

variable (handle : Nat)

def PoolCall.takes : PoolCall → Bool
  | .took buffer => buffer.handle = handle
  | .returned _ => false

def PoolCall.returns : PoolCall → Bool
  | .took _ => false
  | .returned buffer => buffer.handle = handle

def timesTaken (calls : List PoolCall) : Nat :=
  calls.countP (·.takes handle)

def timesReturned (calls : List PoolCall) : Nat :=
  calls.countP (·.returns handle)

theorem balance_counts (calls : List PoolCall) :
    balance handle calls = timesTaken handle calls - timesReturned handle calls := by
  induction calls with
  | nil => rfl
  | cons call rest ih =>
    have step : balance handle (call :: rest) = callWeight handle call + balance handle rest :=
      total_cons _ _
    rw [step, ih]
    cases call with
    | took buffer | returned buffer =>
      by_cases named : buffer.handle = handle <;>
        (simp [timesTaken, timesReturned, callWeight, PoolCall.takes, PoolCall.returns, named]; try omega)

/-! ### the cleanup -/

theorem put_buffers_calls (buffers : List Buffer) (state : RunState Pool) :
    (buffers.foldl RunState.putBuffer state).poolCalls =
      state.poolCalls ++ buffers.map PoolCall.returned := by
  induction buffers generalizing state with
  | nil => simp
  | cons buffer rest ih =>
    rw [foldl_cons, ih]
    simp [RunState.putBuffer]

theorem balance_returned (buffers : List Buffer) : balance handle (buffers.map PoolCall.returned) =
      -(buffers.countP fun buffer => buffer.handle = handle : Nat) := by
  induction buffers with
  | nil => rfl
  | cons buffer rest ih =>
    have step : balance handle ((buffer :: rest).map PoolCall.returned) =
        callWeight handle (.returned buffer) + balance handle (rest.map PoolCall.returned) :=
      total_cons _ _
    rw [step, ih]
    by_cases named : buffer.handle = handle <;> simp [callWeight, named]

theorem total_holds (table : ObjectTable) : total (holds handle) table =
      ((table.flatMap heldBuffers).countP fun buffer => buffer.handle = handle : Nat) := by
  induction table with
  | nil => rfl
  | cons record rest ih =>
    rw [total_cons, ih, flatMap_cons, countP_append, Nat.cast_add]
    congr 1
    cases inFast : record.fast <;> cases inBacking : record.backing <;>
      simp [holds, slotHolds, heldBuffers, inFast, inBacking, countP_cons, add_comm]

theorem reclaim_balance (balanced : Balanced state) {handle : Nat}
    (outside : handle ∉ state.providedHandles) : balance handle (reclaim state).poolCalls = 0 := by
  have split : balance handle (reclaim state).poolCalls = balance handle state.poolCalls +
      balance handle (((state.table.flatMap heldBuffers).filter fun buffer =>
        buffer.handle ∉ state.providedHandles).map PoolCall.returned) := by
    rw [reclaim, put_buffers_calls]
    exact total_append _ _
  -- the filter drops only buffers of the caller
  have kept : ((state.table.flatMap heldBuffers).filter fun buffer =>
      buffer.handle ∉ state.providedHandles).countP (fun buffer => buffer.handle = handle) =
      (state.table.flatMap heldBuffers).countP fun buffer => buffer.handle = handle := by
    rw [countP_filter]
    apply countP_congr
    intro buffer _
    constructor
    · intro both
      simp only [Bool.and_eq_true] at both
      exact both.1
    · intro named
      have same : buffer.handle = handle := by simpa using named
      simp [same, outside]
  rw [split, balance_returned, kept, balanced handle outside, total_holds]
  omega

theorem reclaim_untouched {handle : Nat} (inside : handle ∈ state.providedHandles)
    (before : ∀ call ∈ state.poolCalls, call.handle ≠ handle) :
    balance handle (reclaim state).poolCalls = 0 := by
  have none : ∀ call ∈ (reclaim state).poolCalls, call.handle ≠ handle := by
    intro call mem
    rw [reclaim, put_buffers_calls, mem_append] at mem
    rcases mem with old | new
    · exact before call old
    obtain ⟨buffer, listed, same⟩ := mem_map.mp new
    have outside : buffer.handle ∉ state.providedHandles := by
      simpa using (mem_filter.mp listed).2
    intro named
    subst same
    have same : buffer.handle = handle := named
    exact outside (same ▸ inside)
  have weightless : ∀ call ∈ (reclaim state).poolCalls, callWeight handle call = 0 := by
    intro call mem
    have apart := none call mem
    cases call with
    | took buffer | returned buffer =>
      have other : buffer.handle ≠ handle := apart
      simp [callWeight, other]
  exact sum_eq_zero (by simpa using weightless)

/-! ### every way a run ends -/

/-- The setup does not fail once a buffer has been taken. -/
def SetupKeepsPool (program : Program) (provided : List (String × Buffer)) (pool : Pool) : Prop :=
  ∀ fault state, load program provided pool = .error (fault, state) → state.poolCalls = []

/-- No buffer of the caller is used as a fast copy. -/
def ProvidedInBacking (program : Program) (provided : List (String × Buffer)) : Prop :=
  ∀ spec ∈ program.initialObjects, spec.location = .fast →
    ∀ buffer, provided.lookup spec.id = some buffer → buffer.location ≠ .fast

theorem reclaim_conserves (balanced : Balanced state) (untouched : Untouched setting state)
    (all : setting.caller = setting.watched) (handle : Nat) :
    timesTaken handle (reclaim state).poolCalls = timesReturned handle (reclaim state).poolCalls := by
  have even : balance handle (reclaim state).poolCalls = 0 := by
    by_cases inside : handle ∈ state.providedHandles
    · have watched : handle ∈ setting.watched := by
        rw [← all, ← untouched.caller]
        exact inside
      exact reclaim_untouched inside (untouched.watched handle watched).2
    · exact reclaim_balance balanced inside
  rw [balance_counts] at even
  omega

/-- However a run ends, every buffer was returned as often as it was taken. -/
theorem pool_conserved {foreign : Pool → Nat → Prop} (keeps : Keeps foreign)
    (outside : ∀ entry ∈ provided, foreign pool entry.2.handle)
    (inBacking : ProvidedInBacking program provided)
    (setup : SetupKeepsPool program provided pool) {choices : List Choice}
    (calm : ∀ start, load program provided pool = .ok start → CalmRun program choices start)
    {fault : Option EngineError} {final : RunState Pool}
    (ended : execute program provided pool choices = some (fault, final)) (handle : Nat) :
    timesTaken handle final.poolCalls = timesReturned handle final.poolCalls := by
  by_cases accepted : validateProgram program = []
  swap
  · simp only [execute, accepted, ne_eq, not_false_eq_true, if_true, Option.some.injEq,
      Prod.mk.injEq] at ended
    rw [← ended.2]
    rfl
  let setting : Setting Pool :=
    { program := program, admitted := validate_program_admitted accepted
      foreign := foreign, keeps := keeps
      caller := provided.map (·.2.handle), watched := provided.map (·.2.handle) }
  cases loaded : load program provided pool with
  | error failed =>
    obtain ⟨raised, stopped⟩ := failed
    simp only [execute, accepted, loaded, ne_eq, not_true_eq_false, if_false, Option.some.injEq,
      Prod.mk.injEq] at ended
    rw [← ended.2, setup raised stopped loaded]
    rfl
  | ok start =>
    have loading : Loading setting provided pool (initialMemory program) start := by
      refine load_tracks rfl (fun handle watched => watched) ?_ ?_ loaded
      · intro handle watched
        obtain ⟨entry, listed, same⟩ := mem_map.mp watched
        exact same ▸ outside entry listed
      · intro spec listed fast buffer found here
        exact absurd here (inBacking spec listed fast buffer found)
    have runs := run_running choices loading.running (calm start loaded)
    simp only [execute, accepted, loaded, ne_eq, not_true_eq_false, if_false] at ended
    cases ran : runSteps program choices start with
    | error failed =>
      obtain ⟨raised, stopped⟩ := failed
      have halts := ensures_of_error ran runs
      simp only [ran, Option.some.injEq, Prod.mk.injEq] at ended
      rw [← ended.2]
      exact reclaim_conserves halts.balanced halts.untouched rfl handle
    | ok state =>
      have running := ensures_of_ok ran runs
      simp only [ran, Option.ite_none_right_eq_some, Option.some.injEq, Prod.mk.injEq] at ended
      rw [← ended.2.2]
      exact reclaim_conserves running.tracks.balanced running.tracks.untouched rfl handle

theorem buffer_pool_keeps : Keeps BufferPool.Foreign where
  get := BufferPool.get_foreign
  getEscaped := BufferPool.get_escaped_foreign
  put := BufferPool.put_foreign

/-- The caller's own backing copy of `A`. -/
def ownCopy : List (String × Buffer) :=
  [("A", { handle := 0, location := .backing, sizeBytes := 4 })]

/-- The first task is launched and the run is cancelled before the second. -/
def cancelledEarly : List Choice := [{}, {}, {}, {}, { cancel := true }]

theorem pool_conserved_cancelled : ∃ final : RunState BufferPool,
    execute pipeline ownCopy { nextHandle := 1 } cancelledEarly = some (some .cancelled, final) ∧
    final.poolCalls ≠ [] ∧
    ∀ handle, timesTaken handle final.poolCalls = timesReturned handle final.poolCalls := by
  have runs : (execute pipeline ownCopy ({ nextHandle := 1 } : BufferPool) cancelledEarly).map
      (fun ending => (ending.1, decide (ending.2.poolCalls = []))) =
      some (some .cancelled, false) := by decide +kernel
  have begins : Ensures (load pipeline ownCopy ({ nextHandle := 1 } : BufferPool))
      (CalmRun pipeline cancelledEarly) fun _ _ => False := by decide +kernel
  obtain ⟨start, loaded, calm⟩ := exists_ok begins
  obtain ⟨⟨fault, final⟩, ended, result⟩ := Option.map_eq_some_iff.mp runs
  obtain ⟨cancelled, called⟩ := Prod.mk.inj result
  subst cancelled
  refine ⟨final, ended, of_decide_eq_false called, ?_⟩
  refine pool_conserved buffer_pool_keeps ?_ ?_ ?_ ?_ ended
  · intro entry listed
    rw [mem_singleton.mp listed]
    exact ⟨Nat.zero_lt_one, forall_mem_nil _⟩
  · intro spec listed fast buffer found
    have none : ∀ spec ∈ pipeline.initialObjects, spec.location = .fast →
        ownCopy.lookup spec.id = none := by decide +kernel
    rw [none spec listed fast] at found
    cases found
  · intro raised stopped failed
    cases failed
  · intro other again
    rw [loaded] at again
    cases again
    exact calm

/-- Sixteen bytes of initial objects under a cap of ten. -/
def overfull : Program where
  name := "overfull"
  initialObjects :=
    [{ id := "X", sizeBytes := 8, location := .fast },
     { id := "Y", sizeBytes := 8, location := .fast }]
  fastMemoryCapacity := some 10

/-- The setup fails at `Y`, and the buffer of `X` stays out of the pool. -/
theorem setup_failure_leaks : ∃ final : RunState BufferPool,
    execute overfull [] {} [] = some (some (.ledger .fast), final) ∧
    timesTaken 0 final.poolCalls = 1 ∧ timesReturned 0 final.poolCalls = 0 := by
  have runs : (execute overfull [] ({} : BufferPool) []).map (fun ending =>
      (ending.1, timesTaken 0 ending.2.poolCalls, timesReturned 0 ending.2.poolCalls)) =
      some (some (.ledger .fast), 1, 0) := by decide +kernel
  obtain ⟨⟨fault, final⟩, ended, result⟩ := Option.map_eq_some_iff.mp runs
  obtain ⟨raised, taken, returned⟩ := by simpa only [Prod.mk.injEq] using result
  subst raised
  exact ⟨final, ended, taken, returned⟩

end Dataflow
