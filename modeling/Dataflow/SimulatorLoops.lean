import Dataflow.Simulator

/-!
The simulator's loops end by their own conditions. A completion takes one
transfer out of the pending ones and starting a transfer takes none, so the
fuel of each loop, the number of pending transfers, is never what stops it.
-/

namespace Dataflow.Sim

open StatefulOutcome

section Pending

variable {chain : TaskChain} {state next : SimState} {direction : Direction} {transfer : Queued}
  {flight : InFlight}

/-- Two states with the same transfers on their way. -/
def SameTransfers (next state : SimState) : Prop :=
  next.fromSlow = state.fromSlow ∧ next.toSlow = state.toSlow ∧ next.deferred = state.deferred

theorem SameTransfers.pending (same : SameTransfers next state) : next.pending = state.pending := by
  obtain ⟨fromSlow, toSlow, deferred⟩ := same
  simp only [SimState.pending, fromSlow, toSlow, deferred]

theorem insert_same (entry : PoolEntry) : SameTransfers (state.insert entry) state := by
  unfold SimState.insert
  cases entry.location <;> exact ⟨rfl, rfl, rfl⟩

theorem remove_same (entry : PoolEntry) : SameTransfers (state.remove entry) state := by
  unfold SimState.remove
  cases entry.location <;> exact ⟨rfl, rfl, rfl⟩

theorem mark_source_same (state : SimState) (direction : Direction) :
    Ensures (markSource direction transfer state) (SameTransfers · state) fun _ _ => True := by
  cases direction with
  | fromSlow => exact ⟨rfl, rfl, rfl⟩
  | toSlow =>
    simp only [markSource, SimState.require]
    split
    · exact ⟨rfl, rfl, rfl⟩
    · trivial

theorem open_destination_same (state : SimState) (direction : Direction) :
    Ensures (openDestination direction transfer state) (SameTransfers · state) fun _ _ => True := by
  simp only [openDestination]
  split
  · exact insert_same _
  · split_ifs
    · trivial
    · exact ⟨rfl, rfl, rfl⟩

theorem settle_entries_same (state : SimState) (direction : Direction) :
    Ensures (settleEntries direction flight state) (SameTransfers · state) fun _ _ => True := by
  cases direction with
  | fromSlow =>
    simp only [settleEntries, SimState.require]
    split
    · exact ⟨rfl, rfl, rfl⟩
    · trivial
  | toSlow =>
    simp only [settleEntries, SimState.require]
    split
    · rw [ok_bind]
      split
      · exact remove_same _
      · trivial
    · trivial

theorem try_start_pending (state : SimState) (direction : Direction) (now : ℚ) :
    Ensures (tryStart chain direction now state) (fun next => next.pending = state.pending)
      fun _ _ => True := by
  unfold tryStart
  split
  case h_2 => rfl
  case h_1 transfer rest idle queued =>
      split_ifs
      · rfl
      refine ensures_bind (mark_source_same _ direction) fun marked same => ?_
      refine ensures_bind (open_destination_same marked direction) fun opened also => ?_
      obtain ⟨fromSlow, toSlow, deferred⟩ := also
      obtain ⟨fromSlow', toSlow', deferred'⟩ := same
      change (beginTransfer direction transfer now opened).pending = state.pending
      cases direction <;>
        simp only [SimState.lane] at idle queued <;>
        simp [beginTransfer, SimState.emit, SimState.pending, SimState.setLane, SimState.lane,
          fromSlow, toSlow, deferred, fromSlow', toSlow', deferred', idle, queued] <;>
        omega

theorem activate_deferred_pending (object : String) (t : ℚ) (state : SimState) :
    (activateDeferred object t state).pending = state.pending := by
  have enqueued : ∀ (waiters : List Queued) (state : SimState),
      (waiters.foldl (fun state transfer => (state.enqueue .fromSlow transfer).emit
        (.transferEnqueue .fromSlow transfer.objId) t) state).pending =
      state.pending + waiters.length := by
    intro waiters
    induction waiters with
    | nil => exact fun _ => rfl
    | cons transfer rest ih =>
      intro state
      rw [List.foldl_cons, ih]
      simp [SimState.emit, SimState.enqueue, SimState.pending, SimState.setLane, SimState.lane]
      omega
  have parts := List.length_eq_length_filter_add (l := state.deferred) (·.objId = object)
  unfold activateDeferred
  rw [enqueued]
  simp only [SimState.pending, decide_not, ne_eq] at parts ⊢
  omega

theorem complete_pending (flying : (state.lane direction).inFlight = some flight) :
    Ensures (complete direction flight state) (fun next => next.pending + 1 = state.pending)
      fun _ _ => True := by
  refine ensures_bind (settle_entries_same state direction) fun settled same => ?_
  obtain ⟨fromSlow, toSlow, deferred⟩ := same
  cases direction with
  | fromSlow =>
    simp only [SimState.lane] at flying
    change SimState.pending _ + 1 = _
    simp [SimState.emit, SimState.pending, SimState.setLane, SimState.lane, fromSlow, toSlow,
      deferred, flying]
    omega
  | toSlow =>
    simp only [SimState.lane] at flying
    change SimState.pending (activateDeferred _ _ _) + 1 = _
    rw [activate_deferred_pending]
    simp [SimState.emit, SimState.pending, SimState.setLane, SimState.lane, fromSlow, toSlow,
      deferred, flying]
    omega

theorem settle_pending (flying : (state.lane direction).inFlight = some flight) :
    Ensures (settle chain direction flight state) (fun next => next.pending + 1 = state.pending)
      fun _ _ => True := by
  refine ensures_bind (complete_pending flying) fun completed fewer => ?_
  refine ensures_bind (try_start_pending completed direction flight.endT) fun started same => ?_
  cases direction with
  | fromSlow =>
    change started.pending + 1 = state.pending
    omega
  | toSlow =>
    refine ensures_mono (try_start_pending started .fromSlow flight.endT) ?_ fun _ _ => id
    intro last also
    rw [also, same]
    exact fewer

theorem next_flight_some (found : nextFlight state = some (direction, flight)) :
    (state.lane direction).inFlight = some flight := by
  unfold nextFlight at found
  split at found
  · cases found
  · cases found
    assumption
  · cases found
    assumption
  · split_ifs at found <;> cases found <;> assumption

theorem next_flight_none (idle : state.pending = 0) : nextFlight state = none := by
  have arriving : state.fromSlow.inFlight = none := by
    cases found : state.fromSlow.inFlight with
    | none => rfl
    | some flight => simp [SimState.pending, found] at idle
  have leaving : state.toSlow.inFlight = none := by
    cases found : state.toSlow.inFlight with
    | none => rfl
    | some flight => simp [SimState.pending, found] at idle
  simp [nextFlight, arriving, leaving]

theorem advance_loop_complete (target : ℚ) (fuel : Nat) (enough : state.pending ≤ fuel) :
    Ensures (advanceLoop chain target fuel state) (fun next => next.pending ≤ state.pending ∧
        ∀ direction flight, nextFlight next = some (direction, flight) → target < flight.endT)
      fun _ _ => True := by
  induction fuel generalizing state with
  | zero =>
    refine ⟨le_refl _, fun direction flight found => ?_⟩
    rw [next_flight_none (Nat.le_zero.mp enough)] at found
    cases found
  | succ fuel ih =>
    unfold advanceLoop
    split
    case h_1 nothing =>
        refine ⟨le_refl _, fun direction flight found => ?_⟩
        rw [nothing] at found
        cases found
    case h_2 direction flight found =>
        split_ifs with later
        · refine ⟨le_refl _, fun other found' there => ?_⟩
          rw [found] at there
          cases there
          exact later
        · refine ensures_bind (settle_pending (next_flight_some found)) fun settled fewer => ?_
          refine ensures_mono (ih (by omega)) ?_ fun _ _ => id
          rintro next ⟨fewest, reached⟩
          exact ⟨by omega, reached⟩

theorem advance_complete (target : ℚ) (state : SimState) : Ensures (advance chain target state)
      (fun next => ∀ direction flight, nextFlight next = some (direction, flight) →
        target < flight.endT) fun _ _ => True :=
  ensures_mono (advance_loop_complete target state.pending (le_refl _)) (fun _ reached => reached.2)
    fun _ _ => id

theorem advance_fewer {target : ℚ} (found : nextFlight state = some (direction, flight))
    (due : flight.endT ≤ target) :
    Ensures (advance chain target state) (fun next => next.pending < state.pending)
      fun _ _ => True := by
  have some : state.pending ≠ 0 := by
    intro idle
    rw [next_flight_none idle] at found
    cases found
  obtain ⟨fuel, size⟩ := Nat.exists_eq_succ_of_ne_zero some
  rw [advance, size, advanceLoop, found]
  simp only [not_lt.mpr due, if_false]
  refine ensures_bind (settle_pending (next_flight_some found)) fun settled fewer => ?_
  refine ensures_mono (advance_loop_complete target fuel (by omega)) ?_ fun _ _ => id
  rintro next ⟨fewest, _⟩
  omega

theorem try_start_idle (idle : state.pending = 0) (direction : Direction) (now : ℚ) :
    tryStart chain direction now state = .ok state := by
  have empty : (state.lane direction).queue = [] := by
    apply List.length_eq_zero_iff.mp
    cases direction <;> simp only [SimState.pending, SimState.lane] at idle ⊢ <;> omega
  simp [tryStart, empty]

theorem wait_ready_fuel {task : Task} (target : ℚ) (fuel : Nat) (enough : state.pending ≤ fuel) :
    waitReady chain task (fuel + 1) target state = waitReady chain task fuel target state := by
  induction fuel generalizing state target with
  | zero =>
    have idle := Nat.le_zero.mp enough
    simp only [waitReady, try_start_idle idle, ok_bind, next_flight_none idle]
  | succ fuel ih =>
    rw [waitReady, waitReady]
    split_ifs
    · rfl
    refine bind_congr_of (try_start_pending state .fromSlow target) fun arriving first => ?_
    refine bind_congr_of (try_start_pending arriving .toSlow target) fun started second => ?_
    cases found : nextFlight started with
    | none => rfl
    | some entry =>
      refine bind_congr_of (advance_fewer found (le_refl _)) fun advanced fewer => ?_
      exact ih entry.2.endT (by omega)

theorem drain_complete (fuel : Nat) (enough : state.pending ≤ fuel) :
    Ensures (drainLoop chain fuel state) (fun next => nextFlight next = none) fun _ _ => True := by
  induction fuel generalizing state with
  | zero => exact next_flight_none (Nat.le_zero.mp enough)
  | succ fuel ih =>
    unfold drainLoop
    split
    case h_1 nothing => exact nothing
    case h_2 direction flight found =>
        exact ensures_bind (settle_pending (next_flight_some found)) fun settled fewer =>
          ih (by omega)

end Pending

/-- Every loop stops by its own condition: time is reached, the task can run or is
deadlocked, nothing is in flight. A run that completes leaves no transfer behind. -/
theorem simulator_loops_end (chain : TaskChain) :
    (∀ state target, Ensures (advance chain target state) (fun next =>
      ∀ direction flight, nextFlight next = some (direction, flight) → target < flight.endT)
        fun _ _ => True) ∧
    (∀ state task target more, waitReady chain task (state.pending + more) target state =
      waitReady chain task state.pending target state) ∧
    Ensures (simulate chain) (fun last => last.pending = 0) fun _ _ => True := by
  refine ⟨fun state target => advance_complete target state, fun state task target more => ?_, ?_⟩
  · induction more with
    | zero => rfl
    | succ more ih => exact (wait_ready_fuel target _ (Nat.le_add_right ..)).trans ih
  · refine ensures_bind (ensures_const trivial) fun loaded _ => ?_
    refine ensures_bind (ensures_const trivial) fun done _ => ?_
    refine ensures_bind (drain_complete _ (le_refl _)) fun drained idle => ?_
    split_ifs with stuck
    · trivial
    · simp only [ne_eq, not_or, not_not] at stuck
      change drained.pending = 0
      cases arriving : drained.fromSlow.inFlight <;> cases leaving : drained.toSlow.inFlight <;>
        simp [nextFlight, arriving, leaving] at idle
      · simp [SimState.pending, arriving, leaving, stuck]
      · split_ifs at idle

end Dataflow.Sim
