import Dataflow.SimulatorCapacity
import Dataflow.SimulatorLoops

/-!
What a launch needs, whatever the directives. An annotation of a bare chain
writes releases, offloads and prefetches and adds fast copies of backing initial
objects. In every run that gets past a launch, the pool holds the inputs under
their declared sizes and the launch fits with its outputs and its workspace; so
a chain that `validate_planning_input` rejects for a forced footprint runs under
no annotation.
-/

namespace Dataflow.Sim

open StatefulOutcome KeyedTable List

/-- The task without what a policy writes. -/
def Task.stripped (task : Task) : Task :=
  { task with releasesAfter := [], offloadAfter := [], prefetchAfter := [] }

def Object.inFast (object : Object) : Object := { object with location := .fast }

structure Annotates (bare annotated : TaskChain) : Prop where
  tasks : annotated.tasks.map Task.stripped = bare.tasks.map Task.stripped
  initial : ∃ added : List Object, annotated.initialMemory = bare.initialMemory ++ added.map Object.inFast ∧
    ∀ object ∈ added, object ∈ bare.initialMemory ∧ object.location = .backing
  rest : { annotated with tasks := bare.tasks, initialMemory := bare.initialMemory } = bare

/-- Every object has one size, and none is negative. -/
structure OneSize (chain : TaskChain) : Prop where
  one : ∀ left ∈ chain.declared, ∀ right ∈ chain.declared, left.1 = right.1 → left.2 = right.2
  nonneg : ∀ pair ∈ chain.declared, 0 ≤ pair.2

/-- The state a task is launched in. -/
structure Launch (chain : TaskChain) (task : Task) (ready : SimState) : Prop where
  accounted : Accounted chain ready
  inputs : missingInputs task ready = []
  room : WithinFast chain (ready.total .fast + task.outputBytes .fast + task.workspaceBytes)

section Launches

variable {chain : TaskChain} {state : SimState} {task : Task} {position : Nat}

theorem reserve_outputs_total (outputs : List OutputAlloc) :
    Ensures (outputs.foldlM (reserveOutput task) state)
      (fun reserved => reserved.activeWorkspace = state.activeWorkspace ∧
        reserved.total .fast = state.total .fast + total
          (fun output : OutputAlloc => if output.location = .fast then output.size else 0) outputs)
      fun _ _ => True := by
  induction outputs generalizing state with
  | nil => exact ⟨rfl, (Int.add_zero _).symm⟩
  | cons output rest ih =>
    rw [foldlM_cons]
    simp only [reserveOutput, SimState.insertNew]
    split_ifs with taken
    · trivial
    refine ensures_mono ih ?_ fun _ _ => id
    rintro reserved ⟨workspace, total⟩
    constructor
    · rw [workspace]
      cases output.location <;> rfl
    · rw [total, total_cons, SimState.insert, total_add_total]
      simp only [SimState.total]
      omega

theorem start_task_room (start : ℚ) : Ensures (startTask chain task start state)
      (fun _ => WithinFast chain (state.total .fast + task.outputBytes .fast + task.workspaceBytes))
      fun _ _ => True := by
  unfold startTask
  split_ifs
  · trivial
  refine ensures_bind (reserve_outputs_total task.outputs) fun reserved bytes => ?_
  rw [← output_bytes_total] at bytes
  obtain ⟨workspace, total⟩ := bytes
  split
  case h_1 capacity limited =>
      simp only
      split_ifs with past
      · trivial
      · intro other same
        obtain rfl := Option.some.inj (limited.symm.trans same)
        have fast : reserved.fastTotal = state.total .fast + task.outputBytes .fast := total
        have active : reserved.activeWorkspace = task.workspaceBytes := workspace
        omega
  case h_2 unlimited =>
      intro other same
      rw [unlimited] at same
      cases same

/-- With nothing under way the task is launched in the state it is found in. -/
theorem advance_idle (idle : state.pending = 0) (target : ℚ) : advance chain target state = .ok state := by
  rw [advance, idle, advanceLoop]

theorem run_task_launch (held : Accounted chain state) : Ensures (runTask chain position task state)
      (fun _ => ∃ ready, Launch chain task ready ∧ (state.pending = 0 → ready = state))
      fun _ _ => True := by
  have quiet : ∀ fault state, Raised chain fault state → True := fun _ _ _ => trivial
  refine ensures_bind (ensures_mono (target_start_accounted held task) (fun _ => id) quiet) fun target _ => ?_
  have advanced : Ensures (advance chain target state)
      (fun advanced => Accounted chain advanced ∧ (state.pending = 0 → advanced = state)) fun _ _ => True := by
    by_cases idle : state.pending = 0
    · rw [advance_idle idle]
      exact ⟨held, fun _ => rfl⟩
    · exact ensures_mono (advance_loop_accounted target _ held) (fun _ fine => ⟨fine, (absurd · idle)⟩) quiet
  refine ensures_bind advanced fun advanced fine => ?_
  have waited : Ensures (waitReady chain task advanced.pending target advanced)
      (fun found => (Accounted chain found.2 ∧ readyToRun chain task found.2 = true) ∧
        (state.pending = 0 → found.2 = state)) fun _ _ => True := by
    by_cases idle : state.pending = 0
    · obtain rfl := fine.2 idle
      rw [idle, waitReady]
      split_ifs with ready
      · exact ⟨⟨held, ready⟩, fun _ => rfl⟩
      · trivial
    · exact ensures_mono (wait_ready_accounted _ target fine.1) (fun _ kept => ⟨kept, (absurd · idle)⟩) quiet
  refine ensures_bind waited fun ready kept => ?_
  refine ensures_bind (start_task_room ready.1) fun started room => ?_
  have missing := (of_decide_eq_true kept.1.2).1
  exact ensures_const ⟨ready.2, ⟨kept.1.1, missing, room⟩, kept.2⟩

theorem simulate_launches (chain : TaskChain) :
    Ensures (simulate chain) (fun _ => ∀ task ∈ chain.tasks, ∃ ready, Launch chain task ready)
      fun _ _ => True := by
  have quiet : ∀ fault state, Raised chain fault state → True := fun _ _ _ => trivial
  refine ensures_bind (ensures_mono (load_initial_accounted chain) (fun _ => id) quiet)
    fun loaded held => ?_
  -- a task is still to come or has been launched
  have all := ensures_foldlM (fun state entry => runTask chain entry.2 entry.1 state)
    (fun rest state => (∀ entry ∈ rest, entry ∈ chain.tasks.zipIdx) ∧ Accounted chain state ∧
      ∀ entry ∈ chain.tasks.zipIdx, entry ∈ rest ∨ ∃ ready, Launch chain entry.1 ready)
    (fun entry rest state fine => by
      obtain ⟨listed, fine, done⟩ := fine
      have found := mem_zipIdx_iff_getElem?.mp (listed entry mem_cons_self)
      refine ensures_mono (ensures_and (run_task_accounted found fine) (run_task_launch fine)) ?_
        fun _ _ _ => trivial
      rintro next ⟨kept, ready, launch, _⟩
      refine ⟨(forall_mem_cons.mp listed).2, kept, fun other mem => ?_⟩
      rcases done other mem with later | launched
      · rcases mem_cons.mp later with rfl | later
        · exact .inr ⟨ready, launch⟩
        · exact .inl later
      · exact .inr launched)
    chain.tasks.zipIdx loaded ⟨fun _ => id, held, fun _ => .inl⟩
  refine ensures_bind all fun done launched => ensures_const fun task mem => ?_
  obtain ⟨position, inside, same⟩ := mem_iff_getElem.mp mem
  have entry : (task, position) ∈ chain.tasks.zipIdx :=
    mem_zipIdx_iff_getElem?.mpr (same ▸ getElem?_eq_getElem inside)
  exact (launched.2.2 _ entry).resolve_left nofun

theorem Launch.present {ready : SimState} (launch : Launch chain task ready) :
    ∀ object ∈ task.inputs, (ready.entry object .fast).isSome := by
  intro object used
  have live := filter_eq_nil_iff.mp launch.inputs object used
  cases found : ready.entry object .fast with
  | some entry => rfl
  | none => simp [found] at live

/-- The bytes of objects that are in the pool at a launch, next to what the launch takes. -/
theorem Launch.bytes {ready : SimState} (launch : Launch chain task ready) (sizes : OneSize chain)
    {held : List String} {price : String → Int} (apart : held.Nodup)
    (there : ∀ object ∈ held, (ready.entry object .fast).isSome)
    (cheap : ∀ object ∈ held, ∀ size, (object, size) ∈ chain.declared → price object ≤ size) :
    WithinFast chain ((held.map price).sum + task.outputBytes .fast + task.workspaceBytes) := by
  have resident : (held.map price).sum ≤ residentBytes .fast ready.pool := by
    have keys : (held.map fun object => (object, Location.fast)).Nodup :=
      apart.map fun _ _ same => congrArg Prod.fst same
    have bound : ((held.map fun object => (object, Location.fast)).map fun key => price key.1).sum ≤
        residentBytes .fast ready.pool := by
      refine sum_le_total launch.accounted.distinct (fun entry mem => ?_) keys fun key listed => ?_
      · split_ifs
        · exact sizes.nonneg _ (launch.accounted.declared entry mem)
        · exact le_refl 0
      · obtain ⟨object, mem, rfl⟩ := mem_map.mp listed
        obtain ⟨entry, found⟩ := Option.isSome_iff_exists.mp (there object mem)
        have place : entry.location = .fast := congrArg Prod.snd (entry_key found)
        refine ⟨entry, found, ?_⟩
        rw [if_pos place]
        exact cheap object mem entry.size (entry_declared launch.accounted found)
    rwa [map_map] at bound
  intro capacity limited
  have room := launch.room capacity limited
  rw [launch.accounted.totals] at room
  omega

end Launches

/-! ### annotations of a bare chain -/

section Annotated

variable {bare annotated : TaskChain} {task : Task} {capacity : Int}

theorem stripped_eq {left right : Task} (same : left.stripped = right.stripped) :
    left.inputs = right.inputs ∧ left.outputs = right.outputs ∧
      left.workspaceBytes = right.workspaceBytes := by
  simp only [Task.stripped, Task.mk.injEq] at same
  exact ⟨same.2.1, same.2.2.1, same.2.2.2.2.1⟩

section

variable (annotates : Annotates bare annotated)
include annotates

theorem Annotates.task_of (mem : task ∈ bare.tasks) :
    ∃ other ∈ annotated.tasks, other.stripped = task.stripped := by
  have listed := mem_map_of_mem (f := Task.stripped) mem
  rw [← annotates.tasks] at listed
  obtain ⟨other, found, same⟩ := mem_map.mp listed
  exact ⟨other, found, same⟩

theorem Annotates.same_capacity : annotated.fastMemoryCapacity = bare.fastMemoryCapacity := by
  have same := congrArg TaskChain.fastMemoryCapacity annotates.rest
  exact same

theorem Annotates.declared {pair : String × Int}
    (known : pair ∈ annotated.declared) : pair ∈ bare.declared := by
  rcases mem_append.mp known with initial | made
  · obtain ⟨object, listed, rfl⟩ := mem_map.mp initial
    obtain ⟨added, more, copies⟩ := annotates.initial
    rw [more] at listed
    rcases mem_append.mp listed with old | new
    · exact mem_append_left _ (mem_map.mpr ⟨object, old, rfl⟩)
    · obtain ⟨source, there, rfl⟩ := mem_map.mp new
      exact mem_append_left _ (mem_map.mpr ⟨source, (copies source there).1, rfl⟩)
  · obtain ⟨output, listed, rfl⟩ := mem_map.mp made
    obtain ⟨task, mem, inside⟩ := mem_flatMap.mp listed
    have found := mem_map_of_mem (f := Task.stripped) mem
    rw [annotates.tasks] at found
    obtain ⟨other, there, same⟩ := mem_map.mp found
    exact output_declared there ((stripped_eq same).2.1 ▸ inside)

theorem Annotates.one_size (sizes : OneSize bare) : OneSize annotated where
  one left first right second :=
    sizes.one left (annotates.declared first) right (annotates.declared second)
  nonneg pair known := sizes.nonneg pair (annotates.declared known)

end

/-- No annotation runs past a task whose inputs, outputs and workspace exceed the capacity. -/
theorem footprint_fits (sizes : OneSize bare) (annotates : Annotates bare annotated)
    (limited : bare.fastMemoryCapacity = some capacity) {state : SimState}
    (completes : simulate annotated = .ok state) (mem : task ∈ bare.tasks)
    (apart : task.inputs.Nodup) {price : String → Int}
    (cheap : ∀ object ∈ task.inputs, ∀ size, (object, size) ∈ bare.declared → price object ≤ size) :
    (task.inputs.map price).sum + task.outputBytes .fast + task.workspaceBytes ≤ capacity := by
  obtain ⟨other, listed, same⟩ := annotates.task_of mem
  obtain ⟨inputs, outputs, workspace⟩ := stripped_eq same
  obtain ⟨ready, launch⟩ := ensures_of_ok completes (simulate_launches annotated) other listed
  have bytes := launch.bytes (annotates.one_size sizes) apart
    (fun object used => launch.present object (inputs ▸ used))
    (fun object used size known => cheap object used size (annotates.declared known)) capacity
    (annotates.same_capacity.trans limited)
  rwa [workspace, Task.outputBytes, outputs] at bytes

/-- What the footprint check has seen before a task. -/
theorem impossible_task {sizes : SizeOf} {tasks : List Task} (found : impossibleTasks capacity sizes tasks ≠ []) :
    ∃ task ∈ tasks, ∃ known : SizeOf,
      (∀ pair ∈ known, pair ∈ sizes ∨ pair ∈ (tasks.flatMap Task.outputs).map fun output => (output.id, output.size)) ∧
      capacity < (task.inputs.map fun input => (known.lookup input).getD 0).sum +
        task.outputBytes .fast + task.workspaceBytes := by
  induction tasks generalizing sizes with
  | nil => exact absurd rfl found
  | cons task rest ih =>
    by_cases past : capacity < (forcedBytes sizes task).1 + (forcedBytes sizes task).2.1 + (forcedBytes sizes task).2.2
    · exact ⟨task, mem_cons_self, sizes, fun _ => .inl, past⟩
    rw [impossibleTasks, if_neg past, nil_append] at found
    obtain ⟨later, mem, known, seen, exceeds⟩ := ih found
    refine ⟨later, mem_cons_of_mem task mem, known, fun pair listed => ?_, exceeds⟩
    rw [flatMap_cons, map_append]
    rcases seen pair listed with before | made
    · rcases mem_append.mp before with own | earlier
      · exact .inr (mem_append_left _ (mem_reverse.mp own))
      · exact .inl earlier
    · exact .inr (mem_append_right _ made)

theorem lookup_listed {pairs : SizeOf} {object : String} {size : Int}
    (found : pairs.lookup object = some size) : (object, size) ∈ pairs := by
  induction pairs with
  | nil => cases found
  | cons pair rest ih =>
    rw [lookup_cons] at found
    split at found
    · next hit =>
      cases found
      rw [beq_iff_eq] at hit
      subst hit
      exact mem_cons_self
    · exact mem_cons_of_mem pair (ih found)

theorem first_violation_some {checks : List (Option Violation)} {found : Violation}
    (raised : firstViolation checks = some found) : some found ∈ checks := by
  obtain ⟨check, mem, same⟩ := exists_of_findSome?_eq_some raised
  exact same ▸ mem

theorem walk_some {State Item : Type} {check : State → Item → Option Violation}
    {next : State → Item → State} {state : State} {items : List Item} {found : Violation}
    (raised : walk check next state items = some found) : ∃ state item, check state item = some found := by
  induction items generalizing state with
  | nil => cases raised
  | cons item rest ih =>
    rcases Option.or_eq_some_iff.mp raised with here | ⟨_, later⟩
    · exact ⟨state, item, here⟩
    · exact ih later

/-- The checks of ids never speak about a footprint. -/
theorem ids_not_footprint {tasks : List (String × Int × Int × Int)} :
    validateIdResolution bare ≠ some (.forcedFootprint tasks capacity) := by
  have outputs : ∀ (task : Task) (initialIds known own : Finset String) (outputs : List OutputAlloc),
      checkOutputIds task initialIds known own outputs ≠ some (.forcedFootprint tasks capacity) := by
    intro task initialIds known own outputs
    induction outputs generalizing own with
    | nil => rintro ⟨⟩
    | cons output rest ih =>
      unfold checkOutputIds
      split_ifs
      · rintro ⟨⟩
      · rintro ⟨⟩
      · rintro ⟨⟩
      · exact ih _
  intro raised
  have mem := first_violation_some raised
  simp only [mem_cons, not_mem_nil, or_false] at mem
  rcases mem with initial | walked | final
  · simp [eq_comm] at initial
  · obtain ⟨known, task, found⟩ := walk_some walked.symm
    have check := first_violation_some found
    simp only [mem_cons, not_mem_nil, or_false] at check
    rcases check with c | c | c | c | c | c | c | c | c
    · simp [violation] at c
    · simp [eq_comm] at c
    · exact outputs _ _ _ _ _ c.symm
    all_goals simp [eq_comm] at c
  · simp [eq_comm] at final

theorem admission_is_lower_bound {tasks : List (String × Int × Int × Int)} (sizes : OneSize bare)
    (rejected : validatePlanningInput bare = some (.forcedFootprint tasks capacity))
    (annotates : Annotates bare annotated) : ∀ state, simulate annotated ≠ .ok state := by
  intro state completes
  have ids : validateIdResolution bare = none := by
    by_contra some_violation
    obtain ⟨found, raised⟩ := Option.ne_none_iff_exists'.mp some_violation
    simp only [validatePlanningInput, firstViolation, findSome?_cons, raised, id_eq] at rejected
    exact ids_not_footprint (raised.trans rejected)
  have forced : validateCapacity bare = some (.forcedFootprint tasks capacity) := by
    simpa [validatePlanningInput, firstViolation, ids] using rejected
  have member := first_violation_some forced
  simp only [mem_cons, not_mem_nil, or_false] at member
  rcases member with fast | backing | past
  · unfold checkOverflow at fast
    split at fast <;> simp [violation] at fast
  · unfold checkOverflow at backing
    split at backing <;> simp [violation] at backing
  unfold checkForced at past
  cases limited : bare.fastMemoryCapacity with
  | none => simp [limited] at past
  | some limit =>
    simp only [limited, violation, Option.some_eq_ite_none_right] at past
    obtain ⟨some_task, _, rfl⟩ := past
    obtain ⟨task, listed, known, seen, exceeds⟩ := impossible_task some_task
    obtain ⟨position, inside, same⟩ := mem_iff_getElem.mp listed
    have apart : task.inputs.Nodup := by
      have clean := accepted_ids ids (same ▸ getElem?_eq_getElem inside)
      simp only [checkTaskIds, first_violation_none, mem_cons, not_mem_nil, or_false,
        forall_eq_or_imp, forall_eq, Option.map_eq_none_iff, first_repeat_none] at clean
      exact clean.2.1.1
    refine absurd (footprint_fits sizes annotates limited completes listed apart ?_) (not_le.mpr exceeds)
    intro object _ size declared
    cases found : known.lookup object with
    | none => exact sizes.nonneg _ declared
    | some listed =>
      refine le_of_eq (sizes.one (object, listed) ?_ (object, size) declared rfl)
      rcases seen _ (lookup_listed found) with initial | made
      · exact mem_append_left _ (mem_reverse.mp initial)
      · exact mem_append_right _ made

end Annotated

/-- An object whose two copies have different sizes. -/
def twoSizes : TaskChain where
  initialMemory := [{ id := "x", size := 1 }, { id := "x", size := 3, location := .backing }]
  tasks := [{ id := "t", inputs := ["x"] }]
  fastMemoryCapacity := some 2

/-- The check takes the size of the copy that is listed last; the fast copy fits. -/
theorem rejected_chain_runs :
    validatePlanningInput twoSizes = some (.forcedFootprint [("t", 3, 0, 0)] 2) ∧
      Annotates twoSizes twoSizes ∧ Ensures (simulate twoSizes) (fun _ => True) fun _ _ => False :=
  ⟨by decide +kernel, ⟨rfl, ⟨[], rfl, nofun⟩, rfl⟩, by decide +kernel⟩

/-- Three bytes of inputs and outputs do not fit into two. -/
def tooLarge : TaskChain where
  initialMemory := [{ id := "x", size := 2, location := .backing }]
  tasks := [{ id := "t", inputs := ["x"], outputs := [{ id := "y", size := 1 }] }]
  fastMemoryCapacity := some 2

theorem too_large_never_runs : OneSize tooLarge ∧
    validatePlanningInput tooLarge = some (.forcedFootprint [("t", 2, 1, 0)] 2) ∧
    ∀ annotated, Annotates tooLarge annotated → ∀ state, simulate annotated ≠ .ok state :=
  have sizes := ⟨by decide, by decide⟩
  have rejected : validatePlanningInput tooLarge = some (.forcedFootprint [("t", 2, 1, 0)] 2) := by
    decide +kernel
  ⟨sizes, rejected, fun _ annotates => admission_is_lower_bound sizes rejected annotates⟩

end Dataflow.Sim
