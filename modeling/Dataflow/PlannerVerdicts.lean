import Dataflow.AdmissionBound

/-!
The infeasibility checks of two planners: `_check_min_pool_feasibility` of
max_reduce and the forced pool of min_grow's `_min_plan`. Both charge an object at
the boundaries where it is produced or used and add the outputs of the task that
comes next. Boundary `k` of the source is index `k + 1` here. The dicts and sets of
the source are walked in the order of the chain; every sum is over distinct keys.
-/

namespace Dataflow.Sim

open StatefulOutcome KeyedTable List

/-- `_object_sizes`: an entry that comes later replaces an earlier one. -/
def sizeOf (chain : TaskChain) (object : String) : Option Int := chain.declared.reverse.lookup object

def bytesOf (chain : TaskChain) (object : String) : Int := (sizeOf chain object).getD 0

/-- `_producer_idx`: the last task that makes the object, or -1. -/
def producerIdx (chain : TaskChain) (object : String) : Int :=
  chain.tasks.zipIdx.foldl (fun last entry =>
    if object ∈ entry.1.outputIds then entry.2 else last) (-1)

/-- `_uses_by_obj`: an input that is listed twice is used twice. -/
def usesByObj (chain : TaskChain) (object : String) : List Nat :=
  chain.tasks.zipIdx.flatMap fun entry => replicate (entry.1.inputs.count object) entry.2

/-! ### max_reduce -/

def minPool (chain : TaskChain) (index : Nat) : Int :=
  ((chain.declared.map Prod.fst).dedup.map fun object =>
    bytesOf chain object * (usesByObj chain object).count index +
      if 0 ≤ producerIdx chain object ∧ producerIdx chain object + 1 = index
      then bytesOf chain object else 0).sum +
    if index = 0 then initialBytes chain .fast else 0

/-! ### min_grow -/

namespace MinGrow

/-- In the pool at the boundaries from `a` up to `b`, which is not one of them. -/
structure Interval where
  a : Int
  b : Int
  deriving DecidableEq

abbrev Plan := List (String × List Interval)

/-- The intervals of `_min_plan` before they are sorted. -/
def forced (chain : TaskChain) (object : String) : List Interval :=
  (chain.tasks.zipIdx.flatMap fun entry =>
    (if object ∈ entry.1.inputs then [⟨entry.2 - 1, entry.2⟩] else []) ++
      if object ∈ entry.1.outputIds then [⟨entry.2, entry.2 + 1⟩] else []) ++
    if object ∈ chain.initialAt .fast then [⟨-1, 0⟩] else []

def coalesce : List Interval → List Interval → List Interval
  | merged, [] => merged.reverse
  | [], next :: rest => coalesce [next] rest
  | last :: merged, next :: rest =>
    if next.a ≤ last.b then coalesce (⟨last.a, max last.b next.b⟩ :: merged) rest
    else coalesce (next :: last :: merged) rest

def minPlan (chain : TaskChain) : Plan :=
  ((chain.tasks.flatMap fun task => task.inputs ++ task.outputIds) ++ chain.initialAt .fast).dedup.map
    fun object => (object, coalesce [] ((forced chain object).insertionSort (·.a ≤ ·.a)))

def boundaryPool (chain : TaskChain) (plan : Plan) (index : Nat) : Int :=
  (plan.map fun entry => bytesOf chain entry.1 *
    entry.2.countP fun interval => interval.a + 1 ≤ (index : Int) ∧ (index : Int) < interval.b + 1).sum

end MinGrow

/-! ### the verdicts -/

inductive Check where
  | minPool
  | forcedPool
  deriving DecidableEq

/-- What is held against the capacity. An object without a size raises a `KeyError` in min_grow,
and its peak is never below zero. -/
def charges (chain : TaskChain) : Check → Option (List Int)
  | .minPool => some ((range (chain.tasks.length + 1)).map fun index =>
      minPool chain index + ((chain.tasks[index]?).map (·.outputBytes .fast)).getD 0)
  | .forcedPool =>
    if (MinGrow.minPlan chain).all fun entry => (sizeOf chain entry.1).isSome then
      some (0 :: (range (chain.tasks.length + 1)).map fun index =>
        MinGrow.boundaryPool chain (MinGrow.minPlan chain) index +
          ((chain.tasks[index]?).map fun task => (task.outputs.map (·.size)).sum).getD 0)
    else none

def infeasible (chain : TaskChain) (check : Check) : Bool :=
  match chain.fastMemoryCapacity, charges chain check with
  | some capacity, some charged => charged.any fun charge => capacity < charge
  | _, _ => false

/-- What is in the pool when a task is launched; the first task finds all initial objects. -/
def launchHeld (chain : TaskChain) : Nat → Task → List String
  | 0, task => task.inputs ++ chain.initialAt .fast
  | _ + 1, task => task.inputs

def launchBytes (chain : TaskChain) (position : Nat) (task : Task) : Int :=
  ((launchHeld chain position task).dedup.map (bytesOf chain)).sum + task.outputBytes .fast +
    task.workspaceBytes

/-- Every charge over the capacity is a charge some launch has to pay. -/
def Covered (chain : TaskChain) (check : Check) : Prop :=
  ∀ capacity ∈ chain.fastMemoryCapacity, ∀ charged ∈ charges chain check, ∀ charge ∈ charged,
    capacity < charge → ∃ entry ∈ chain.tasks.zipIdx, charge ≤ launchBytes chain entry.2 entry.1

instance (chain : TaskChain) : DecidablePred (Covered chain) := fun check =>
  inferInstanceAs (Decidable (∀ capacity ∈ chain.fastMemoryCapacity, ∀ charged ∈ charges chain check, _))

section Verdicts

variable {chain bare annotated : TaskChain} {task : Task} {position : Nat}

theorem load_object_present (objects : List Object) (loaded : List Object) (state : SimState)
    (idle : state.pending = 0) (there : ∀ object ∈ loaded, (state.entry object.id object.location).isSome) :
    Ensures (objects.foldlM loadObject state) (fun next => next.pending = 0 ∧
        ∀ object ∈ loaded ++ objects, (next.entry object.id object.location).isSome)
      fun _ _ => True := by
  induction objects generalizing loaded state with
  | nil => exact ⟨idle, (append_nil loaded).symm ▸ there⟩
  | cons object rest ih =>
    rw [foldlM_cons]
    simp only [loadObject, SimState.insertNew]
    split_ifs
    · trivial
    rw [ok_bind, append_cons]
    refine ih _ _ ((insert_same _).pending.trans idle) fun other mem => ?_
    have pool : ∀ entry : PoolEntry, (state.insert entry).pool = state.pool ++ [entry] := by
      intro entry
      cases location : entry.location <;> simp [SimState.insert, SimState.addTotal, location]
    rw [SimState.entry, pool, lookup_append_single, Option.isSome_or]
    rcases mem_append.mp mem with old | new
    · rw [show (lookup PoolEntry.key (other.id, other.location) state.pool).isSome from there other old]
      rfl
    · rw [mem_singleton.mp new]
      simp [PoolEntry.key]

theorem load_initial_present (chain : TaskChain) :
    Ensures (loadInitial chain) (fun loaded => loaded.pending = 0 ∧
      ∀ object ∈ chain.initialAt .fast, (loaded.entry object .fast).isSome) fun _ _ => True := by
  have check : ∀ location state, Ensures (checkInitialCapacity chain location state) (· = state)
      fun _ _ => True := by
    intro location state
    unfold checkInitialCapacity
    split
    · rfl
    · split_ifs
      · trivial
      · rfl
  refine ensures_bind (load_object_present chain.initialMemory [] {} rfl nofun) fun loaded fine => ?_
  refine ensures_bind (check .fast loaded) fun fast same => ?_
  refine ensures_bind (check .backing fast) fun both also => ?_
  rw [also, same]
  refine ⟨fine.1, fun id listed => ?_⟩
  obtain ⟨object, mem, rfl⟩ := mem_map.mp listed
  obtain ⟨mem, place⟩ := mem_filter.mp mem
  exact of_decide_eq_true place ▸ fine.2 object mem

theorem simulate_holds (found : chain.tasks[position]? = some task) :
    Ensures (simulate chain) (fun _ => ∃ ready, Launch chain task ready ∧
      ∀ object ∈ launchHeld chain position task, (ready.entry object .fast).isSome)
      fun _ _ => True := by
  cases position with
  | succ position =>
    refine ensures_mono (simulate_launches chain) (fun _ launches => ?_) fun _ _ => id
    obtain ⟨ready, launch⟩ := launches task (mem_of_getElem? found)
    exact ⟨ready, launch, launch.present⟩
  | zero =>
    have quiet : ∀ fault state, Raised chain fault state ∧ True → True := fun _ _ _ => trivial
    have loads := ensures_and (load_initial_accounted chain) (load_initial_present chain)
    refine ensures_bind (ensures_mono loads (fun _ => id) quiet) fun loaded fine => ?_
    obtain ⟨held, idle, initial⟩ := fine
    obtain ⟨rest, more⟩ : ∃ rest, chain.tasks.zipIdx = (task, 0) :: rest := by
      cases tasks : chain.tasks with
      | nil => simp [tasks] at found
      | cons first later =>
        obtain rfl : first = task := by simpa [tasks] using found
        exact ⟨_, zipIdx_cons ..⟩
    rw [more, foldlM_cons, bind_assoc]
    refine ensures_bind (run_task_launch held) fun next launched => ensures_const ?_
    obtain ⟨ready, launch, same⟩ := launched
    refine ⟨ready, launch, fun object listed => ?_⟩
    rcases mem_append.mp listed with input | there
    · exact launch.present object input
    · exact same idle ▸ initial object there

theorem Annotates.task_at (annotates : Annotates bare annotated)
    (found : bare.tasks[position]? = some task) :
    ∃ other, annotated.tasks[position]? = some other ∧ other.stripped = task.stripped := by
  have same := congrArg (·[position]?) annotates.tasks
  simp only [getElem?_map, found, Option.map_some, Option.map_eq_some_iff] at same
  exact same

theorem Annotates.held (annotates : Annotates bare annotated) {other : Task}
    (same : other.stripped = task.stripped) {object : String}
    (listed : object ∈ launchHeld bare position task) : object ∈ launchHeld annotated position other := by
  obtain ⟨added, more, _⟩ := annotates.initial
  cases position with
  | succ position =>
    show object ∈ other.inputs
    exact (stripped_eq same).1.symm ▸ listed
  | zero =>
    rcases mem_append.mp listed with input | initial
    · exact mem_append_left _ ((stripped_eq same).1.symm ▸ input)
    · refine mem_append_right _ ?_
      rw [TaskChain.initialAt, more, filter_append, map_append]
      exact mem_append_left _ initial

theorem bytes_of_declared (sizes : OneSize chain) {object : String} {size : Int}
    (known : (object, size) ∈ chain.declared) : bytesOf chain object ≤ size := by
  unfold bytesOf sizeOf
  cases found : chain.declared.reverse.lookup object with
  | none => exact sizes.nonneg _ known
  | some listed => exact (sizes.one _ (mem_reverse.mp (lookup_listed found)) _ known rfl).le

end Verdicts

/-- Two outputs that nothing reads, of ten bytes each, under a capacity of fifteen. -/
def deadOutputs : TaskChain where
  tasks := [{ id := "t0", outputs := [{ id := "y", size := 10 }] },
    { id := "t1", outputs := [{ id := "z", size := 10 }] }]
  fastMemoryCapacity := some 15

def deadReleased : TaskChain where
  tasks := [{ id := "t0", outputs := [{ id := "y", size := 10 }], releasesAfter := ["y"] },
    { id := "t1", outputs := [{ id := "z", size := 10 }] }]
  fastMemoryCapacity := some 15

end Dataflow.Sim
