import Dataflow.Chain
import Dataflow.Sequential

/-!
The data of a chain. Its tasks are executed in order, with releases, offloads
and prefetches taking effect one after the other as the simulator applies them,
and with a version for every copy. On an accepted chain the validator's walk
follows the copies: what it has in fast memory is there, and what it has in
backing memory is there as long as the end of the chain requires it.
-/

namespace Dataflow.Sim

open Memory List Function

/-! ### execution -/

def placeObject (memory : Memory) (object : Object) : Memory :=
  let cell := (memory object.id).getD { version := 0, fast := none, backing := none }
  update memory object.id (some (match object.location with
    | .fast => { cell with fast := some 0 }
    | .backing => { cell with backing := some 0 }))

def initialCopies (chain : TaskChain) : Memory :=
  chain.initialMemory.foldl placeObject fun _ => none

def freshCell (output : OutputAlloc) : Cell :=
  { version := 0
    fast := if output.location = .fast then some 0 else none
    backing := if output.location = .backing then some 0 else none }

/-- Outputs land on their locations; an occupied one raises. -/
def landOutput (memory : Memory) (output : OutputAlloc) : Option Memory :=
  if ((memory output.id).bind (·.copy output.location)).isSome then none
  else some (update memory output.id (some (freshCell output)))

/-- A directive changes the cell of its object, or raises if it is not allowed there. -/
def guarded (allowed : Cell → Bool) (change : Cell → Cell) (memory : Memory) (object : String) :
    Option Memory :=
  match memory object with
  | none => none
  | some cell => if allowed cell then some (memory.modify object change) else none

def hasFast (cell : Cell) : Bool := cell.fast.isSome

def releaseCell (dead : Bool) (cell : Cell) : Cell :=
  { cell with fast := none, backing := if dead then none else cell.backing }

def offloadCell (cell : Cell) : Cell :=
  { cell with fast := none, backing := cell.fast }

def onlyBacking (cell : Cell) : Bool := cell.fast.isNone && cell.backing.isSome

def prefetchCell (cell : Cell) : Cell :=
  { cell with fast := cell.backing }

def releaseCopy (chain : TaskChain) (position : Nat) (memory : Memory) (object : String) :
    Option Memory :=
  guarded hasFast (releaseCell (deadEverywhere chain position object)) memory object

def inFast (memory : Memory) (object : String) : Bool :=
  ((memory object).bind (·.fast)).isSome

/-- One task; `none` where the simulator raises. -/
def execTask (chain : TaskChain) (position : Nat) (memory : Memory) (task : Task) :
    Option Memory := do
  guard (task.inputs.all (inFast memory))
  let landed ← task.outputs.foldlM landOutput memory
  let written := task.mutatesInputs.foldl Memory.mutate landed
  let released ← task.releasesAfter.foldlM (releaseCopy chain position) written
  let offloaded ← task.offloadIds.foldlM (guarded hasFast offloadCell) released
  task.prefetchIds.foldlM (guarded onlyBacking prefetchCell) offloaded

/-- The copies after the first tasks of the chain. -/
def executed (chain : TaskChain) : Nat → Option Memory
  | 0 => some (initialCopies chain)
  | count + 1 => (executed chain count).bind fun memory =>
    match chain.tasks[count]? with
    | none => some memory
    | some task => execTask chain count memory task

/-! ### one object through one task -/

section Cells

variable {allowed : Cell → Bool} {change : String → Cell → Cell} {memory next : Memory}
  {object : String} {cell : Cell}

variable {objects : List String}

theorem guarded_fold (once : ∀ object cell, allowed (change object cell) = false)
    (done : objects.foldlM (fun memory object => guarded allowed (change object) memory object)
      memory = some next) :
    (object ∈ objects → ∃ cell, memory object = some cell ∧ allowed cell = true ∧
      next object = some (change object cell)) ∧
    (object ∉ objects → next object = memory object) := by
  induction objects generalizing memory with
  | nil =>
    cases done
    exact ⟨fun mem => (not_mem_nil mem).elim, fun _ => rfl⟩
  | cons head rest ih =>
    obtain ⟨middle, first, later⟩ := Option.bind_eq_some_iff.mp done
    cases found : memory head with
    | none => simp [guarded, found] at first
    | some cell =>
      simp only [guarded, found, Option.ite_none_right_eq_some, Option.some.injEq] at first
      obtain ⟨permitted, moved⟩ := first
      subst moved
      obtain ⟨inside, outside⟩ := ih later
      by_cases same : object = head
      · subst same
        have now : memory.modify object (change object) object = some (change object cell) := by
          rw [modify_self, found]
          rfl
        -- a second visit would find the directive forbidden
        have alone : object ∉ rest := by
          intro again
          obtain ⟨other, seen, fine, _⟩ := inside again
          rw [now] at seen
          cases seen
          rw [once object cell] at fine
          cases fine
        refine ⟨fun _ => ⟨cell, found, permitted, ?_⟩, fun absent => ?_⟩
        · rw [outside alone, now]
        · exact absurd mem_cons_self absent
      · rw [modify_other same] at inside outside
        refine ⟨fun mem => inside ((mem_cons.mp mem).resolve_left same), ?_⟩
        intro absent
        exact outside fun later => absent (mem_cons_of_mem head later)

theorem released_cell (object : String) {chain : TaskChain} {position : Nat}
    (done : objects.foldlM (releaseCopy chain position) memory = some next) :
    (object ∈ objects → ∃ cell, memory object = some cell ∧ hasFast cell = true ∧
      next object = some (releaseCell (deadEverywhere chain position object) cell)) ∧
    (object ∉ objects → next object = memory object) :=
  guarded_fold (fun _ _ => rfl) done

theorem offloaded_cell (object : String)
    (done : objects.foldlM (guarded hasFast offloadCell) memory = some next) :
    (object ∈ objects → ∃ cell, memory object = some cell ∧ hasFast cell = true ∧
      next object = some (offloadCell cell)) ∧ (object ∉ objects → next object = memory object) :=
  guarded_fold (fun _ _ => rfl) done

theorem prefetched_cell (object : String)
    (done : objects.foldlM (guarded onlyBacking prefetchCell) memory = some next) :
    (object ∈ objects → ∃ cell, memory object = some cell ∧ onlyBacking cell = true ∧
      next object = some (prefetchCell cell)) ∧
    (object ∉ objects → next object = memory object) := by
  -- a second prefetch of the object would find the first one's copy
  have once : ∀ cell, onlyBacking (prefetchCell cell) = false := by
    intro cell
    cases backing : cell.backing <;> simp [onlyBacking, prefetchCell, backing]
  exact guarded_fold (fun _ cell => once cell) done

theorem landed_cell (object : String) {outputs : List OutputAlloc}
    (done : outputs.foldlM landOutput memory = some next) :
    (object ∈ outputs.map (·.id) → ∃ output ∈ outputs, output.id = object ∧
      next object = some (freshCell output)) ∧
    (object ∉ outputs.map (·.id) → next object = memory object) := by
  induction outputs generalizing memory with
  | nil =>
    cases done
    exact ⟨fun mem => (not_mem_nil mem).elim, fun _ => rfl⟩
  | cons output rest ih =>
    obtain ⟨middle, first, later⟩ := Option.bind_eq_some_iff.mp done
    simp only [landOutput, Option.ite_none_left_eq_some, Option.some.injEq] at first
    obtain ⟨_, moved⟩ := first
    subst moved
    obtain ⟨inside, outside⟩ := ih later
    constructor
    · intro mem
      by_cases again : object ∈ rest.map (·.id)
      · obtain ⟨other, listed, named, result⟩ := inside again
        exact ⟨other, mem_cons_of_mem output listed, named, result⟩
      obtain rfl : object = output.id := by
        rw [map_cons, mem_cons] at mem
        exact mem.resolve_right again
      refine ⟨output, mem_cons_self, rfl, ?_⟩
      rw [outside again, update_self]
    · intro absent
      rw [map_cons, mem_cons, not_or] at absent
      rw [outside absent.2, update_of_ne absent.1]

theorem written_cell (objects : List String) (memory : Memory) (found : memory object = some cell) :
    (object ∈ objects → ∃ version, cell.version < version ∧
      objects.foldl Memory.mutate memory object =
        some { cell with version := version, fast := cell.fast.map fun _ => version }) ∧
    (object ∉ objects → objects.foldl Memory.mutate memory object = some cell) := by
  induction objects generalizing memory cell with
  | nil => exact ⟨fun mem => (not_mem_nil mem).elim, fun _ => found⟩
  | cons head rest ih =>
    rw [foldl_cons]
    by_cases same : object = head
    · subst same
      have now : memory.mutate object object = some { cell with
          version := cell.version + 1, fast := cell.fast.map fun _ => cell.version + 1 } := by
        rw [Memory.mutate, modify_self, found]
        rfl
      obtain ⟨inside, outside⟩ := ih (memory.mutate object) now
      refine ⟨fun _ => ?_, fun absent => absurd mem_cons_self absent⟩
      by_cases again : object ∈ rest
      · obtain ⟨version, above, result⟩ := inside again
        refine ⟨version, Nat.lt_of_succ_lt above, ?_⟩
        rw [result]
        simp [Option.map_map, comp_def]
      · exact ⟨cell.version + 1, Nat.lt_succ_self _, outside again⟩
    · have kept : memory.mutate head object = some cell := by
        rw [Memory.mutate, modify_other same, found]
      obtain ⟨inside, outside⟩ := ih (memory.mutate head) kept
      refine ⟨fun mem => inside ((mem_cons.mp mem).resolve_left same), ?_⟩
      intro absent
      exact outside fun later => absent (mem_cons_of_mem head later)

theorem unwritten_cell (objects : List String) (memory : Memory) (absent : memory object = none) :
    objects.foldl Memory.mutate memory object = none := by
  induction objects generalizing memory with
  | nil => exact absent
  | cons head rest ih =>
    apply ih
    by_cases same : object = head
    · subst same
      rw [Memory.mutate, modify_self, absent]
      rfl
    · rw [Memory.mutate, modify_other same, absent]

/-- What landing the outputs and the mutations do to one object. -/
inductive Written (task : Task) (object : String) : Option Cell → Option Cell → Prop
  | output {before : Option Cell} (output : OutputAlloc) (listed : output ∈ task.outputs)
      (named : output.id = object) (unwritten : object ∉ task.mutatesInputs) :
      Written task object before (some (freshCell output))
  | mutated {cell : Cell} {copy version : Nat} (listed : object ∈ task.mutatesInputs)
      (foreign : object ∉ task.outputIds) (resident : cell.fast = some copy)
      (above : cell.version < version) :
      Written task object (some cell)
        (some { cell with version := version, fast := some version })
  | same {before : Option Cell} (unwritten : object ∉ task.mutatesInputs)
      (foreign : object ∉ task.outputIds) : Written task object before before

/-- What the directives of a task do to one object: at most one names it. -/
inductive Settled (chain : TaskChain) (position : Nat) (task : Task) (object : String) :
    Option Cell → Option Cell → Prop
  | released {cell : Cell} (listed : object ∈ task.releasesAfter) (keeps : object ∉ task.offloadIds)
      (stays : object ∉ task.prefetchIds) (resident : hasFast cell = true) :
      Settled chain position task object (some cell)
        (some (releaseCell (deadEverywhere chain position object) cell))
  | offloaded {cell : Cell} (listed : object ∈ task.offloadIds)
      (keeps : object ∉ task.releasesAfter) (stays : object ∉ task.prefetchIds)
      (resident : hasFast cell = true) :
      Settled chain position task object (some cell) (some (offloadCell cell))
  | prefetched {cell : Cell} (listed : object ∈ task.prefetchIds)
      (keeps : object ∉ task.releasesAfter) (stays : object ∉ task.offloadIds)
      (absent : onlyBacking cell = true) :
      Settled chain position task object (some cell) (some (prefetchCell cell))
  | kept {before : Option Cell} (unreleased : object ∉ task.releasesAfter)
      (unmoved : object ∉ task.offloadIds) (unfetched : object ∉ task.prefetchIds) :
      Settled chain position task object before before

variable {chain : TaskChain} {position count : Nat} {task : Task}

theorem exec_stages (run : execTask chain position memory task = some next) :
    (∀ object ∈ task.inputs, inFast memory object = true) ∧ ∃ landed released offloaded,
      task.outputs.foldlM landOutput memory = some landed ∧
      task.releasesAfter.foldlM (releaseCopy chain position)
        (task.mutatesInputs.foldl Memory.mutate landed) = some released ∧
      task.offloadIds.foldlM (guarded hasFast offloadCell) released = some offloaded ∧
      task.prefetchIds.foldlM (guarded onlyBacking prefetchCell) offloaded = some next := by
  simp only [execTask, Option.bind_eq_bind, Option.bind_eq_some_iff, Option.guard_eq_some',
    all_eq_true] at run
  obtain ⟨_, inputs, landed, landing, released, releasing, offloaded, offloading, prefetching⟩ :=
    run
  exact ⟨inputs, landed, released, offloaded, landing, releasing, offloading, prefetching⟩

theorem in_fast_iff : inFast memory object = true ↔
    ∃ cell, memory object = some cell ∧ ∃ copy, cell.fast = some copy := by
  simp [inFast, Option.isSome_iff_exists, Option.bind_eq_some_iff]
  grind

theorem input_not_output (fits : TaskAccepted chain position task) (listed : object ∈ task.inputs) :
    object ∉ task.outputIds :=
  fun output => fits.outputsFresh object output (fits.inputsKnown object listed)

theorem exec_written (fits : TaskAccepted chain position task) {landed : Memory}
    (inputs : ∀ object ∈ task.inputs, inFast memory object = true)
    (landing : task.outputs.foldlM landOutput memory = some landed) (object : String) :
    Written task object (memory object) (task.mutatesInputs.foldl Memory.mutate landed object) := by
  obtain ⟨inside, outside⟩ := landed_cell object landing
  by_cases listed : object ∈ task.mutatesInputs
  · have consumed := fits.mutatesInputs object listed
    have foreign := input_not_output fits consumed
    obtain ⟨cell, found, copy, resident⟩ := in_fast_iff.mp (inputs object consumed)
    have kept := (outside foreign).trans found
    obtain ⟨version, above, result⟩ := (written_cell task.mutatesInputs landed kept).1 listed
    rw [result, found, resident]
    exact .mutated listed foreign resident above
  have same : task.mutatesInputs.foldl Memory.mutate landed object = landed object := by
    cases found : landed object with
    | some cell => exact (written_cell task.mutatesInputs landed found).2 listed
    | none => exact unwritten_cell task.mutatesInputs landed found
  rw [same]
  by_cases fresh : object ∈ task.outputIds
  · obtain ⟨output, mem, named, result⟩ := inside fresh
    rw [result]
    exact .output output mem named listed
  · rw [outside fresh]
    exact .same listed fresh

/-- Residency keeps the directives apart: what is released or offloaded is in
fast memory, what is prefetched is not. -/
theorem exec_settled (fits : TaskAccepted chain position task) {written released offloaded : Memory}
    (resident : inFast written object = true →
      object ∈ ((chain.residencyBefore position).landed task).onCompute)
    (releasing : task.releasesAfter.foldlM (releaseCopy chain position) written = some released)
    (offloading : task.offloadIds.foldlM (guarded hasFast offloadCell) released = some offloaded)
    (prefetching : task.prefetchIds.foldlM (guarded onlyBacking prefetchCell) offloaded =
      some next) : Settled chain position task object (written object) (next object) := by
  obtain ⟨released_in, released_out⟩ := released_cell object releasing
  obtain ⟨offloaded_in, offloaded_out⟩ := offloaded_cell object offloading
  obtain ⟨prefetched_in, prefetched_out⟩ := prefetched_cell object prefetching
  by_cases releases : object ∈ task.releasesAfter
  · obtain ⟨cell, found, fast, result⟩ := released_in releases
    have keeps := fits.releaseNotOffload object releases
    have stays : object ∉ task.prefetchIds := by
      intro listed
      refine fits.prefetchAbsent object listed (resident ?_)
      rw [inFast, found]
      exact fast
    rw [prefetched_out stays, offloaded_out keeps, result, found]
    exact .released releases keeps stays fast
  rw [released_out releases] at offloaded_in offloaded_out
  by_cases offloads : object ∈ task.offloadIds
  · obtain ⟨cell, found, fast, result⟩ := offloaded_in offloads
    have stays := fits.offloadNotPrefetch object offloads
    rw [prefetched_out stays, result, found]
    exact .offloaded offloads releases stays fast
  rw [offloaded_out offloads] at prefetched_in prefetched_out
  by_cases prefetches : object ∈ task.prefetchIds
  · obtain ⟨cell, found, absent, result⟩ := prefetched_in prefetches
    rw [result, found]
    exact .prefetched prefetches releases offloads absent
  · rw [prefetched_out prefetches]
    exact .kept releases offloads prefetches

end Cells

/-! ### the walk and the copies agree -/

section Agreement

variable {chain : TaskChain} {count : Nat} {task : Task} {object : String} {memory next : Memory}

theorem executed_succ (found : chain.tasks[count]? = some task)
    (run : executed chain (count + 1) = some next) : ∃ memory, executed chain count = some memory ∧
      execTask chain count memory task = some next := by
  obtain ⟨memory, before, step⟩ := Option.bind_eq_some_iff.mp run
  rw [found] at step
  exact ⟨memory, before, step⟩

/-- What the validator's walk says about one object holds of its copies. -/
structure Agrees (chain : TaskChain) (known : Finset String) (state : Lifetimes) (object : String)
    (cell : Option Cell) : Prop where
  known : cell ≠ none → object ∈ known
  resident : (cell.bind (·.fast)).isSome = true ↔ object ∈ state.onCompute
  saved : object ∈ chain.finalLocations.map (·.1) → object ∈ state.onBacking →
    (cell.bind (·.backing)).isSome = true

variable {location : Location} {before after : Option Cell}

theorem mem_outputs_at {output : OutputAlloc}
    (fits : TaskAccepted chain count task) (listed : output ∈ task.outputs) :
    output.id ∈ task.outputsAt location ↔ output.location = location := by
  simp only [Task.outputsAt, mem_map, mem_filter, decide_eq_true_eq]
  constructor
  · rintro ⟨other, ⟨mem, placed⟩, same⟩
    rw [← inj_on_of_nodup_map fits.outputsDistinct mem listed same]
    exact placed
  · intro placed
    exact ⟨output, ⟨listed, placed⟩, rfl⟩

theorem outputs_at_outputs (listed : object ∈ task.outputsAt location) :
    object ∈ task.outputIds := by
  simp only [Task.outputsAt, mem_map, mem_filter] at listed
  obtain ⟨output, ⟨mem, _⟩, named⟩ := listed
  exact mem_map.mpr ⟨output, mem, named⟩

theorem written_agrees (fits : TaskAccepted chain count task)
    (found : chain.tasks[count]? = some task)
    (agrees : Agrees chain (chain.knownBefore count) (chain.lifetimesBefore count) object before)
    (written : Written task object before after) :
    Agrees chain (chain.knownBefore (count + 1)) ((chain.lifetimesBefore count).finish task)
      object after := by
  have grown : object ∈ chain.knownBefore count → object ∈ chain.knownBefore (count + 1) :=
    fun early => (mem_known_succ found).mpr (.inl early)
  simp only [Lifetimes.finish]
  cases written with
  | output output listed named unwritten =>
    subst named
    have fresh := mem_map_of_mem (f := OutputAlloc.id) listed
    -- an output is new, so the walk had it nowhere and it had no copies
    have absent : before = none := by
      by_contra present
      exact fits.outputsFresh _ fresh (agrees.known present)
    refine ⟨fun _ => (mem_known_succ found).mpr (.inr fresh), ?_, ?_⟩
    · have away := agrees.resident
      rw [absent] at away
      simp only [Finset.mem_union, mem_toFinset, mem_outputs_at fits listed, ← away]
      cases placed : output.location <;> simp [freshCell, placed]
    intro final backed
    have away := agrees.saved final
    rw [absent] at away
    simp only [Finset.mem_union, mem_toFinset, mem_outputs_at fits listed] at backed
    rcases backed with before | placed
    · exact absurd (away before) (by simp)
    · simp [freshCell, placed]
  | @mutated cell copy version listed foreign resident above =>
    refine ⟨fun _ => grown (agrees.known (by simp)), ?_, ?_⟩
    · have here := agrees.resident
      simp only [resident, Option.bind_some, Option.isSome_some, true_iff] at here
      simp [here]
    · intro final backed
      rw [Finset.mem_union, mem_toFinset] at backed
      exact agrees.saved final (backed.resolve_right fun output =>
        foreign (outputs_at_outputs output))
  | same unwritten foreign =>
    have nowhere : ∀ location, object ∉ task.outputsAt location :=
      fun _ output => foreign (outputs_at_outputs output)
    refine ⟨fun present => grown (agrees.known present), ?_, ?_⟩
    · simpa [nowhere] using agrees.resident
    · simpa [nowhere] using agrees.saved

theorem settled_agrees {state : Lifetimes} {known : Finset String}
    (agrees : Agrees chain known (state.finish task) object before)
    (settled : Settled chain count task object before after) :
    Agrees chain known (state.settled task) object after := by
  obtain ⟨known, resident, saved⟩ := agrees
  simp only [Lifetimes.finish, Finset.mem_union, mem_toFinset] at resident saved
  have compute := @Lifetimes.mem_compute_settled task object state
  have backing := @Lifetimes.mem_backing_settled task object state
  cases settled with
  | @released cell listed keeps stays fast =>
    refine ⟨fun _ => known (by simp), ?_, ?_⟩
    · rw [compute]
      simp [releaseCell, listed]
    intro final backed
    rw [backing] at backed
    have kept := saved final (backed.resolve_right keeps)
    have alive : deadEverywhere chain count object = false := by
      simp [deadEverywhere, final]
    simpa [releaseCell, alive] using kept
  | @offloaded cell listed keeps stays fast =>
    refine ⟨fun _ => known (by simp), ?_, fun _ _ => ?_⟩
    · rw [compute]
      simp [offloadCell, listed, stays]
    · simpa [offloadCell, hasFast] using fast
  | @prefetched cell listed keeps stays absent =>
    simp only [onlyBacking, Bool.and_eq_true] at absent
    refine ⟨fun _ => known (by simp), ?_, fun _ _ => ?_⟩
    · rw [compute]
      simp [prefetchCell, listed, keeps, absent.2]
    · simpa [prefetchCell] using absent.2
  | kept unreleased unmoved unfetched =>
    refine ⟨known, ?_, ?_⟩
    · rw [compute, resident]
      simp [unreleased, unmoved, unfetched]
    · intro final backed
      rw [backing] at backed
      exact saved final (backed.resolve_right unmoved)

/-- The copies of one object among the initial objects. -/
structure Placed (objects : List Object) (object : String) (cell : Option Cell) : Prop where
  listed : cell ≠ none → object ∈ objects.map (·.id)
  copies : ∀ location, (cell.bind (·.copy location)).isSome = true ↔
    object ∈ (objects.filter (·.location = location)).map (·.id)
  zero : ∀ held, cell = some held → held.version = 0 ∧
    ∀ location copy, held.copy location = some copy → copy = 0

theorem place_object_self (memory : Memory) (object : Object) :
    ∃ held, placeObject memory object object.id = some held ∧
      held.version = ((memory object.id).map (·.version)).getD 0 ∧ ∀ location, held.copy location =
        if location = object.location then some 0
        else (memory object.id).bind (·.copy location) := by
  refine ⟨_, update_self .., ?_, fun location => ?_⟩
  · cases memory object.id <;> cases object.location <;> rfl
  · cases memory object.id <;> cases object.location <;> cases location <;> rfl

theorem initial_placed (objects : List Object) (object : String) :
    Placed objects object (objects.foldl placeObject (fun _ => none) object) := by
  induction objects using reverseRecOn with
  | nil => exact ⟨by simp, by simp, by simp⟩
  | append_singleton objects last ih =>
    rw [foldl_append, foldl_cons, foldl_nil]
    generalize objects.foldl placeObject (fun _ => none) = memory at ih
    obtain ⟨listed, copies, zero⟩ := ih
    by_cases same : object = last.id
    · subst same
      obtain ⟨held, placed, version, copy⟩ := place_object_self memory last
      rw [placed]
      refine ⟨by simp, ?_, ?_⟩
      · intro location
        rw [Option.bind_some, copy location, filter_append, map_append,
          mem_append, ← copies location]
        by_cases here : location = last.location
        · subst here
          simp
        · simp [here, Ne.symm here]
      rintro _ ⟨⟩
      rw [version]
      constructor
      · cases found : memory last.id with
        | none => rfl
        | some cell => exact (zero cell found).1
      intro location old kept
      rw [copy location] at kept
      split_ifs at kept
      · exact (Option.some.inj kept).symm
      · obtain ⟨cell, found, there⟩ := Option.bind_eq_some_iff.mp kept
        exact (zero cell found).2 location old there
    · have kept : placeObject memory last object = memory object := update_of_ne same ..
      rw [kept]
      refine ⟨fun present => ?_, fun location => ?_, zero⟩
      · rw [map_append]
        exact mem_append_left _ (listed present)
      · rw [copies location, filter_append, map_append, mem_append]
        by_cases here : last.location = location <;> simp [here, same]

theorem prefetch_not_resident (fits : TaskAccepted chain count task)
    (within : count ≤ chain.tasks.length) (listed : object ∈ task.prefetchIds) :
    object ∉ (chain.lifetimesBefore count).onCompute := by
  intro resident
  refine fits.prefetchAbsent object listed ?_
  rw [Residency.landed, same_residency within, Finset.mem_union]
  exact .inl resident

theorem exec_object (fits : TaskAccepted chain count task)
    (found : chain.tasks[count]? = some task) (within : count ≤ chain.tasks.length)
    (step : execTask chain count memory task = some next)
    (agrees : Agrees chain (chain.knownBefore count) (chain.lifetimesBefore count) object
      (memory object)) : ∃ cell, Written task object (memory object) cell ∧
      Settled chain count task object cell (next object) := by
  obtain ⟨inputs, landed, released, offloaded, landing, releasing, offloading, prefetching⟩ :=
    exec_stages step
  have written := exec_written fits inputs landing object
  refine ⟨_, written, exec_settled fits ?_ releasing offloading prefetching⟩
  intro fast
  have here := (written_agrees fits found agrees written).resident.mp fast
  rwa [Residency.landed, same_residency within]

theorem executed_agrees (accepted : validateChain chain = none)
    (within : count ≤ chain.tasks.length) (run : executed chain count = some memory)
    (object : String) : Agrees chain (chain.knownBefore count) (chain.lifetimesBefore count) object
      (memory object) := by
  induction count generalizing memory with
  | zero =>
    cases run
    obtain ⟨listed, copies, _⟩ := initial_placed chain.initialMemory object
    exact
      { known := fun present => mem_toFinset.mpr (listed present)
        resident := (copies .fast).trans mem_toFinset.symm
        saved := fun _ backed => (copies .backing).mpr (mem_toFinset.mp backed) }
  | succ count ih =>
    have found := getElem?_eq_getElem within
    have fits := accepted_task accepted found
    obtain ⟨before, earlier, step⟩ := executed_succ found run
    have agrees := ih (Nat.le_of_lt within) earlier
    obtain ⟨cell, written, settled⟩ := exec_object fits found (Nat.le_of_lt within) step agrees
    rw [lifetimes_succ found]
    exact settled_agrees (written_agrees fits found agrees written) settled

theorem executed_induction (accepted : validateChain chain = none) {object : String}
    {motive : Nat → Option Cell → Prop} (initial : motive 0 (initialCopies chain object))
    (step : ∀ count task before cell after, chain.tasks[count]? = some task →
      TaskAccepted chain count task →
      Agrees chain (chain.knownBefore count) (chain.lifetimesBefore count) object before →
      Written task object before cell → Settled chain count task object cell after →
      motive count before → motive (count + 1) after)
    (within : count ≤ chain.tasks.length) (run : executed chain count = some memory) :
    motive count (memory object) := by
  induction count generalizing memory with
  | zero =>
    cases run
    exact initial
  | succ count ih =>
    have found := getElem?_eq_getElem within
    have fits := accepted_task accepted found
    obtain ⟨before, earlier, moved⟩ := executed_succ found run
    have agrees := executed_agrees accepted (Nat.le_of_lt within) earlier object
    obtain ⟨cell, written, settled⟩ := exec_object fits found (Nat.le_of_lt within) moved agrees
    exact step count _ _ cell _ found fits agrees written settled (ih (Nat.le_of_lt within) earlier)

end Agreement

end Dataflow.Sim
