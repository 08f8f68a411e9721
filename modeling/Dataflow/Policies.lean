import Dataflow.AdmissionBound

/-!
The policies of `get_all_policies`, from the decisions of their planners on: which
backing objects are placed in fast memory before the run and which directives each
task gets. The decisions are arbitrary here; what is modelled is how a policy turns
them into the chain it returns, and the passes after that. The simulator raises no
error that makes `_verify_and_refine` shift a prefetch, so that it only removes
offloads.
-/

namespace Dataflow.Sim

open List

structure Directives where
  releases : List String := []
  offloads : List TransferTrigger := []
  prefetches : List TransferTrigger := []

structure Decisions where
  placed : List String := []
  directives : Nat → Directives := fun _ => {}
  /-- `_head_id`, which depends on the names of the forward tasks. -/
  head : String := "head"

/-- `replace` with new directives. -/
def Task.annotate (written : Directives) (task : Task) : Task :=
  { task with releasesAfter := written.releases, offloadAfter := written.offloads
              prefetchAfter := written.prefetches }

/-- `_apply_annotations` and `to_annotated_chain` build the task from the fields they name. -/
def Task.rebuild (written : Directives) (task : Task) : Task :=
  { id := task.id, inputs := task.inputs, outputs := task.outputs, runtime := task.runtime
    mutatesInputs := task.mutatesInputs : Task }.annotate written

/-- The tasks of a layer in the sliding window, and what is left of them. -/
def layered (head : String) (task : Task) : Bool :=
  task.id.startsWith "f_" || task.id == head || task.id.startsWith "b_"

def Task.rebuildLayer (head : String) (written : Directives) (task : Task) : Task :=
  if layered head task then
    { id := task.id, inputs := task.inputs, outputs := task.outputs
      runtime := task.runtime : Task }.annotate written
  else task

/-- `backing_objs` maps an id to the entry listed last. -/
def backingObject (bare : TaskChain) (id : String) : Option Object :=
  bare.initialMemory.reverse.find? fun object => object.location = .backing ∧ object.id = id

def assemble (build : Directives → Task → Task) (made : Decisions) (bare : TaskChain) :
    Option TaskChain :=
  -- an object that is not on backing raises a KeyError
  if made.placed.all fun id => (backingObject bare id).isSome then
    some { bare with
      initialMemory := bare.initialMemory ++
        (made.placed.filterMap (backingObject bare)).map Object.inFast
      tasks := bare.tasks.mapIdx fun index task => build (made.directives index) task }
  else none

/-- The last task that reads or makes the object. -/
def lastAnchor (chain : TaskChain) (object : String) : Option Nat :=
  (chain.tasks.zipIdx.reverse.find? fun entry =>
    object ∈ entry.1.outputIds ∨ object ∈ entry.1.inputs).map (·.2)

def addGradientWritebacks (chain : TaskChain) : TaskChain :=
  let guarded := (chain.finalLocations.filter (·.2 = .backing)).map (·.1)
  let anchored := ((chain.tasks.flatMap fun task => task.outputIds ++ task.inputs).filter
    (· ∈ guarded)).eraseDups
  { chain with tasks := chain.tasks.mapIdx fun index task =>
    let stays (object : String) : Bool :=
      object ∉ guarded ∨ (lastAnchor chain object).all fun anchor => index < anchor
    task.annotate {
      releases := task.releasesAfter.filter stays
      offloads := task.offloadAfter.filter (stays ·.objId) ++
        (anchored.filter fun object => lastAnchor chain object = some index).map ({ objId := · })
      prefetches := task.prefetchAfter.filter (stays ·.objId) } }

/-- The latest offload of the object goes, and the first prefetch after it. -/
def removeOffload (chain : TaskChain) (object : String) : Option TaskChain := do
  let (_, at_) ← chain.tasks.zipIdx.reverse.find? fun entry => object ∈ entry.1.offloadIds
  let back := chain.tasks.zipIdx.find? fun entry => at_ < entry.2 ∧ object ∈ entry.1.prefetchIds
  pure { chain with tasks := chain.tasks.mapIdx fun index task => task.annotate {
    releases := task.releasesAfter
    offloads := if index = at_ then task.offloadAfter.filter (·.objId ≠ object) else task.offloadAfter
    prefetches := if back.any (·.2 = index) then task.prefetchAfter.filter (·.objId ≠ object)
      else task.prefetchAfter } }

/-- `run`: the checks, then the simulation. -/
def runs (chain : TaskChain) : Bool :=
  (validateChain chain).isNone && match simulate chain with
    | .ok _ => true
    | .error _ => false

def verifyAndRefine : Nat → TaskChain → Option TaskChain
  | 0, chain => if runs chain then some chain else none
  | fuel + 1, chain =>
    if runs chain then some chain else
    match validateChain chain, simulate chain with
    | none, .error (.inputOffloading object _, _) =>
      (removeOffload chain object).bind (verifyAndRefine fuel)
    | _, _ => none

/-- pressurefit plans objects only, under what the widest workspace leaves. -/
def objectPlanningChain (bare : TaskChain) : TaskChain :=
  { bare with
    fastMemoryCapacity := bare.fastMemoryCapacity.map
      (· - ((bare.tasks.map (·.workspaceBytes)).max?).getD 0)
    tasks := bare.tasks.map ({ · with workspaceBytes := 0 }) }

/-- `workspace_by_task`: of two tasks with one id, the later one counts. -/
def workspaceByTask (source : TaskChain) (id : String) : Int :=
  ((source.tasks.reverse.find? (·.id = id)).map (·.workspaceBytes)).getD 0

def restoreExecutionWorkspace (planned source : TaskChain) : TaskChain :=
  { planned with
    fastMemoryCapacity := source.fastMemoryCapacity
    tasks := planned.tasks.map fun task =>
      { task with workspaceBytes := workspaceByTask source task.id } }

inductive Policy where
  | slidingWindow
  | beladyReactive
  | roundtripPlanner
  | maxReduce
  | minGrow
  | pressurefit
  deriving DecidableEq

def returned (bare : TaskChain) (made : Decisions) : Policy → Option TaskChain
  | .slidingWindow => assemble (Task.rebuildLayer made.head) made bare
  | .beladyReactive | .roundtripPlanner => do
      let built ← assemble Task.rebuild made bare
      verifyAndRefine 20 (addGradientWritebacks built)
  | .maxReduce | .minGrow => assemble Task.annotate made bare
  | .pressurefit => do
      let planned ← assemble Task.annotate made (objectPlanningChain bare)
      let restored := restoreExecutionWorkspace planned bare
      if (objectPlanningChain bare).fastMemoryCapacity.all (0 ≤ ·) && runs planned &&
        (bare.fastMemoryCapacity.isNone || runs restored) then pure restored else none

/-! ### what a policy keeps -/

section Frame

variable {bare built next out : TaskChain} {made : Decisions} {kept : Task → Task}

/-- The returned chain is an annotation but for what each task keeps of itself. -/
structure Framed (kept : Task → Task) (bare out : TaskChain) : Prop where
  tasks : out.tasks.map Task.stripped = bare.tasks.map kept
  initial : ∃ added : List Object, out.initialMemory = bare.initialMemory ++ added.map Object.inFast ∧
    ∀ object ∈ added, object ∈ bare.initialMemory ∧ object.location = .backing
  rest : { out with tasks := bare.tasks, initialMemory := bare.initialMemory } = bare

theorem Framed.annotates_iff (framed : Framed kept bare out) :
    Annotates bare out ↔ ∀ task ∈ bare.tasks, kept task = task.stripped := by
  constructor
  · intro annotates
    exact map_inj_left.mp (framed.tasks.symm.trans annotates.tasks)
  · intro same
    exact ⟨framed.tasks.trans (map_inj_left.mpr same), framed.initial, framed.rest⟩

theorem map_stripped {tasks : List Task} {change : Nat → Task → Task}
    (keeps : ∀ index task, (change index task).stripped = kept task) :
    (tasks.mapIdx change).map Task.stripped = tasks.map kept := by
  apply ext_getElem?
  intro index
  rw [getElem?_map, getElem?_mapIdx, getElem?_map, Option.map_map]
  exact congrArg (Option.map · tasks[index]?) (funext (keeps index))

theorem assemble_framed (build : Directives → Task → Task)
    (keeps : ∀ written task, (build written task).stripped = kept task)
    (assembled : assemble build made bare = some out) : Framed kept bare out := by
  obtain ⟨_, same⟩ := Option.ite_none_right_eq_some.mp assembled
  cases same
  refine ⟨map_stripped fun index => keeps _, ⟨_, rfl, fun object mem => ?_⟩, rfl⟩
  obtain ⟨id, _, source⟩ := mem_filterMap.mp mem
  have parts := find?_some source
  simp only [decide_eq_true_eq] at parts
  exact ⟨mem_reverse.mp (mem_of_find?_eq_some source), parts.1⟩

/-- A pass that writes directives only. -/
theorem Framed.redirect (framed : Framed kept bare built) (written : Nat → Task → Directives) :
    Framed kept bare
      { built with tasks := built.tasks.mapIdx fun index task => task.annotate (written index task) } where
  tasks := by
    rw [← framed.tasks]
    exact map_stripped fun _ _ => rfl
  initial := framed.initial
  rest := framed.rest

theorem verify_framed (fuel : Nat) (framed : Framed kept bare built)
    (verified : verifyAndRefine fuel built = some out) : Framed kept bare out ∧ runs out = true := by
  induction fuel generalizing built with
  | zero =>
    rw [verifyAndRefine, Option.ite_none_right_eq_some] at verified
    obtain ⟨fine, same⟩ := verified
    exact Option.some.inj same ▸ ⟨framed, fine⟩
  | succ fuel ih =>
    rw [verifyAndRefine] at verified
    split at verified
    · next fine => exact Option.some.inj verified ▸ ⟨framed, fine⟩
    · split at verified
      · obtain ⟨fewer, removed, later⟩ := Option.bind_eq_some_iff.mp verified
        obtain ⟨found, _, same⟩ := Option.bind_eq_some_iff.mp removed
        cases same
        exact ih (framed.redirect _) later
      · cases verified

/-- What each policy keeps of a task besides its directives. -/
def keptBy (bare : TaskChain) (head : String) : Policy → Task → Task
  | .slidingWindow, task =>
    if layered head task then { task.stripped with workspaceBytes := 0, mutatesInputs := [] }
    else task.stripped
  | .beladyReactive, task | .roundtripPlanner, task => { task.stripped with workspaceBytes := 0 }
  | .maxReduce, task | .minGrow, task => task.stripped
  | .pressurefit, task => { task.stripped with workspaceBytes := workspaceByTask bare task.id }

theorem refined_framed (returns : returned bare made .beladyReactive = some out) :
    Framed (keptBy bare made.head .beladyReactive) bare out ∧ runs out = true := by
  obtain ⟨built, assembled, later⟩ := Option.bind_eq_some_iff.mp returns
  have framed : Framed (keptBy bare made.head .beladyReactive) bare built :=
    assemble_framed Task.rebuild (fun _ _ => rfl) assembled
  exact verify_framed 20 (framed.redirect _) later

theorem returned_framed {policy : Policy} (returns : returned bare made policy = some out) :
    Framed (keptBy bare made.head policy) bare out := by
  cases policy with
  | slidingWindow =>
    refine assemble_framed _ (fun written task => ?_) returns
    show (Task.rebuildLayer made.head written task).stripped = if layered made.head task then _ else _
    unfold Task.rebuildLayer
    split_ifs <;> rfl
  | beladyReactive | roundtripPlanner => exact (refined_framed returns).1
  | maxReduce | minGrow => exact assemble_framed Task.annotate (fun _ _ => rfl) returns
  | pressurefit =>
    obtain ⟨planned, assembled, ends⟩ := Option.bind_eq_some_iff.mp returns
    obtain ⟨_, same⟩ := Option.ite_none_right_eq_some.mp ends
    cases same
    have framed : Framed Task.stripped (objectPlanningChain bare) planned :=
      assemble_framed Task.annotate (fun _ _ => rfl) assembled
    refine ⟨?_, framed.initial, ?_⟩
    · have same := congrArg (map fun task : Task =>
        { task with workspaceBytes := workspaceByTask bare task.id }) framed.tasks
      rw [objectPlanningChain, map_map, map_map, map_map] at same
      rw [restoreExecutionWorkspace, map_map]
      exact same
    · exact congrArg (fun chain : TaskChain => { chain with
        tasks := bare.tasks, initialMemory := bare.initialMemory
        fastMemoryCapacity := bare.fastMemoryCapacity }) framed.rest

/-- The chains on which a policy keeps all it should. -/
def Keeps (bare : TaskChain) (head : String) : Policy → Prop
  | .slidingWindow => ∀ task ∈ bare.tasks, layered head task →
      task.workspaceBytes = 0 ∧ task.mutatesInputs = []
  | .beladyReactive | .roundtripPlanner => ∀ task ∈ bare.tasks, task.workspaceBytes = 0
  | .maxReduce | .minGrow => True
  | .pressurefit => ∀ task ∈ bare.tasks, workspaceByTask bare task.id = task.workspaceBytes

theorem policies_only_annotate_iff {policy : Policy} (returns : returned bare made policy = some out) :
    Annotates bare out ↔ Keeps bare made.head policy := by
  rw [(returned_framed returns).annotates_iff]
  have zero : ∀ task : Task, { task.stripped with workspaceBytes := 0 } = task.stripped ↔
      task.workspaceBytes = 0 := by
    intro task
    simp [Task.stripped, eq_comm]
  cases policy with
  | slidingWindow =>
    refine forall₂_congr fun task _ => ?_
    by_cases hit : layered made.head task = true <;>
      simp [keptBy, hit, Task.stripped, eq_comm]
  | beladyReactive | roundtripPlanner => exact forall₂_congr fun task _ => zero task
  | maxReduce | minGrow => exact ⟨fun _ => trivial, fun _ _ _ => rfl⟩
  | pressurefit =>
    refine forall₂_congr fun task _ => ?_
    simp [keptBy, Task.stripped]

end Frame

/-- One task that needs a byte of workspace. -/
def oneWorkspace : TaskChain where
  tasks := [{ id := "t", workspaceBytes := 1 }]

/-- The planner has nothing to decide here, and the returned task has no workspace. -/
theorem roundtrip_drops_workspace :
    ∃ out, returned oneWorkspace {} .roundtripPlanner = some out ∧ ¬ Annotates oneWorkspace out :=
  ⟨{ tasks := [{ id := "t" }] }, by decide +kernel, fun annotates => absurd annotates.tasks (by decide)⟩

theorem min_grow_keeps_workspace :
    returned oneWorkspace {} .minGrow = some oneWorkspace ∧ Annotates oneWorkspace oneWorkspace :=
  have returns : returned oneWorkspace {} .minGrow = some oneWorkspace := by decide +kernel
  ⟨returns, (policies_only_annotate_iff returns).mpr trivial⟩

end Dataflow.Sim
