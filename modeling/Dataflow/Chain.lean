import Dataflow.Program
import Mathlib.Data.Finset.Basic

/-!
The task chain of the simulator (`dataflow_sim/core/schema.py`) and its static
validation (`dataflow_sim/core/validate.py`). A check is the first violation it
finds, in the order in which the source raises; a chain is accepted when there
is none. Object types only color plots and are left out, and a location is one
of the two the schema allows, so that no final location is invalid.
-/

namespace Dataflow.Sim

open List

structure Object where
  id : String
  size : Int
  location : Location := .fast
  deriving DecidableEq

structure OutputAlloc where
  id : String
  size : Int
  location : Location := .fast
  deriving DecidableEq

structure TransferTrigger where
  objId : String
  runtime : Option ℚ := none
  deriving DecidableEq

structure Task where
  id : String
  inputs : List String := []
  outputs : List OutputAlloc := []
  runtime : ℚ := 1
  workspaceBytes : Int := 0
  releasesAfter : List String := []
  offloadAfter : List TransferTrigger := []
  prefetchAfter : List TransferTrigger := []
  mutatesInputs : List String := []
  deriving DecidableEq

structure TaskChain where
  initialMemory : List Object := []
  tasks : List Task := []
  finalLocations : List (String × Location) := []
  fastMemoryCapacity : Option Int := none
  backingMemoryCapacity : Option Int := none
  bandwidthFromSlow : Option Int := none
  bandwidthToSlow : Option Int := none
  deriving DecidableEq

def Task.outputIds (task : Task) : List String := task.outputs.map (·.id)

def Task.offloadIds (task : Task) : List String := task.offloadAfter.map (·.objId)

def Task.prefetchIds (task : Task) : List String := task.prefetchAfter.map (·.objId)

def Task.outputsAt (task : Task) (location : Location) : List String :=
  (task.outputs.filter (·.location = location)).map (·.id)

def TaskChain.initialAt (chain : TaskChain) (location : Location) : List String :=
  (chain.initialMemory.filter (·.location = location)).map (·.id)

/-- Last position whose inputs or triggers name the object, or -1. -/
def lastRef (chain : TaskChain) (object : String) : Int :=
  chain.tasks.zipIdx.foldl (fun last entry =>
    if object ∈ entry.1.inputs ∨ object ∈ entry.1.offloadIds ∨ object ∈ entry.1.prefetchIds
    then entry.2 else last) (-1)

/-- A release at this position frees the backing copy too. -/
def deadEverywhere (chain : TaskChain) (position : Nat) (object : String) : Bool :=
  lastRef chain object ≤ position ∧ object ∉ chain.finalLocations.map (·.1)

/-- One constructor for each message; the arguments are what the message names. -/
inductive Violation where
  | duplicateInitialMemory (object : String) (location : Location)
  | negativeWorkspace (task : String) (bytes : Int)
  | duplicateInputId (task object : String)
  | duplicateOutputShadowsInitial (task object : String)
  | duplicateOutputId (task object : String)
  | outputDeclaredTwice (task object : String)
  | selfCycle (task object : String)
  | unknownInput (task object : String)
  | releasesUnknownObj (task object : String)
  | mutatesInputsNotInInputs (task object : String)
  | offloadUnknownObj (task object : String)
  | prefetchUnknownObj (task object : String)
  | finalLocationUnknownObj (object : String)
  | conflictPrefetchAndOffload (task object : String)
  | duplicateOffload (task object : String)
  | offloadNotOnCompute (task object : String)
  | duplicatePrefetch (task object : String)
  | prefetchAlreadyOnCompute (task object : String)
  | releaseAndOffload (task object : String)
  | releaseOfDirtyWithLaterUse (object releasedBy task : String)
  | releaseNoBackingCopyWithLaterUse (object releasedBy task : String)
  | releasedThenReferenced (object releasedBy task : String)
  | neverPrefetched (task object : String)
  | finalLocationNotOnBacking (object : String)
  | finalLocationDirtyOnBacking (object : String)
  | finalLocationNotOnCompute (object : String)
  | initialMemoryOverflow (location : Location) (allocated capacity : Int)
  | forcedFootprint (tasks : List (String × Int × Int × Int)) (capacity : Int)
  deriving DecidableEq

/-- The checks in source order; the first that finds something raises. -/
def firstViolation (checks : List (Option Violation)) : Option Violation :=
  checks.findSome? id

def violation (bad : Prop) [Decidable bad] (found : Violation) : Option Violation :=
  if bad then some found else none

/-- The first item that is in `seen` or occurs before. -/
def firstRepeat {Item : Type} [DecidableEq Item] : Finset Item → List Item → Option Item
  | _, [] => none
  | seen, item :: rest => if item ∈ seen then some item else firstRepeat (insert item seen) rest

/-- A walk over the chain: each task is checked in the state left by those before it. -/
def walk {State Item : Type} (check : State → Item → Option Violation)
    (next : State → Item → State) : State → List Item → Option Violation
  | _, [] => none
  | state, item :: rest => (check state item).or (walk check next (next state item) rest)

section Checks

variable {checks : List (Option Violation)} {found : Violation}

theorem first_violation_none : firstViolation checks = none ↔ ∀ check ∈ checks, check = none := by
  simp [firstViolation]

theorem violation_none {bad : Prop} [Decidable bad] : violation bad found = none ↔ ¬ bad := by
  simp [violation]

theorem first_repeat_none {Item : Type} [DecidableEq Item] {seen : Finset Item}
    {items : List Item} :
    firstRepeat seen items = none ↔ items.Nodup ∧ ∀ item ∈ items, item ∉ seen := by
  induction items generalizing seen with
  | nil => simp [firstRepeat]
  | cons item rest ih =>
    by_cases repeated : item ∈ seen
    · simp [firstRepeat, repeated]
    rw [firstRepeat, if_neg repeated, ih, ← Unseen, ← Unseen,
      unseen_cons fun _ => Finset.mem_insert]
    exact (and_iff_right repeated).symm

theorem walk_none {State Item : Type} {check : State → Item → Option Violation}
    {next : State → Item → State} {state : State} {items : List Item} :
    walk check next state items = none ↔ ∀ count item, items[count]? = some item →
      check ((items.take count).foldl next state) item = none := by
  induction items generalizing state with
  | nil => simp [walk]
  | cons item rest ih =>
    simp only [walk, Option.or_eq_none_iff, ih]
    constructor
    · rintro ⟨here, later⟩ count other found
      cases count with
      | zero =>
        cases found
        exact here
      | succ count => exact later count other found
    · intro all
      exact ⟨all 0 item rfl, fun count other found => all (count + 1) other found⟩

end Checks

/-! ### validate_id_resolution -/

def checkOutputIds (task : Task) (initialIds known : Finset String) :
    Finset String → List OutputAlloc → Option Violation
  | _, [] => none
  | own, output :: rest =>
    if output.id ∈ initialIds then some (.duplicateOutputShadowsInitial task.id output.id)
    else if output.id ∈ known then some (.duplicateOutputId task.id output.id)
    else if output.id ∈ own then some (.outputDeclaredTwice task.id output.id)
    else checkOutputIds task initialIds known (insert output.id own) rest

def checkTaskIds (initialIds known : Finset String) (task : Task) : Option Violation :=
  let unresolved (object : String) : Bool := object ∉ known ∧ object ∉ task.outputIds
  firstViolation
    [violation (task.workspaceBytes < 0) (.negativeWorkspace task.id task.workspaceBytes),
     (firstRepeat ∅ task.inputs).map (.duplicateInputId task.id),
     checkOutputIds task initialIds known ∅ task.outputs,
     (task.inputs.find? (· ∈ task.outputIds)).map (.selfCycle task.id),
     (task.inputs.find? (· ∉ known)).map (.unknownInput task.id),
     (task.releasesAfter.find? unresolved).map (.releasesUnknownObj task.id),
     (task.mutatesInputs.find? (· ∉ task.inputs)).map (.mutatesInputsNotInInputs task.id),
     (task.offloadIds.find? unresolved).map (.offloadUnknownObj task.id),
     (task.prefetchIds.find? unresolved).map (.prefetchUnknownObj task.id)]

def knownAfter (known : Finset String) (task : Task) : Finset String :=
  known ∪ task.outputIds.toFinset

def validateIdResolution (chain : TaskChain) : Option Violation :=
  let initialIds := (chain.initialMemory.map (·.id)).toFinset
  let known := chain.tasks.foldl knownAfter initialIds
  firstViolation
    [(firstRepeat ∅ (chain.initialMemory.map fun object => (object.id, object.location))).map
        fun key => .duplicateInitialMemory key.1 key.2,
     walk (checkTaskIds initialIds) knownAfter initialIds chain.tasks,
     (chain.finalLocations.find? (·.1 ∉ known)).map fun entry => .finalLocationUnknownObj entry.1]

/-! ### validate_triggers -/

structure Residency where
  onCompute : Finset String
  onBacking : Finset String
  deriving DecidableEq

def Residency.initial (chain : TaskChain) : Residency where
  onCompute := (chain.initialAt .fast).toFinset
  onBacking := (chain.initialAt .backing).toFinset

/-- Triggers fire after the task, when its outputs have landed. -/
def Residency.landed (residency : Residency) (task : Task) : Residency where
  onCompute := residency.onCompute ∪ (task.outputsAt .fast).toFinset
  onBacking := residency.onBacking ∪ (task.outputsAt .backing).toFinset

def Residency.settled (residency : Residency) (task : Task) : Residency where
  onCompute := ((residency.landed task).onCompute \ task.offloadIds.toFinset ∪
    task.prefetchIds.toFinset) \ task.releasesAfter.toFinset
  onBacking := (residency.landed task).onBacking ∪ task.offloadIds.toFinset

/-- Offloads and prefetches are checked alike: no object twice, none misplaced. -/
def checkTriggerIds (twice misplaced : String → Violation) (wrong : String → Bool) :
    Finset String → List String → Option Violation
  | _, [] => none
  | seen, object :: rest =>
    if object ∈ seen then some (twice object)
    else if wrong object then some (misplaced object)
    else checkTriggerIds twice misplaced wrong (insert object seen) rest

def checkTriggers (residency : Residency) (task : Task) : Option Violation :=
  let compute := (residency.landed task).onCompute
  firstViolation
    [(task.offloadIds.find? (· ∈ task.prefetchIds)).map (.conflictPrefetchAndOffload task.id),
     checkTriggerIds (.duplicateOffload task.id) (.offloadNotOnCompute task.id)
       (fun object => decide (object ∉ compute)) ∅ task.offloadIds,
     checkTriggerIds (.duplicatePrefetch task.id) (.prefetchAlreadyOnCompute task.id)
       (fun object => decide (object ∈ compute)) ∅ task.prefetchIds]

def validateTriggers (chain : TaskChain) : Option Violation :=
  walk checkTriggers Residency.settled (Residency.initial chain) chain.tasks

/-! ### validate_releases_mutation -/

structure ReleaseMeta where
  task : String
  wasDirty : Bool
  hadBacking : Bool
  deriving DecidableEq

/-- What the one-pass walk over releases and mutations knows before a task. -/
structure Lifetimes where
  onCompute : Finset String
  onBacking : Finset String
  dirty : Finset String := ∅
  releasedMeta : List (String × ReleaseMeta) := []
  deriving DecidableEq

namespace Lifetimes

def initial (chain : TaskChain) : Lifetimes where
  onCompute := (chain.initialAt .fast).toFinset
  onBacking := (chain.initialAt .backing).toFinset

def finish (state : Lifetimes) (task : Task) : Lifetimes :=
  { state with
    onCompute := state.onCompute ∪ (task.outputsAt .fast).toFinset
    onBacking := state.onBacking ∪ (task.outputsAt .backing).toFinset
    dirty := state.dirty ∪ task.mutatesInputs.toFinset }

def offload (state : Lifetimes) (object : String) : Lifetimes :=
  { state with
    dirty := state.dirty.erase object
    onBacking := insert object state.onBacking
    onCompute := state.onCompute.erase object }

def prefetch (state : Lifetimes) (object : String) : Lifetimes :=
  { state with
    onCompute := insert object state.onCompute
    dirty := state.dirty.erase object
    releasedMeta := state.releasedMeta.filter (·.1 ≠ object) }

def release (task : Task) (state : Lifetimes) (object : String) : Lifetimes :=
  { state with
    releasedMeta := (object,
      { task := task.id, wasDirty := decide (object ∈ state.dirty)
        hadBacking := decide (object ∈ state.onBacking) }) :: state.releasedMeta
    onCompute := state.onCompute.erase object
    dirty := state.dirty.erase object }

/-- The end-of-step changes, in the order of the source: releases come last. -/
def settled (state : Lifetimes) (task : Task) : Lifetimes :=
  let offloaded := task.offloadIds.foldl offload (state.finish task)
  let prefetched := task.prefetchIds.foldl prefetch offloaded
  task.releasesAfter.foldl (release task) prefetched

end Lifetimes

def checkInput (state : Lifetimes) (task : Task) (input : String) : Option Violation :=
  if input ∈ state.onCompute then none else
  match state.releasedMeta.lookup input with
  | none => some (.neverPrefetched task.id input)
  | some released =>
    if released.wasDirty then some (.releaseOfDirtyWithLaterUse input released.task task.id)
    else if ¬ released.hadBacking then
      some (.releaseNoBackingCopyWithLaterUse input released.task task.id)
    else some (.releasedThenReferenced input released.task task.id)

def checkLifetimes (state : Lifetimes) (task : Task) : Option Violation :=
  firstViolation
    [(task.releasesAfter.find? (· ∈ task.offloadIds)).map (.releaseAndOffload task.id),
     task.inputs.findSome? (checkInput state task)]

def checkFinal (state : Lifetimes) (entry : String × Location) : Option Violation :=
  match entry.2 with
  | .backing => firstViolation
      [violation (entry.1 ∉ state.onBacking) (.finalLocationNotOnBacking entry.1),
       violation (entry.1 ∈ state.dirty) (.finalLocationDirtyOnBacking entry.1)]
  | .fast => violation (entry.1 ∉ state.onCompute) (.finalLocationNotOnCompute entry.1)

def validateReleasesMutation (chain : TaskChain) : Option Violation :=
  firstViolation
    [walk checkLifetimes Lifetimes.settled (Lifetimes.initial chain) chain.tasks,
     chain.finalLocations.findSome?
       (checkFinal (chain.tasks.foldl Lifetimes.settled (Lifetimes.initial chain)))]

/-! ### validate_capacity -/

def initialBytes (chain : TaskChain) (location : Location) : Int :=
  ((chain.initialMemory.filter (·.location = location)).map (·.size)).sum

def Task.outputBytes (task : Task) (location : Location) : Int :=
  ((task.outputs.filter (·.location = location)).map (·.size)).sum

def checkOverflow (chain : TaskChain) (location : Location) (capacity : Option Int) :
    Option Violation :=
  match capacity with
  | none => none
  | some capacity => violation (capacity < initialBytes chain location)
      (.initialMemoryOverflow location (initialBytes chain location) capacity)

/-- Sizes by id, the latest entry first: a later entry replaces an earlier one. -/
abbrev SizeOf := List (String × Int)

def forcedBytes (sizes : SizeOf) (task : Task) : Int × Int × Int :=
  ((task.inputs.map fun input => (sizes.lookup input).getD 0).sum, task.outputBytes .fast,
    task.workspaceBytes)

def impossibleTasks (capacity : Int) : SizeOf → List Task → List (String × Int × Int × Int)
  | _, [] => []
  | sizes, task :: rest =>
    let forced := forcedBytes sizes task
    (if capacity < forced.1 + forced.2.1 + forced.2.2 then [(task.id, forced)] else []) ++
      impossibleTasks capacity
        ((task.outputs.map fun output => (output.id, output.size)).reverse ++ sizes) rest

def checkForced (chain : TaskChain) : Option Violation :=
  match chain.fastMemoryCapacity with
  | none => none
  | some capacity =>
    let sizes := (chain.initialMemory.map fun object => (object.id, object.size)).reverse
    let impossible := impossibleTasks capacity sizes chain.tasks
    violation (impossible ≠ []) (.forcedFootprint impossible capacity)

def validateCapacity (chain : TaskChain) : Option Violation :=
  firstViolation
    [checkOverflow chain .fast chain.fastMemoryCapacity,
     checkOverflow chain .backing chain.backingMemoryCapacity,
     checkForced chain]

def validatePlanningInput (chain : TaskChain) : Option Violation :=
  firstViolation [validateIdResolution chain, validateCapacity chain]

def validateChain (chain : TaskChain) : Option Violation :=
  firstViolation
    [validateIdResolution chain, validateTriggers chain, validateReleasesMutation chain,
     validateCapacity chain]

/-! ### what an accepted chain guarantees -/

def TaskChain.initialIds (chain : TaskChain) : Finset String :=
  (chain.initialMemory.map (·.id)).toFinset

def TaskChain.knownBefore (chain : TaskChain) (count : Nat) : Finset String :=
  (chain.tasks.take count).foldl knownAfter chain.initialIds

def TaskChain.residencyBefore (chain : TaskChain) (count : Nat) : Residency :=
  (chain.tasks.take count).foldl Residency.settled (Residency.initial chain)

def TaskChain.lifetimesBefore (chain : TaskChain) (count : Nat) : Lifetimes :=
  (chain.tasks.take count).foldl Lifetimes.settled (Lifetimes.initial chain)

structure TaskAccepted (chain : TaskChain) (count : Nat) (task : Task) : Prop where
  workspace : 0 ≤ task.workspaceBytes
  inputsDistinct : task.inputs.Nodup
  outputsDistinct : task.outputIds.Nodup
  outputsFresh : ∀ object ∈ task.outputIds, object ∉ chain.knownBefore count
  inputsKnown : ∀ object ∈ task.inputs, object ∈ chain.knownBefore count
  mutatesInputs : ∀ object ∈ task.mutatesInputs, object ∈ task.inputs
  offloadsDistinct : task.offloadIds.Nodup
  prefetchesDistinct : task.prefetchIds.Nodup
  offloadNotPrefetch : ∀ object ∈ task.offloadIds, object ∉ task.prefetchIds
  offloadResident : ∀ object ∈ task.offloadIds,
    object ∈ ((chain.residencyBefore count).landed task).onCompute
  prefetchAbsent : ∀ object ∈ task.prefetchIds,
    object ∉ ((chain.residencyBefore count).landed task).onCompute
  releaseNotOffload : ∀ object ∈ task.releasesAfter, object ∉ task.offloadIds
  inputsResident : ∀ object ∈ task.inputs, object ∈ (chain.lifetimesBefore count).onCompute

section Accepted

variable {chain : TaskChain} {count : Nat} {task : Task} {object : String}

theorem check_output_ids_none {initialIds known own : Finset String} {outputs : List OutputAlloc}
    (clean : checkOutputIds task initialIds known own outputs = none) :
    Unseen (· ∈ own) (outputs.map (·.id)) ∧ ∀ output ∈ outputs, output.id ∉ known := by
  induction outputs generalizing own with
  | nil => simp [Unseen]
  | cons output rest ih =>
    unfold checkOutputIds at clean
    split_ifs at clean with shadows seen twice
    obtain ⟨unseen, apart⟩ := ih clean
    exact ⟨unseen.cons twice fun _ => Finset.mem_insert, forall_mem_cons.mpr ⟨seen, apart⟩⟩

theorem check_trigger_ids_none {twice misplaced : String → Violation} {wrong : String → Bool}
    {seen : Finset String} {objects : List String}
    (clean : checkTriggerIds twice misplaced wrong seen objects = none) :
    Unseen (· ∈ seen) objects ∧ ∀ object ∈ objects, wrong object = false := by
  induction objects generalizing seen with
  | nil => simp [Unseen]
  | cons object rest ih =>
    unfold checkTriggerIds at clean
    split_ifs at clean with early bad
    obtain ⟨unseen, fine⟩ := ih clean
    exact ⟨unseen.cons early fun _ => Finset.mem_insert,
      forall_mem_cons.mpr ⟨by simpa using bad, fine⟩⟩

theorem accepted_parts (accepted : validateChain chain = none) :
    validateIdResolution chain = none ∧ validateTriggers chain = none ∧
      validateReleasesMutation chain = none ∧ validateCapacity chain = none := by
  simpa [validateChain, first_violation_none] using accepted

theorem accepted_ids (clean : validateIdResolution chain = none)
    (found : chain.tasks[count]? = some task) :
    checkTaskIds chain.initialIds (chain.knownBefore count) task = none := by
  simp only [validateIdResolution, first_violation_none, mem_cons, not_mem_nil, or_false,
    forall_eq_or_imp, forall_eq] at clean
  exact walk_none.mp clean.2.1 count task found

theorem accepted_task (accepted : validateChain chain = none)
    (found : chain.tasks[count]? = some task) : TaskAccepted chain count task := by
  obtain ⟨ids, triggers, lifetimes, _⟩ := accepted_parts accepted
  have taskIds := accepted_ids ids found
  have taskTriggers : checkTriggers (chain.residencyBefore count) task = none :=
    walk_none.mp triggers count task found
  simp only [validateReleasesMutation, first_violation_none, mem_cons, not_mem_nil,
    or_false, forall_eq_or_imp, forall_eq] at lifetimes
  have taskLifetimes : checkLifetimes (chain.lifetimesBefore count) task = none :=
    walk_none.mp lifetimes.1 count task found
  simp only [checkTaskIds, first_violation_none, mem_cons, not_mem_nil, or_false,
    forall_eq_or_imp, forall_eq, violation_none, Option.map_eq_none_iff,
    find?_eq_none, first_repeat_none] at taskIds
  obtain ⟨workspace, ⟨inputsDistinct, _⟩, outputs, _, inputsKnown, _, mutates, _, _⟩ := taskIds
  simp only [checkTriggers, first_violation_none, mem_cons, not_mem_nil, or_false,
    forall_eq_or_imp, forall_eq, Option.map_eq_none_iff, find?_eq_none] at taskTriggers
  obtain ⟨conflict, offloads, prefetches⟩ := taskTriggers
  simp only [checkLifetimes, first_violation_none, mem_cons, not_mem_nil, or_false,
    forall_eq_or_imp, forall_eq, Option.map_eq_none_iff, find?_eq_none,
    findSome?_eq_none_iff] at taskLifetimes
  obtain ⟨both, inputs⟩ := taskLifetimes
  obtain ⟨outputsDistinct, outputsFresh⟩ := check_output_ids_none outputs
  obtain ⟨offloadsDistinct, offloadResident⟩ := check_trigger_ids_none offloads
  obtain ⟨prefetchesDistinct, prefetchAbsent⟩ := check_trigger_ids_none prefetches
  exact {
    workspace := not_lt.mp workspace
    inputsDistinct := inputsDistinct
    outputsDistinct := outputsDistinct.1
    outputsFresh := by
      intro object mem
      obtain ⟨output, listed, same⟩ := mem_map.mp mem
      exact same ▸ outputsFresh output listed
    inputsKnown := fun object mem => by simpa using inputsKnown object mem
    mutatesInputs := fun object mem => by simpa using mutates object mem
    offloadsDistinct := offloadsDistinct.1
    prefetchesDistinct := prefetchesDistinct.1
    offloadNotPrefetch := fun object mem => by simpa using conflict object mem
    offloadResident := fun object mem => by simpa using offloadResident object mem
    prefetchAbsent := fun object mem => by simpa using prefetchAbsent object mem
    releaseNotOffload := fun object mem => by simpa using both object mem
    inputsResident := by
      intro object mem
      by_contra absent
      have clean := inputs object mem
      simp only [checkInput, absent, if_false] at clean
      split at clean
      · cases clean
      · split_ifs at clean }

end Accepted

/-! ### the walks, object by object -/

theorem foldl_take_succ {State Item : Type} {next : State → Item → State} {state : State}
    {items : List Item} {count : Nat} {item : Item} (found : items[count]? = some item) :
    (items.take (count + 1)).foldl next state = next ((items.take count).foldl next state) item := by
  rw [take_add_one, found, foldl_append]
  rfl

section Walks

variable {chain : TaskChain} {count : Nat} {task : Task} {object : String} {state : Lifetimes}

theorem mem_known_succ (found : chain.tasks[count]? = some task) :
    object ∈ chain.knownBefore (count + 1) ↔
      object ∈ chain.knownBefore count ∨ object ∈ task.outputIds := by
  rw [TaskChain.knownBefore, foldl_take_succ found]
  simp [knownAfter, TaskChain.knownBefore]

theorem mem_residency_succ (found : chain.tasks[count]? = some task) :
    object ∈ (chain.residencyBefore (count + 1)).onCompute ↔
      (object ∈ ((chain.residencyBefore count).landed task).onCompute ∧ object ∉ task.offloadIds ∨
        object ∈ task.prefetchIds) ∧ object ∉ task.releasesAfter := by
  rw [TaskChain.residencyBefore, foldl_take_succ found]
  simp [Residency.settled, TaskChain.residencyBefore]

namespace Lifetimes

section Folds

variable {f : Lifetimes → Finset String} {step : Lifetimes → String → Lifetimes}

theorem mem_foldl_erase (erases : ∀ state object, f (step state object) = (f state).erase object)
    (objects : List String) (state : Lifetimes) :
    object ∈ f (objects.foldl step state) ↔ object ∈ f state ∧ object ∉ objects := by
  induction objects generalizing state with
  | nil => simp
  | cons head rest ih =>
    grind

theorem mem_foldl_insert (inserts : ∀ state object, f (step state object) = insert object (f state))
    (objects : List String) (state : Lifetimes) :
    object ∈ f (objects.foldl step state) ↔ object ∈ f state ∨ object ∈ objects := by
  induction objects generalizing state with
  | nil => simp
  | cons head rest ih =>
    grind

theorem mem_foldl_keeps (keeps : ∀ state object, f (step state object) = f state)
    (objects : List String) (state : Lifetimes) :
    object ∈ f (objects.foldl step state) ↔ object ∈ f state := by
  induction objects generalizing state with
  | nil => rfl
  | cons head rest ih => rw [foldl_cons, ih, keeps]

end Folds

theorem mem_compute_settled : object ∈ (state.settled task).onCompute ↔
    ((object ∈ state.onCompute ∨ object ∈ task.outputsAt .fast) ∧ object ∉ task.offloadIds ∨
      object ∈ task.prefetchIds) ∧ object ∉ task.releasesAfter := by
  rw [settled, mem_foldl_erase, mem_foldl_insert, mem_foldl_erase]
  · simp only [finish, Finset.mem_union, mem_toFinset]
  all_goals exact fun _ _ => rfl

theorem mem_backing_settled : object ∈ (state.settled task).onBacking ↔
    (object ∈ state.onBacking ∨ object ∈ task.outputsAt .backing) ∨ object ∈ task.offloadIds := by
  rw [settled, mem_foldl_keeps, mem_foldl_keeps, mem_foldl_insert]
  · simp only [finish, Finset.mem_union, mem_toFinset]
  all_goals exact fun _ _ => rfl

theorem mem_dirty_settled : object ∈ (state.settled task).dirty ↔
    (((object ∈ state.dirty ∨ object ∈ task.mutatesInputs) ∧ object ∉ task.offloadIds) ∧
      object ∉ task.prefetchIds) ∧ object ∉ task.releasesAfter := by
  rw [settled, mem_foldl_erase, mem_foldl_erase, mem_foldl_erase]
  · simp only [finish, Finset.mem_union, mem_toFinset]
  all_goals exact fun _ _ => rfl

end Lifetimes

theorem lifetimes_succ (found : chain.tasks[count]? = some task) :
    chain.lifetimesBefore (count + 1) = (chain.lifetimesBefore count).settled task :=
  foldl_take_succ found

theorem same_residency (within : count ≤ chain.tasks.length) :
    (chain.residencyBefore count).onCompute = (chain.lifetimesBefore count).onCompute := by
  induction count with
  | zero => rfl
  | succ count ih =>
    have found := getElem?_eq_getElem within
    ext object
    rw [mem_residency_succ found, lifetimes_succ found, Lifetimes.mem_compute_settled,
      Residency.landed, Finset.mem_union, mem_toFinset, ih (Nat.le_of_lt within)]

end Walks

end Dataflow.Sim
