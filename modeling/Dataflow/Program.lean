import Mathlib.Algebra.Order.Ring.Unbundled.Rat
import Mathlib.Data.Int.Order.Basic
import Mathlib.Data.List.Nodup
import Mathlib.Algebra.BigOperators.Group.List.Basic

/-!
The program IR of `core/program.py` and the structural checks of
`core/validate.py`. Identifiers are the source's strings, byte counts are
integers because validation is what rejects the non-positive ones, and times
are rationals in microseconds. Fields no modelled function reads (labels,
block parameters, metadata) are left out.
-/

namespace Dataflow

open List

inductive Location where
  | fast
  | backing
  deriving DecidableEq

inductive Role where
  | parameter
  | gradient
  | optimizerState
  | activation
  | input
  | output
  | temp
  | other
  deriving DecidableEq

def dtypeBits : List (String × Int) :=
  [("fp64", 64), ("fp32", 32), ("tf32", 32), ("fp16", 16), ("bf16", 16),
    ("fp8_e4m3", 8), ("fp8_e5m2", 8), ("fp4", 4), ("int64", 64), ("int32", 32),
    ("int16", 16), ("int8", 8), ("uint8", 8), ("bool", 8)]

structure TensorMeta where
  dtype : Option String := none
  shape : Option (List Int) := none
  strides : Option (List Int) := none
  deriving DecidableEq

/-- `none` where the source raises: the dtype is unknown. -/
def dtypeNbytes (shape : List Int) (dtype : String) : Option Int :=
  (dtypeBits.lookup dtype).map fun bits => (shape.prod * bits + 7) / 8

/-- Dense size, `none` when a field is missing or strides are given. An unknown
dtype raises in the source; validation has recorded an issue by then, so the
program is rejected either way. -/
def TensorMeta.nbytes (tensor : TensorMeta) : Option Int :=
  match tensor.dtype, tensor.shape, tensor.strides with
  | some dtype, some shape, none => dtypeNbytes shape dtype
  | _, _, _ => none

structure ObjectSpec where
  id : String
  sizeBytes : Int
  location : Location := .backing
  role : Role := .other
  tensor : Option TensorMeta := none
  deriving DecidableEq

structure OutputSpec where
  id : String
  sizeBytes : Int
  location : Location := .fast
  role : Role := .other
  tensor : Option TensorMeta := none
  deriving DecidableEq

structure TransferDirective where
  objectId : String
  runtimeUs : Option ℚ := none
  deriving DecidableEq

structure TaskSpec where
  id : String
  inputs : List String := []
  outputs : List OutputSpec := []
  mutates : List String := []
  runtimeUs : ℚ := 1
  workspaceBytes : Int := 0
  commGroups : List (String × String) := []
  releasesAfter : List String := []
  offloadAfter : List TransferDirective := []
  prefetchAfter : List TransferDirective := []
  host : Bool := false
  deriving DecidableEq

def TaskSpec.directiveObjects (task : TaskSpec) : List String :=
  task.releasesAfter ++ task.offloadAfter.map (·.objectId) ++ task.prefetchAfter.map (·.objectId)

structure RecomputeOption where
  level : Int
  deriving DecidableEq

structure RecomputeRewrite where
  objectId : String
  fTaskId : String
  rTaskId : String
  options : List RecomputeOption
  deriving DecidableEq

structure Program where
  name : String
  initialObjects : List ObjectSpec := []
  tasks : List TaskSpec := []
  finalLocations : List (String × Location) := []
  fastMemoryCapacity : Option Int := none
  backingMemoryCapacity : Option Int := none
  bandwidthFromSlow : Option Int := none
  bandwidthToSlow : Option Int := none
  recomputeRewrites : List RecomputeRewrite := []
  deriving DecidableEq

/-! One constructor per message of the source, carrying what the message names. -/

inductive Issue where
  | emptyName
  | duplicateInitial (object : String) (location : Location)
  | inconsistentInitial (object : String)
  | sizeNotPositive (object : String) (size : Int)
  | unknownDtype (object : String) (dtype : String)
  | denseSizeMismatch (object : String) (size expected : Int)
  | commGroupEntry (task purpose name : String)
  | duplicateTask (task : String)
  | negativeRuntime (task : String) (runtime : ℚ)
  | negativeWorkspace (task : String) (bytes : Int)
  | inputMissing (task object : String)
  | inputNotYetCreated (task object : String) (index : Int)
  | duplicateInputs (task : String)
  | mutatesNonInput (task object : String)
  | outputCollides (task object : String) (origin : Int)
  | releasesTwice (task object : String)
  | releasesUnknown (task object : String)
  | offloadsTwice (task object : String)
  | offloadsUnknown (task object : String)
  | offloadNegativeRuntime (task object : String)
  | prefetchesTwice (task object : String)
  | prefetchesUnknown (task object : String)
  | prefetchNegativeRuntime (task object : String)
  | releasedAndOffloaded (task : String)
  | releasedAndPrefetched (task : String)
  | finalUnknown (object : String)
  | capacityNotPositive (field : String) (value : Int)
  | prefetchNeedsBandwidth
  | offloadNeedsBandwidth
  | rewriteWithoutOptions (object : String)
  | rewriteFirstLevel (object : String) (level : Int)
  | rewriteLevels (object : String)
  | rewriteTasks (object : String)
  deriving DecidableEq

def report (wrong : Prop) [Decidable wrong] (issue : Issue) : List Issue :=
  if wrong then [issue] else []

def checkObject (object : String) (sizeBytes : Int) (tensor : Option TensorMeta) : List Issue :=
  report (sizeBytes < 1) (.sizeNotPositive object sizeBytes) ++
  match tensor with
  | none => []
  | some tensor =>
    (match tensor.dtype with
      | none => []
      | some dtype => report ((dtypeBits.lookup dtype).isNone) (.unknownDtype object dtype)) ++
    match tensor.nbytes with
    | none => []
    | some expected =>
      report (expected ≠ sizeBytes) (.denseSizeMismatch object sizeBytes expected)

/-- `created_at`: object id to producing task index, `-1` for initial memory. -/
abbrev CreatedAt := List (String × Int)

def checkInitial : List ObjectSpec → List ObjectSpec → List Issue
  | _, [] => []
  | seen, object :: rest =>
    report (∃ earlier ∈ seen, earlier.id = object.id ∧ earlier.location = object.location)
      (.duplicateInitial object.id object.location) ++
    -- the source compares with the last entry of the same id
    (match seen.find? fun earlier => earlier.id = object.id with
      | none => []
      | some prior => report ((prior.sizeBytes, prior.role) ≠ (object.sizeBytes, object.role))
          (.inconsistentInitial object.id)) ++
    checkObject object.id object.sizeBytes object.tensor ++
    checkInitial (object :: seen) rest

def checkInputs (task : TaskSpec) (index : Int) (created : CreatedAt) : List Issue :=
  task.inputs.flatMap fun input =>
    match created.lookup input with
    | none => [.inputMissing task.id input]
    | some origin => report (index ≤ origin) (.inputNotYetCreated task.id input origin)

def checkOutputs (task : TaskSpec) (index : Int) :
    List OutputSpec → CreatedAt → List Issue × CreatedAt
  | [], created => ([], created)
  | output :: rest, created =>
    let first : List Issue × CreatedAt := match created.lookup output.id with
      | some origin => ([.outputCollides task.id output.id origin], created)
      | none => ([], (output.id, index) :: created)
    let tail := checkOutputs task index rest first.2
    (first.1 ++ checkObject output.id output.sizeBytes output.tensor ++ tail.1, tail.2)

def knownByNow (index : Int) (created : CreatedAt) (object : String) : Bool :=
  match created.lookup object with
  | none => false
  | some origin => decide (origin ≤ index)

def checkReleases (task : TaskSpec) (index : Int) (created : CreatedAt) :
    List String → List String → List Issue
  | _, [] => []
  | seen, object :: rest =>
    report (object ∈ seen) (.releasesTwice task.id object) ++
    report (knownByNow index created object = false) (.releasesUnknown task.id object) ++
    checkReleases task index created (object :: seen) rest

/-- Offload and prefetch lists are checked alike; only the three messages differ. -/
def checkTransfers (twice unknown negative : String → Issue) (index : Int)
    (created : CreatedAt) : List String → List TransferDirective → List Issue
  | _, [] => []
  | seen, trigger :: rest =>
    report (trigger.objectId ∈ seen) (twice trigger.objectId) ++
    report (knownByNow index created trigger.objectId = false) (unknown trigger.objectId) ++
    (match trigger.runtimeUs with
      | none => []
      | some runtime => report (runtime < 0) (negative trigger.objectId)) ++
    checkTransfers twice unknown negative index created (trigger.objectId :: seen) rest

def checkDirectives (task : TaskSpec) (index : Int) (created : CreatedAt) : List Issue :=
  checkReleases task index created [] task.releasesAfter ++
  checkTransfers (.offloadsTwice task.id) (.offloadsUnknown task.id)
    (.offloadNegativeRuntime task.id) index created [] task.offloadAfter ++
  checkTransfers (.prefetchesTwice task.id) (.prefetchesUnknown task.id)
    (.prefetchNegativeRuntime task.id) index created [] task.prefetchAfter ++
  report (∃ object ∈ task.releasesAfter, object ∈ task.offloadAfter.map (·.objectId))
    (.releasedAndOffloaded task.id) ++
  report (∃ object ∈ task.releasesAfter, object ∈ task.prefetchAfter.map (·.objectId))
    (.releasedAndPrefetched task.id)

def checkTask (task : TaskSpec) (index : Int) (ids : List String) (created : CreatedAt) :
    List Issue × CreatedAt :=
  let outputs := checkOutputs task index task.outputs created
  ((task.commGroups.flatMap fun entry =>
      report (entry.1 = "" ∨ entry.2 = "") (.commGroupEntry task.id entry.1 entry.2)) ++
    report (task.id ∈ ids) (.duplicateTask task.id) ++
    report (task.runtimeUs < 0) (.negativeRuntime task.id task.runtimeUs) ++
    report (task.workspaceBytes < 0) (.negativeWorkspace task.id task.workspaceBytes) ++
    checkInputs task index created ++
    report (¬ task.inputs.Nodup) (.duplicateInputs task.id) ++
    (task.mutates.flatMap fun object =>
      report (object ∉ task.inputs) (.mutatesNonInput task.id object)) ++
    outputs.1 ++
    checkDirectives task index outputs.2,
   outputs.2)

def checkTasks : List TaskSpec → Int → List String → CreatedAt → List Issue × CreatedAt
  | [], _, _, created => ([], created)
  | task :: rest, index, ids, created =>
    let head := checkTask task index ids created
    let tail := checkTasks rest (index + 1) (task.id :: ids) head.2
    (head.1 ++ tail.1, tail.2)

def checkRewrite (taskIds : List String) (rewrite : RecomputeRewrite) : List Issue :=
  match rewrite.options with
  | [] => [.rewriteWithoutOptions rewrite.objectId]
  | first :: rest =>
    report (first.level ≠ 0) (.rewriteFirstLevel rewrite.objectId first.level) ++
    report (¬ ((first :: rest).map (·.level)).Pairwise (· < ·))
      (.rewriteLevels rewrite.objectId) ++
    report (rewrite.fTaskId ∉ taskIds ∧ rewrite.rTaskId ∉ taskIds)
      (.rewriteTasks rewrite.objectId)

def checkPositive (field : String) (value : Option Int) : List Issue :=
  match value with
  | none => []
  | some value => report (value ≤ 0) (.capacityNotPositive field value)

/-- The issues the source would collect; a program is accepted when there are none. -/
def validateProgram (program : Program) : List Issue :=
  let initialCreated : CreatedAt := program.initialObjects.map fun object => (object.id, -1)
  let tasks := checkTasks program.tasks 0 [] initialCreated
  report (program.name = "") .emptyName ++
  checkInitial [] program.initialObjects ++
  tasks.1 ++
  (program.finalLocations.flatMap fun entry =>
    report ((tasks.2.lookup entry.1).isNone) (.finalUnknown entry.1)) ++
  checkPositive "fast_memory_capacity" program.fastMemoryCapacity ++
  checkPositive "backing_memory_capacity" program.backingMemoryCapacity ++
  checkPositive "bandwidth_from_slow" program.bandwidthFromSlow ++
  checkPositive "bandwidth_to_slow" program.bandwidthToSlow ++
  report (program.bandwidthFromSlow = none ∧
      ∃ task ∈ program.tasks, ∃ trigger ∈ task.prefetchAfter, trigger.runtimeUs = none)
    .prefetchNeedsBandwidth ++
  report (program.bandwidthToSlow = none ∧
      ∃ task ∈ program.tasks, ∃ trigger ∈ task.offloadAfter, trigger.runtimeUs = none)
    .offloadNeedsBandwidth ++
  program.recomputeRewrites.flatMap (checkRewrite (program.tasks.map (·.id)))

/-! What an accepted program guarantees. -/

structure TaskAdmitted (task : TaskSpec) : Prop where
  runtime : 0 ≤ task.runtimeUs
  workspace : 0 ≤ task.workspaceBytes
  inputsDistinct : task.inputs.Nodup
  mutatesInputs : ∀ object ∈ task.mutates, object ∈ task.inputs
  outputsPositive : ∀ output ∈ task.outputs, 1 ≤ output.sizeBytes
  releasesDistinct : task.releasesAfter.Nodup
  offloadsDistinct : (task.offloadAfter.map (·.objectId)).Nodup
  prefetchesDistinct : (task.prefetchAfter.map (·.objectId)).Nodup
  releaseNotOffload : ∀ object ∈ task.releasesAfter, object ∉ task.offloadAfter.map (·.objectId)
  releaseNotPrefetch : ∀ object ∈ task.releasesAfter,
    object ∉ task.prefetchAfter.map (·.objectId)
  offloadRuntime : ∀ trigger ∈ task.offloadAfter, ∀ runtime,
    trigger.runtimeUs = some runtime → 0 ≤ runtime
  prefetchRuntime : ∀ trigger ∈ task.prefetchAfter, ∀ runtime,
    trigger.runtimeUs = some runtime → 0 ≤ runtime

def outputIds (tasks : List TaskSpec) : List String :=
  tasks.flatMap fun task => task.outputs.map (·.id)

/-- No directive of the first task is about an output of the second. -/
def DirectsCreated (task later : TaskSpec) : Prop :=
  ∀ object ∈ task.directiveObjects, object ∉ later.outputs.map (·.id)

structure Admitted (program : Program) : Prop where
  initialDistinct : (program.initialObjects.map fun object => (object.id, object.location)).Nodup
  initialSizes : ∀ left ∈ program.initialObjects, ∀ right ∈ program.initialObjects,
    left.id = right.id → left.sizeBytes = right.sizeBytes
  initialPositive : ∀ object ∈ program.initialObjects, 1 ≤ object.sizeBytes
  taskIds : (program.tasks.map (·.id)).Nodup
  outputsDistinct : (outputIds program.tasks).Nodup
  outputsFresh : ∀ output ∈ outputIds program.tasks,
    ∀ object ∈ program.initialObjects, object.id ≠ output
  tasks : ∀ task ∈ program.tasks, TaskAdmitted task
  directsCreated : program.tasks.Pairwise DirectsCreated
  fastCapacity : ∀ capacity, program.fastMemoryCapacity = some capacity → 0 < capacity
  backingCapacity : ∀ capacity, program.backingMemoryCapacity = some capacity → 0 < capacity
  fromSlowBandwidth : ∀ task ∈ program.tasks, ∀ trigger ∈ task.prefetchAfter,
    trigger.runtimeUs = none → ∃ bandwidth, program.bandwidthFromSlow = some bandwidth ∧ 0 < bandwidth
  toSlowBandwidth : ∀ task ∈ program.tasks, ∀ trigger ∈ task.offloadAfter,
    trigger.runtimeUs = none → ∃ bandwidth, program.bandwidthToSlow = some bandwidth ∧ 0 < bandwidth

@[simp] theorem report_eq_nil (wrong : Prop) [Decidable wrong] (issue : Issue) :
    report wrong issue = [] ↔ ¬ wrong := by
  by_cases bad : wrong <;> simp [report, bad]

/-- No id comes twice or has been seen before. -/
def Unseen {Key : Type} (seen : Key → Prop) (ids : List Key) : Prop :=
  ids.Nodup ∧ ∀ id ∈ ids, ¬seen id

theorem unseen_cons {Key : Type} {seen later : Key → Prop} {id : Key} {ids : List Key}
    (grown : ∀ key, later key ↔ key = id ∨ seen key) :
    Unseen seen (id :: ids) ↔ ¬seen id ∧ Unseen later ids := by
  simp only [Unseen, nodup_cons, forall_mem_cons, grown, not_or]
  constructor
  · rintro ⟨⟨absent, distinct⟩, fresh, apart⟩
    exact ⟨fresh, distinct, fun key mem => ⟨fun same => absent (same ▸ mem), apart key mem⟩⟩
  · rintro ⟨fresh, distinct, apart⟩
    exact ⟨⟨fun mem => (apart id mem).1 rfl, distinct⟩, fresh, fun key mem => (apart key mem).2⟩

theorem Unseen.cons {Key : Type} {seen later : Key → Prop} {id : Key} {ids : List Key}
    (unseen : Unseen later ids) (fresh : ¬seen id) (grown : ∀ key, later key ↔ key = id ∨ seen key) :
    Unseen seen (id :: ids) :=
  (unseen_cons grown).mpr ⟨fresh, unseen⟩

variable {object field : String} {seen objects : List ObjectSpec} {task : TaskSpec}
  {ids : List String}

theorem check_object_clean {size : Int} {tensor : Option TensorMeta}
    (clean : checkObject object size tensor = []) : 1 ≤ size := by
  have first := (append_eq_nil_iff.mp clean).1
  have positive := (report_eq_nil _ _).mp first
  omega

theorem check_initial_clean (clean : checkInitial seen objects = []) :
    Unseen (· ∈ seen.map fun object => (object.id, object.location))
      (objects.map fun object => (object.id, object.location)) ∧
    ∀ object ∈ objects, 1 ≤ object.sizeBytes := by
  induction objects generalizing seen with
  | nil => simp [Unseen]
  | cons object rest ih =>
    simp only [checkInitial, append_eq_nil_iff, report_eq_nil] at clean
    obtain ⟨⟨⟨fresh, _⟩, sized⟩, later⟩ := clean
    obtain ⟨unseen, positive⟩ := ih later
    refine ⟨unseen.cons (fun mem => ?_) fun _ => mem_cons,
      forall_mem_cons.mpr ⟨check_object_clean sized, positive⟩⟩
    obtain ⟨earlier, before, same⟩ := mem_map.mp mem
    exact fresh ⟨earlier, before, Prod.mk.inj same⟩

-- Sizes agree with the most recent entry of the same id, hence with all of them.
theorem check_initial_sizes
    (clean : checkInitial seen objects = [])
    (agree : ∀ left ∈ seen, ∀ right ∈ seen, left.id = right.id → left.sizeBytes = right.sizeBytes) :
    ∀ left ∈ seen ++ objects, ∀ right ∈ seen ++ objects,
      left.id = right.id → left.sizeBytes = right.sizeBytes := by
  induction objects generalizing seen with
  | nil => simpa using agree
  | cons object rest ih =>
    simp only [checkInitial, append_eq_nil_iff, report_eq_nil] at clean
    obtain ⟨⟨⟨_, consistent⟩, _⟩, later⟩ := clean
    have headAgrees : ∀ earlier ∈ seen, earlier.id = object.id →
        earlier.sizeBytes = object.sizeBytes := by
      intro earlier before sameId
      cases found : seen.find? fun earlier => earlier.id = object.id with
      | none =>
        have absent := find?_eq_none.mp found earlier before
        simp [sameId] at absent
      | some prior =>
        rw [found] at consistent
        have equal := (report_eq_nil _ _).mp consistent
        rw [not_not, Prod.mk.injEq] at equal
        have priorId : prior.id = object.id := by simpa using find?_some found
        have priorMember := mem_of_find?_eq_some found
        exact (agree earlier before prior priorMember (sameId.trans priorId.symm)).trans equal.1
    have extended : ∀ left ∈ object :: seen, ∀ right ∈ object :: seen,
        left.id = right.id → left.sizeBytes = right.sizeBytes := by
      intro left leftMember right rightMember same
      rcases mem_cons.mp leftMember with leftHead | leftTail <;>
        rcases mem_cons.mp rightMember with rightHead | rightTail
      · rw [leftHead, rightHead]
      · subst leftHead
        exact (headAgrees right rightTail same.symm).symm
      · subst rightHead
        exact headAgrees left leftTail same
      · exact agree left leftTail right rightTail same
    intro left leftMember right rightMember
    exact ih later extended left (by simpa [or_left_comm] using leftMember)
      right (by simpa [or_left_comm] using rightMember)

variable {created : CreatedAt} {index : Int}

theorem check_outputs_clean {outputs : List OutputSpec}
    (clean : (checkOutputs task index outputs created).1 = []) :
    Unseen (created.lookup · ≠ none) (outputs.map (·.id)) ∧
    (∀ output ∈ outputs, 1 ≤ output.sizeBytes) ∧
    ∀ object, (checkOutputs task index outputs created).2.lookup object ≠ none ↔
      object ∈ outputs.map (·.id) ∨ created.lookup object ≠ none := by
  induction outputs generalizing created with
  | nil => simp [checkOutputs, Unseen]
  | cons output rest ih =>
    cases found : created.lookup output.id with
    | some origin => simp [checkOutputs, found] at clean
    | none =>
      simp only [checkOutputs, found, nil_append, append_eq_nil_iff] at clean ⊢
      obtain ⟨unseen, sized, keys⟩ := ih clean.2
      have grown : ∀ object, ((output.id, index) :: created).lookup object ≠ none ↔
          object = output.id ∨ created.lookup object ≠ none := by
        intro object
        by_cases same : object = output.id
        · simp [same]
        · rw [lookup_cons, beq_false_of_ne same]
          simp only [same, false_or]
      refine ⟨unseen.cons (not_not.mpr found) grown,
        forall_mem_cons.mpr ⟨check_object_clean clean.1, sized⟩, fun object => ?_⟩
      rw [keys, grown, map_cons, mem_cons]
      tauto

theorem known_by_now
    (known : ¬ knownByNow index created object = false) : created.lookup object ≠ none := by
  intro missing
  exact known (by simp [knownByNow, missing])

theorem check_releases_clean
    {seen objects : List String} (clean : checkReleases task index created seen objects = []) :
    Unseen (· ∈ seen) objects ∧ ∀ object ∈ objects, created.lookup object ≠ none := by
  induction objects generalizing seen with
  | nil => simp [Unseen]
  | cons object rest ih =>
    simp only [checkReleases, append_eq_nil_iff, report_eq_nil] at clean
    obtain ⟨unseen, known⟩ := ih clean.2
    exact ⟨unseen.cons clean.1.1 fun _ => mem_cons,
      forall_mem_cons.mpr ⟨known_by_now clean.1.2, known⟩⟩

theorem check_transfers_clean {twice unknown negative : String → Issue} {seen : List String} {triggers : List TransferDirective}
    (clean : checkTransfers twice unknown negative index created seen triggers = []) :
    Unseen (· ∈ seen) (triggers.map (·.objectId)) ∧
    (∀ object ∈ triggers.map (·.objectId), created.lookup object ≠ none) ∧
    ∀ trigger ∈ triggers, ∀ runtime, trigger.runtimeUs = some runtime → 0 ≤ runtime := by
  induction triggers generalizing seen with
  | nil => simp [Unseen]
  | cons trigger rest ih =>
    simp only [checkTransfers, append_eq_nil_iff, report_eq_nil] at clean
    obtain ⟨⟨⟨fresh, seenBefore⟩, nonneg⟩, later⟩ := clean
    obtain ⟨unseen, known, runtimes⟩ := ih later
    refine ⟨unseen.cons fresh fun _ => mem_cons,
      forall_mem_cons.mpr ⟨known_by_now seenBefore, known⟩, ?_⟩
    intro other mem runtime given
    rcases mem_cons.mp mem with head | tail
    · subst head
      rw [given] at nonneg
      have kept := (report_eq_nil _ (negative other.objectId)).mp nonneg
      exact not_lt.mp kept
    · exact runtimes other tail runtime given

theorem check_task_clean (clean : (checkTask task index ids created).1 = []) :
    TaskAdmitted task ∧ task.id ∉ ids ∧ (checkOutputs task index task.outputs created).1 = [] ∧
    ∀ object ∈ task.directiveObjects,
      (checkOutputs task index task.outputs created).2.lookup object ≠ none := by
  simp only [checkTask, checkDirectives, append_eq_nil_iff, report_eq_nil,
    flatMap_eq_nil_iff] at clean
  obtain ⟨⟨⟨⟨⟨⟨⟨⟨_, freshId⟩, runtime⟩, workspace⟩, _⟩, distinct⟩, mutates⟩, outputs⟩,
    ⟨⟨⟨releases, offloads⟩, prefetches⟩, releaseOffload⟩, releasePrefetch⟩ := clean
  obtain ⟨_, sized, _⟩ := check_outputs_clean outputs
  obtain ⟨releaseIds, releaseKnown⟩ := check_releases_clean releases
  obtain ⟨offloadIds, offloadKnown, offloadTimes⟩ := check_transfers_clean offloads
  obtain ⟨prefetchIds, prefetchKnown, prefetchTimes⟩ := check_transfers_clean prefetches
  have known : ∀ object ∈ task.directiveObjects,
      (checkOutputs task index task.outputs created).2.lookup object ≠ none := by
    intro object mem
    simp only [TaskSpec.directiveObjects, mem_append] at mem
    rcases mem with (released | offloaded) | prefetched
    · exact releaseKnown object released
    · exact offloadKnown object offloaded
    · exact prefetchKnown object prefetched
  refine ⟨?_, freshId, outputs, known⟩
  exact {
    runtime := not_lt.mp runtime
    workspace := not_lt.mp workspace
    inputsDistinct := not_not.mp distinct
    mutatesInputs := fun object mem => not_not.mp (mutates object mem)
    outputsPositive := sized
    releasesDistinct := releaseIds.1
    offloadsDistinct := offloadIds.1
    prefetchesDistinct := prefetchIds.1
    releaseNotOffload := fun object mem both => releaseOffload ⟨object, mem, both⟩
    releaseNotPrefetch := fun object mem both => releasePrefetch ⟨object, mem, both⟩
    offloadRuntime := offloadTimes
    prefetchRuntime := prefetchTimes }

theorem check_tasks_clean {tasks : List TaskSpec} (clean : (checkTasks tasks index ids created).1 = []) :
    Unseen (· ∈ ids) (tasks.map (·.id)) ∧ (outputIds tasks).Nodup ∧ (∀ output ∈ outputIds tasks, created.lookup output = none) ∧
    (∀ task ∈ tasks, TaskAdmitted task) ∧ tasks.Pairwise DirectsCreated := by
  induction tasks generalizing index ids created with
  | nil => simp [Unseen, outputIds]
  | cons task rest ih =>
    simp only [checkTasks, append_eq_nil_iff] at clean
    obtain ⟨admitted, freshId, outputsClean, known⟩ := check_task_clean clean.1
    obtain ⟨outputsNew, _, keys⟩ := check_outputs_clean outputsClean
    obtain ⟨unseen, laterDistinct, laterFresh, laterAdmitted, laterKnown⟩ := ih clean.2
    -- later outputs miss every key present after this task's outputs were recorded
    have laterNew : ∀ output ∈ outputIds rest,
        output ∉ task.outputs.map (·.id) ∧ created.lookup output = none :=
      fun output mem => (not_or.mp (mt (keys output).mpr
        (not_not.mpr (laterFresh output mem)))).imp_right not_not.mp
    refine ⟨unseen.cons freshId fun _ => mem_cons, ?_, ?_, ?_, ?_⟩
    · apply Nodup.append outputsNew.1 laterDistinct
      intro output here later
      exact (laterNew output later).1 here
    · intro output mem
      simp only [outputIds, flatMap_cons, mem_append] at mem
      rcases mem with here | later
      · exact not_not.mp (outputsNew.2 output here)
      · exact (laterNew output later).2
    · exact forall_mem_cons.mpr ⟨admitted, laterAdmitted⟩
    · refine pairwise_cons.mpr ⟨?_, laterKnown⟩
      intro later mem object directed made
      have produced : object ∈ outputIds rest := mem_flatMap.mpr ⟨later, mem, made⟩
      exact known object directed (laterFresh object produced)

theorem lookup_initial_none {name : String}
    (absent : (objects.map fun object => (object.id, (-1 : Int))).lookup name = none) :
    ∀ object ∈ objects, object.id ≠ name := by
  intro object mem same
  simpa [same] using lookup_eq_none_iff.mp absent (object.id, -1) (mem_map_of_mem mem)

theorem check_positive_clean {limit : Option Int}
    (clean : checkPositive field limit = []) : ∀ value, limit = some value → 0 < value := by
  intro value given
  subst given
  exact not_le.mp ((report_eq_nil _ _).mp clean)

theorem bandwidth_required {bandwidth : Option Int} {needed : Prop}
    [Decidable needed] {issue : Issue} (positive : checkPositive field bandwidth = [])
    (covered : report (bandwidth = none ∧ needed) issue = []) (wanted : needed) :
    ∃ value, bandwidth = some value ∧ 0 < value := by
  cases given : bandwidth with
  | none => exact absurd ⟨given, wanted⟩ ((report_eq_nil _ _).mp covered)
  | some value => exact ⟨value, rfl, check_positive_clean positive value given⟩

theorem validate_program_admitted {program : Program}
    (accepted : validateProgram program = []) : Admitted program := by
  simp only [validateProgram, append_eq_nil_iff] at accepted
  obtain ⟨⟨⟨⟨⟨⟨⟨⟨⟨⟨_, initial⟩, tasks⟩, _⟩, fast⟩, backing⟩, fromSlow⟩, toSlow⟩, fromNeeded⟩,
    toNeeded⟩, _⟩ := accepted
  obtain ⟨distinct, positive⟩ := check_initial_clean initial
  obtain ⟨taskIds, outputsDistinct, outputsNew, admitted, created⟩ := check_tasks_clean tasks
  have sizes := check_initial_sizes initial (by simp)
  exact {
    initialDistinct := distinct.1
    initialSizes := by simpa using sizes
    initialPositive := positive
    taskIds := taskIds.1
    outputsDistinct := outputsDistinct
    outputsFresh := fun output mem => lookup_initial_none (outputsNew output mem)
    tasks := admitted
    directsCreated := created
    fastCapacity := check_positive_clean fast
    backingCapacity := check_positive_clean backing
    fromSlowBandwidth := fun task mem trigger inTask unset =>
      bandwidth_required fromSlow fromNeeded ⟨task, mem, trigger, inTask, unset⟩
    toSlowBandwidth := fun task mem trigger inTask unset =>
      bandwidth_required toSlow toNeeded ⟨task, mem, trigger, inTask, unset⟩ }

end Dataflow
