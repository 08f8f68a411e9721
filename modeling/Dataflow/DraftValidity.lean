import Dataflow.ShapedProgram

/-!
When a draft passes validation. A draft is sound if every object is made once,
and every input is there before its task; a sound draft whose sizes are in order
passes `validate_program`. Leaving out objects and tasks keeps a draft sound as
long as nothing left out is still needed.
-/

namespace Dataflow.Lowering

open Dataflow List Function

/-! ### chains without directives -/

structure Bare (task : TaskSpec) : Prop where
  runtime : 0 ≤ task.runtimeUs
  workspace : 0 ≤ task.workspaceBytes
  groups : ∀ entry ∈ task.commGroups, entry.1 ≠ "" ∧ entry.2 ≠ ""
  distinct : task.inputs.Nodup
  mutates : ∀ object ∈ task.mutates, object ∈ task.inputs
  outputs : ∀ output ∈ task.outputs, checkObject output.id output.sizeBytes output.tensor = []
  releases : task.releasesAfter = []
  offloads : task.offloadAfter = []
  prefetches : task.prefetchAfter = []

/-- Every task finds its inputs and makes new objects. -/
def Linked : List String → List TaskSpec → Prop
  | _, [] => True
  | known, task :: rest =>
    (∀ input ∈ task.inputs, input ∈ known) ∧ (task.outputs.map (·.id)).Nodup ∧
    (∀ output ∈ task.outputs, output.id ∉ known) ∧
    Linked (task.outputs.map (·.id) ++ known) rest

/-- `created_at` holds exactly the known objects, all of them earlier. -/
structure Knows (created : CreatedAt) (index : Int) (known : List String) : Prop where
  earlier : ∀ object ∈ known, ∃ origin, created.lookup object = some origin ∧ origin < index
  others : ∀ object, object ∉ known → created.lookup object = none

variable {known ids : List String} {index : Int} {chain : List TaskName}

theorem check_outputs_bare (task : TaskSpec) (index : Int)
    (outputs : List OutputSpec) {created : CreatedAt}
    (clean : ∀ output ∈ outputs, checkObject output.id output.sizeBytes output.tensor = [])
    (unseen : Unseen (· ∈ known) (outputs.map (·.id)))
    (knows : Knows created (index + 1) known) : (checkOutputs task index outputs created).1 = [] ∧
      Knows (checkOutputs task index outputs created).2 (index + 1)
        (outputs.map (·.id) ++ known) := by
  induction outputs generalizing created known with
  | nil => exact ⟨rfl, knows⟩
  | cons output rest ih =>
    obtain ⟨fresh, others⟩ := (unseen_cons fun _ => mem_cons).mp unseen
    have unknown := knows.others output.id fresh
    have added : Knows ((output.id, index) :: created) (index + 1) (output.id :: known) := by
      constructor
      · intro object mem
        by_cases same : object = output.id
        · exact ⟨index, by rw [same, lookup_cons, beq_self_eq_true], by omega⟩
        obtain ⟨origin, found, earlier⟩ :=
          knows.earlier object ((mem_cons.mp mem).resolve_left same)
        refine ⟨origin, ?_, earlier⟩
        rw [lookup_cons, beq_false_of_ne same]
        exact found
      · intro object absent
        have other : object ≠ output.id := fun same => absent (same ▸ mem_cons_self)
        rw [lookup_cons, beq_false_of_ne other]
        exact knows.others object fun mem => absent (mem_cons_of_mem _ mem)
    have later := ih (forall_mem_cons.mp clean).2 others added
    simp only [checkOutputs, unknown]
    refine ⟨?_, ?_⟩
    · rw [clean output mem_cons_self, later.1]
      rfl
    refine ⟨fun object mem => later.2.earlier object ?_, fun object absent =>
      later.2.others object ?_⟩
    · simp only [map_cons, cons_append, mem_cons, mem_append] at mem ⊢
      tauto
    · simp only [map_cons, cons_append, mem_cons, mem_append] at absent ⊢
      tauto

theorem check_task_bare {task : TaskSpec}
    {created : CreatedAt} (bare : Bare task) (fresh : task.id ∉ ids)
    (inputs : ∀ input ∈ task.inputs, input ∈ known)
    (outputs : Unseen (· ∈ known) (task.outputs.map (·.id))) (knows : Knows created index known) :
    (checkTask task index ids created).1 = [] ∧
      Knows (checkTask task index ids created).2 (index + 1)
        (task.outputs.map (·.id) ++ known) := by
  have wider : Knows created (index + 1) known :=
    ⟨fun object mem => (knows.earlier object mem).imp fun _ found => ⟨found.1, by omega⟩,
      knows.others⟩
  obtain ⟨clean, later⟩ :=
    check_outputs_bare task index task.outputs bare.outputs outputs wider
  refine ⟨?_, later⟩
  have found : checkInputs task index created = [] := by
    refine flatMap_eq_nil_iff.mpr fun input mem => ?_
    obtain ⟨origin, looked, earlier⟩ := knows.earlier input (inputs input mem)
    simp [looked, earlier]
  have directives : checkDirectives task index (checkOutputs task index task.outputs created).2 = [] := by
    simp [checkDirectives, bare.releases, bare.offloads, bare.prefetches, checkReleases,
      checkTransfers]
  have groups : (task.commGroups.flatMap fun entry =>
      report (entry.1 = "" ∨ entry.2 = "") (.commGroupEntry task.id entry.1 entry.2)) = [] := by
    refine flatMap_eq_nil_iff.mpr fun entry mem => ?_
    rw [report_eq_nil, not_or]
    exact bare.groups entry mem
  have mutates : (task.mutates.flatMap fun object =>
      report (object ∉ task.inputs) (.mutatesNonInput task.id object)) = [] := by
    refine flatMap_eq_nil_iff.mpr fun object mem => ?_
    rw [report_eq_nil, not_not]
    exact bare.mutates object mem
  simp only [checkTask, found, directives, groups, mutates, clean, append_nil, nil_append,
    append_eq_nil_iff, report_eq_nil, not_lt, not_not]
  exact ⟨⟨⟨fresh, bare.runtime⟩, bare.workspace⟩, bare.distinct⟩

theorem check_tasks_bare {tasks : List TaskSpec}
    {created : CreatedAt} (bare : ∀ task ∈ tasks, Bare task)
    (unseen : Unseen (· ∈ ids) (tasks.map (·.id)))
    (linked : Linked known tasks) (knows : Knows created index known) :
    (checkTasks tasks index ids created).1 = [] ∧ ∀ object ∈ known ++ outputIds tasks,
        ((checkTasks tasks index ids created).2.lookup object).isSome = true := by
  induction tasks generalizing index ids known created with
  | nil =>
    refine ⟨rfl, fun object mem => ?_⟩
    obtain ⟨origin, found, -⟩ := knows.earlier object (by simpa [outputIds] using mem)
    simp [checkTasks, found]
  | cons task rest ih =>
    obtain ⟨inputs, distinct, outputs, linked⟩ := linked
    obtain ⟨fresh, others⟩ := (unseen_cons fun _ => mem_cons).mp unseen
    have head := check_task_bare (bare task mem_cons_self) fresh inputs
      ⟨distinct, forall_mem_map.mpr outputs⟩ knows
    have tail := ih (forall_mem_cons.mp bare).2 others linked head.2
    refine ⟨?_, fun object mem => tail.2 object ?_⟩
    · simp only [checkTasks]
      rw [head.1, tail.1]
      rfl
    · simp only [outputIds, flatMap_cons, mem_append] at mem ⊢
      tauto

theorem check_initial_bare {seen objects : List ObjectSpec}
    (clean : ∀ object ∈ objects, checkObject object.id object.sizeBytes object.tensor = [])
    (unseen : Unseen (· ∈ seen.map (·.id)) (objects.map (·.id))) :
    checkInitial seen objects = [] := by
  induction objects generalizing seen with
  | nil => rfl
  | cons object rest ih =>
    obtain ⟨fresh, others⟩ := (unseen_cons fun _ => mem_cons).mp unseen
    have absent : ∀ earlier ∈ seen, earlier.id ≠ object.id :=
      fun earlier before same => fresh (mem_map.mpr ⟨earlier, before, same⟩)
    have missing : (seen.find? fun earlier => earlier.id = object.id) = none :=
      find?_eq_none.mpr fun earlier before => by simpa using absent earlier before
    simp only [checkInitial, missing, append_nil, append_eq_nil_iff, report_eq_nil]
    refine ⟨⟨?_, clean object mem_cons_self⟩, ih (forall_mem_cons.mp clean).2 others⟩
    rintro ⟨earlier, before, same, -⟩
    exact absent earlier before same

theorem check_rewrite_spec {place : Nat × Nat × Nat}
    (known : (rewriteSpec place).fTaskId ∈ ids) : checkRewrite ids (rewriteSpec place) = [] := by
  have forward : (TaskName.blockFwd place.1 place.2.1 place.2.2).id ∈ ids := known
  simp [checkRewrite, rewriteSpec, forward]

/-! ### sound drafts -/

def DraftObject.Fits (object : DraftObject) : Prop :=
  checkObject object.name.id object.sizeBytes object.tensor = []

def DraftTask.created (task : DraftTask) : List ObjectName := task.outputs.map DraftObject.name

def createdBy (tasks : List DraftTask) : List ObjectName := tasks.flatMap DraftTask.created

def Draft.initialNames (draft : Draft) : List ObjectName :=
  draft.initialObjects.map DraftObject.name

/-- What one task needs besides its inputs. -/
structure DraftTask.Regular (task : DraftTask) : Prop where
  runtime : 0 ≤ task.runtimeUs
  groups : ∀ entry ∈ task.commGroups, entry.1 ≠ "" ∧ entry.2 ≠ ""
  distinct : task.inputs.Nodup
  mutates : ∀ name ∈ task.mutates, name ∈ task.inputs

/-- Every input is there from the start or made by an earlier task. -/
def Supplied (known : List ObjectName) : List DraftTask → Prop
  | [] => True
  | task :: rest =>
    (∀ name ∈ task.inputs, name ∈ known) ∧ Supplied (task.created ++ known) rest

structure Draft.Sound (draft : Draft) : Prop where
  named : draft.name ≠ ""
  distinct : (draft.tasks.map DraftTask.name).Nodup
  fresh : (draft.initialNames ++ createdBy draft.tasks).Nodup
  regular : ∀ task ∈ draft.tasks, task.Regular
  supplied : Supplied draft.initialNames draft.tasks
  finals : ∀ entry ∈ draft.finalLocations, entry.1 ∈ draft.initialNames ++ createdBy draft.tasks
  capacity : ∀ bytes, draft.fastMemoryCapacity = some bytes → 0 < bytes
  bandwidth : 0 < draft.bandwidth
  rewrites : ∀ place ∈ draft.rewrites,
    TaskName.blockFwd place.1 place.2.1 place.2.2 ∈ draft.tasks.map DraftTask.name

/-- Sizes are positive and agree with the tensors. -/
structure Draft.Sized (draft : Draft) : Prop where
  initial : ∀ object ∈ draft.initialObjects, object.Fits
  outputs : ∀ task ∈ draft.tasks, ∀ object ∈ task.outputs, object.Fits

theorem mem_map_id {name : ObjectName} {names : List ObjectName} :
    name.id ∈ names.map ObjectName.id ↔ name ∈ names := by
  refine ⟨fun mem => ?_, mem_map_of_mem⟩
  obtain ⟨other, inNames, same⟩ := mem_map.mp mem
  exact ObjectName.id_injective same ▸ inNames

theorem DraftTask.spec_outputs (task : DraftTask) :
    task.spec.outputs.map (·.id) = task.created.map ObjectName.id := by
  simp [DraftTask.spec, DraftTask.created, DraftObject.outputSpec, comp_def]

theorem output_ids_spec (tasks : List DraftTask) :
    outputIds (tasks.map DraftTask.spec) = (createdBy tasks).map ObjectName.id := by
  induction tasks with
  | nil => rfl
  | cons task rest ih =>
    rw [map_cons, createdBy, flatMap_cons, map_append, ← task.spec_outputs]
    rw [createdBy] at ih
    rw [← ih]
    rfl

variable {task : DraftTask}

theorem DraftTask.Regular.bare (regular : task.Regular)
    (fits : ∀ object ∈ task.outputs, object.Fits) : Bare task.spec where
  runtime := regular.runtime
  workspace := le_refl _
  groups := regular.groups
  distinct := regular.distinct.map ObjectName.id_injective
  mutates := by
    intro object mem
    obtain ⟨name, inMutates, rfl⟩ := mem_map.mp mem
    exact mem_map_of_mem (regular.mutates name inMutates)
  outputs := by
    intro output mem
    obtain ⟨object, inOutputs, rfl⟩ := mem_map.mp mem
    exact fits object inOutputs
  releases := rfl
  offloads := rfl
  prefetches := rfl

variable {tasks : List DraftTask} {known : List ObjectName}

theorem Supplied.linked
    (supplied : Supplied known tasks) (fresh : (known ++ createdBy tasks).Nodup) :
    Linked (known.map ObjectName.id) (tasks.map DraftTask.spec) := by
  induction tasks generalizing known with
  | nil => trivial
  | cons task rest ih =>
    rw [createdBy, flatMap_cons, ← createdBy, ← append_assoc] at fresh
    have heads := (nodup_append'.mp fresh).1
    obtain ⟨-, own, apart⟩ := nodup_append'.mp heads
    have swapped := (perm_append_comm.append_right _).nodup_iff.mp fresh
    have later := ih supplied.2 swapped
    rw [map_append, ← task.spec_outputs] at later
    refine ⟨?_, ?_, ?_, later⟩
    · intro input mem
      obtain ⟨name, inInputs, rfl⟩ := mem_map.mp mem
      exact mem_map_of_mem (supplied.1 name inInputs)
    · rw [task.spec_outputs]
      exact own.map ObjectName.id_injective
    · intro output mem known_
      obtain ⟨object, inOutputs, rfl⟩ := mem_map.mp mem
      exact apart (mem_map_id.mp known_) (mem_map_of_mem inOutputs)

theorem lookup_initial (ids : List String) (object : String) :
    (ids.map fun id => (id, (-1 : Int))).lookup object =
      if object ∈ ids then some (-1) else none := by
  induction ids with
  | nil => rfl
  | cons id rest ih =>
    rw [map_cons, lookup_cons, ih]
    by_cases same : object = id
    · simp [same]
    · simp [same, beq_false_of_ne same]

theorem Draft.Sound.valid {draft : Draft} (sound : draft.Sound) (sized : draft.Sized) :
    validateProgram draft.program = [] := by
  have initialIds : draft.program.initialObjects.map (·.id) =
      draft.initialNames.map ObjectName.id := by
    simp [Draft.program, Draft.initialNames, DraftObject.initialSpec, comp_def]
  have taskIds : draft.program.tasks.map (·.id) =
      (draft.tasks.map DraftTask.name).map TaskName.id := by
    simp [Draft.program, DraftTask.spec, comp_def]
  have created : (draft.program.initialObjects.map fun object => (object.id, (-1 : Int))) =
      (draft.initialNames.map ObjectName.id).map fun id => (id, -1) := by
    rw [← initialIds, map_map]
    rfl
  have knows : Knows (draft.program.initialObjects.map fun object => (object.id, (-1 : Int))) 0
      (draft.initialNames.map ObjectName.id) := by
    rw [created]
    constructor
    · intro object mem
      exact ⟨-1, by rw [lookup_initial, if_pos mem], by decide⟩
    · intro object absent
      rw [lookup_initial, if_neg absent]
  have bare : ∀ task ∈ draft.program.tasks, Bare task := by
    intro task mem
    obtain ⟨other, inTasks, rfl⟩ := mem_map.mp mem
    exact (sound.regular other inTasks).bare (sized.outputs other inTasks)
  have ids := taskIds ▸ sound.distinct.map TaskName.id_injective
  have tasks := check_tasks_bare bare ⟨ids, fun _ _ => not_mem_nil⟩
    (sound.supplied.linked sound.fresh) knows
  have initial : checkInitial [] draft.program.initialObjects = [] := by
    refine check_initial_bare (fun object mem => ?_) ⟨?_, fun _ _ => not_mem_nil⟩
    · obtain ⟨other, inInitial, rfl⟩ := mem_map.mp mem
      exact sized.initial other inInitial
    · rw [initialIds]
      exact (nodup_append'.mp sound.fresh).1.map ObjectName.id_injective
  have finals : (draft.program.finalLocations.flatMap fun entry =>
      report (((checkTasks draft.program.tasks 0 [] (draft.program.initialObjects.map fun object =>
        (object.id, -1))).2.lookup entry.1).isNone) (.finalUnknown entry.1)) = [] := by
    refine flatMap_eq_nil_iff.mpr fun entry mem => ?_
    obtain ⟨other, inFinals, rfl⟩ := mem_map.mp mem
    have known : other.1.id ∈ draft.initialNames.map ObjectName.id ++
        outputIds draft.program.tasks := by
      rw [Draft.program, output_ids_spec, ← map_append]
      exact mem_map_of_mem (sound.finals other inFinals)
    rw [report_eq_nil, Option.isNone_iff_eq_none, ← ne_eq, Option.ne_none_iff_isSome]
    exact tasks.2 other.1.id known
  have rewrites : draft.program.recomputeRewrites.flatMap
      (checkRewrite (draft.program.tasks.map (·.id))) = [] := by
    refine flatMap_eq_nil_iff.mpr fun rewrite mem => ?_
    obtain ⟨place, inRewrites, rfl⟩ := mem_map.mp mem
    refine check_rewrite_spec ?_
    rw [taskIds]
    exact mem_map_of_mem (sound.rewrites place inRewrites)
  have capacity : checkPositive "fast_memory_capacity" draft.program.fastMemoryCapacity = [] := by
    cases bytes : draft.fastMemoryCapacity with
    | none => simp [Draft.program, bytes, checkPositive]
    | some limit => simp [Draft.program, bytes, checkPositive, sound.capacity limit bytes]
  have bandwidth (field : String) : checkPositive field (some draft.bandwidth) = [] := by
    simp [checkPositive, sound.bandwidth]
  simp only [validateProgram, initial, tasks.1, finals, rewrites, capacity, append_nil,
    append_eq_nil_iff, report_eq_nil]
  exact ⟨⟨⟨⟨⟨sound.named, rfl⟩, bandwidth _⟩, bandwidth _⟩, fun absent => by cases absent.1⟩,
    fun absent => by cases absent.1⟩

theorem supplied_of_earlier {Before : TaskName → TaskName → Prop} (asymm : ∀ {left right},
      Before left right → ¬ Before right left) {task : TaskName → DraftTask}
    (ordered : chain.Pairwise Before)
    (made : ∀ name ∈ chain, ∀ input ∈ (task name).inputs, input ∈ known ∨
      ∃ other ∈ chain, Before other name ∧ input ∈ (task other).created) :
    Supplied known (chain.map task) := by
  induction chain generalizing known with
  | nil => trivial
  | cons head rest ih =>
    rw [pairwise_cons] at ordered
    refine ⟨fun input mem => ?_, ih ordered.2 fun name inRest input mem => ?_⟩
    · rcases made head mem_cons_self input mem with before | ⟨other, inChain, first, -⟩
      · exact before
      · rcases mem_cons.mp inChain with same | later
        · subst same
          exact absurd first (asymm first)
        · exact absurd first (asymm (ordered.1 other later))
    rcases made name (mem_cons_of_mem _ inRest) input mem with
      before | ⟨other, inChain, first, creates⟩
    · exact .inl (mem_append_right _ before)
    · rcases mem_cons.mp inChain with same | later
      · subst same
        exact .inl (mem_append_left _ creates)
      · exact .inr ⟨other, later, first, creates⟩

theorem nodup_created {creator : ObjectName → Option TaskName} {task : TaskName → DraftTask}
    (distinct : chain.Nodup)
    (own : ∀ name ∈ chain, (task name).created.Nodup)
    (creates : ∀ name ∈ chain, ∀ object ∈ (task name).created, creator object = some name) :
    (createdBy (chain.map task)).Nodup := by
  rw [createdBy, flatMap_map, nodup_flatMap]
  refine ⟨own, distinct.imp_of_mem fun {left right} inLeft inRight apart => ?_⟩
  intro object leftMember rightMember
  have same := (creates left inLeft object leftMember).symm.trans
    (creates right inRight object rightMember)
  exact apart (Option.some.inj same)

/-! ### sizes -/

def Draft.resize (fix : DraftObject → DraftObject) (draft : Draft) : Draft :=
  { draft with
    initialObjects := draft.initialObjects.map fix
    tasks := draft.tasks.map fun task => { task with outputs := task.outputs.map fix } }

section Resize

variable {fix : DraftObject → DraftObject} (names : ∀ object, (fix object).name = object.name)

include names

theorem created_resize (task : DraftTask) :
    ({ task with outputs := task.outputs.map fix } : DraftTask).created = task.created := by
  simp [DraftTask.created, comp_def, names]

theorem createdBy_resize (draft : Draft) :
    createdBy (draft.resize fix).tasks = createdBy draft.tasks := by
  simp [createdBy, Draft.resize, flatMap_map, created_resize names]

theorem initialNames_resize (draft : Draft) :
    (draft.resize fix).initialNames = draft.initialNames := by
  simp [Draft.resize, Draft.initialNames, comp_def, names]

theorem Supplied.resize (supplied : Supplied known tasks) :
    Supplied known (tasks.map fun task => { task with outputs := task.outputs.map fix }) := by
  induction tasks generalizing known with
  | nil => trivial
  | cons task rest ih =>
    refine ⟨supplied.1, ?_⟩
    rw [created_resize names]
    exact ih supplied.2

theorem Draft.Sound.resize {draft : Draft} (sound : draft.Sound) : (draft.resize fix).Sound := by
  have taskNames : (draft.resize fix).tasks.map DraftTask.name = draft.tasks.map DraftTask.name := by
    simp [Draft.resize, comp_def]
  have objects : (draft.resize fix).initialNames ++ createdBy (draft.resize fix).tasks =
      draft.initialNames ++ createdBy draft.tasks := by
    rw [initialNames_resize names, createdBy_resize names]
  refine
    { named := sound.named
      distinct := taskNames ▸ sound.distinct
      fresh := objects ▸ sound.fresh
      regular := ?_
      supplied := ?_
      finals := objects ▸ sound.finals
      capacity := sound.capacity
      bandwidth := sound.bandwidth
      rewrites := taskNames ▸ sound.rewrites }
  · intro task mem
    obtain ⟨other, inTasks, rfl⟩ := mem_map.mp mem
    have regular := sound.regular other inTasks
    exact { regular with }
  · rw [initialNames_resize names]
    exact sound.supplied.resize names

end Resize

/-! ### leaving objects and tasks out -/

def pruned (drop : DraftTask → Bool) (dead : ObjectName → Bool) (tasks : List DraftTask) :
    List DraftTask :=
  (tasks.filter fun task => !drop task).map (DraftTask.scrub dead)

/-- The draft without some tasks and without some objects. -/
def Draft.prune (drop : DraftTask → Bool) (dead : ObjectName → Bool)
    (keep : Nat × Nat × Nat → Bool) (draft : Draft) : Draft :=
  { draft with
    initialObjects := draft.initialObjects.filter fun object => !dead object.name
    tasks := pruned drop dead draft.tasks
    finalLocations := draft.finalLocations.filter fun entry => !dead entry.1
    rewrites := draft.rewrites.filter keep }

theorem scrub_created (dead : ObjectName → Bool) (task : DraftTask) :
    (task.scrub dead).created = task.created.filter fun name => !dead name := by
  simp [DraftTask.scrub, DraftTask.created, filter_map, comp_def]

theorem DraftTask.Regular.scrub (regular : task.Regular)
    (dead : ObjectName → Bool) : (task.scrub dead).Regular where
  runtime := regular.runtime
  groups := regular.groups
  distinct := regular.distinct.filter _
  mutates := by
    intro name mem
    obtain ⟨mutated, kept⟩ := mem_filter.mp mem
    exact mem_filter.mpr ⟨regular.mutates name mutated, kept⟩

section Prune

variable {drop : DraftTask → Bool} {dead : ObjectName → Bool} (Wanted : ObjectName → Prop)

theorem pruned_cons_drop {rest : List DraftTask} (gone : drop task = true) :
    pruned drop dead (task :: rest) = pruned drop dead rest := by
  simp [pruned, gone]

theorem pruned_cons_keep {rest : List DraftTask} (kept : drop task = false) :
    pruned drop dead (task :: rest) = task.scrub dead :: pruned drop dead rest := by
  simp [pruned, kept]

theorem mem_pruned : task ∈ pruned drop dead tasks ↔
      ∃ other ∈ tasks, drop other = false ∧ other.scrub dead = task := by
  simp [pruned, and_assoc]

theorem created_pruned_sublist (tasks : List DraftTask) :
    (createdBy (pruned drop dead tasks)).Sublist (createdBy tasks) := by
  induction tasks with
  | nil => exact Sublist.refl _
  | cons task rest ih =>
    cases gone : drop task with
    | true =>
      rw [pruned_cons_drop gone]
      exact ih.trans (sublist_append_right _ _)
    | false =>
      rw [pruned_cons_keep gone]
      have head : (task.scrub dead).created.Sublist task.created := by
        rw [scrub_created]
        exact filter_sublist
      exact head.append ih

theorem mem_created_pruned {name : ObjectName}
    (unneeded : ∀ task ∈ tasks, drop task = true → ∀ name ∈ task.created,
      dead name = true ∨ ¬ Wanted name)
    (made : name ∈ createdBy tasks) (live : dead name = false) (wanted : Wanted name) :
    name ∈ createdBy (pruned drop dead tasks) := by
  obtain ⟨task, mem, creates⟩ := mem_flatMap.mp made
  have kept : drop task = false := by
    by_contra gone
    rcases unneeded task mem (by simpa using gone) name creates with left | unwanted
    · exact absurd left (by simp [live])
    · exact unwanted wanted
  refine mem_flatMap.mpr ⟨task.scrub dead, mem_pruned.mpr ⟨task, mem, kept, rfl⟩, ?_⟩
  rw [scrub_created]
  exact mem_filter.mpr ⟨creates, by simp [live]⟩

theorem Supplied.prune {known left : List ObjectName} (supplied : Supplied known tasks)
    (unneeded : ∀ task ∈ tasks, drop task = true → ∀ name ∈ task.created,
      dead name = true ∨ ¬ Wanted name)
    (wanted : ∀ task ∈ tasks, drop task = false → ∀ name ∈ task.inputs, Wanted name)
    (covers : ∀ name ∈ known, dead name = false → Wanted name → name ∈ left) :
    Supplied left (pruned drop dead tasks) := by
  induction tasks generalizing known left with
  | nil => trivial
  | cons task rest ih =>
    have unneededRest := fun other mem =>
      unneeded other (mem_cons_of_mem task mem)
    have wantedRest := (forall_mem_cons.mp wanted).2
    cases gone : drop task with
    | true =>
      rw [pruned_cons_drop gone]
      refine ih supplied.2 unneededRest wantedRest fun name mem live needed => ?_
      rcases mem_append.mp mem with made | before
      · rcases unneeded task mem_cons_self gone name made with out | unwanted
        · exact absurd out (by simp [live])
        · exact absurd needed unwanted
      · exact covers name before live needed
    | false =>
      rw [pruned_cons_keep gone]
      refine ⟨fun name mem => ?_, ih supplied.2 unneededRest wantedRest
        fun name mem live needed => ?_⟩
      · obtain ⟨input, live⟩ := mem_filter.mp mem
        exact covers name (supplied.1 name input) (by simpa using live)
          (wanted task mem_cons_self gone name input)
      · rw [scrub_created]
        rcases mem_append.mp mem with made | before
        · exact mem_append_left _ (mem_filter.mpr ⟨made, by simp [live]⟩)
        · exact mem_append_right _ (covers name before live needed)

theorem Draft.Sound.prune {draft : Draft} {keep : Nat × Nat × Nat → Bool} (sound : draft.Sound)
    (unneeded : ∀ task ∈ draft.tasks, drop task = true → ∀ name ∈ task.created,
      dead name = true ∨ ¬ Wanted name)
    (wanted : ∀ task ∈ draft.tasks, drop task = false → ∀ name ∈ task.inputs, Wanted name)
    (finals : ∀ entry ∈ draft.finalLocations, Wanted entry.1)
    (forwards : ∀ place ∈ draft.rewrites, keep place = true → ∀ task ∈ draft.tasks,
      task.name = .blockFwd place.1 place.2.1 place.2.2 → drop task = false) :
    (draft.prune drop dead keep).Sound := by
  have initialNames : (draft.prune drop dead keep).initialNames =
      draft.initialNames.filter fun name => !dead name := by
    simp [Draft.prune, Draft.initialNames, filter_map, comp_def]
  have names : ((pruned drop dead draft.tasks).map DraftTask.name).Sublist
      (draft.tasks.map DraftTask.name) := by
    rw [pruned, map_map]
    exact filter_sublist.map DraftTask.name
  refine
    { named := sound.named
      distinct := sound.distinct.sublist names
      fresh := ?_
      regular := ?_
      supplied := ?_
      finals := ?_
      capacity := sound.capacity
      bandwidth := sound.bandwidth
      rewrites := ?_ }
  · rw [initialNames]
    exact sound.fresh.sublist (filter_sublist.append (created_pruned_sublist draft.tasks))
  · intro task mem
    obtain ⟨other, inTasks, -, rfl⟩ := mem_pruned.mp mem
    exact (sound.regular other inTasks).scrub dead
  · refine sound.supplied.prune Wanted unneeded wanted fun name mem live _ => ?_
    rw [initialNames]
    exact mem_filter.mpr ⟨mem, by simp [live]⟩
  · intro entry mem
    obtain ⟨inFinals, kept⟩ := mem_filter.mp mem
    have live : dead entry.1 = false := by simpa using kept
    rw [initialNames]
    rcases mem_append.mp (sound.finals entry inFinals) with initial | made
    · exact mem_append_left _ (mem_filter.mpr ⟨initial, kept⟩)
    · exact mem_append_right _
        (mem_created_pruned Wanted unneeded made live (finals entry inFinals))
  · intro place mem
    obtain ⟨inRewrites, kept⟩ := mem_filter.mp mem
    obtain ⟨task, inTasks, named⟩ := mem_map.mp (sound.rewrites place inRewrites)
    have stays := forwards place inRewrites kept task inTasks named
    exact mem_map.mpr ⟨task.scrub dead, mem_pruned.mpr ⟨task, inTasks, stays, rfl⟩, named⟩

end Prune

end Dataflow.Lowering
