import Dataflow.StaticExtent

/-!
The converters of `core/convert.py`: a program as a chain of the simulator, and a chain that a
planner has annotated joined back onto its program. The type of an object, which the model of
the chain leaves out, stands beside it here.
-/

namespace Dataflow.PlanConversion

open List StatefulOutcome StaticExtent
open Sim (Object Task TaskChain TransferTrigger)

inductive ObjectType where
  | weight
  | gradient
  | optimizer
  | activation
  | other
  deriving DecidableEq

def roleToSimType : Role → ObjectType
  | .parameter => .weight
  | .gradient => .gradient
  | .optimizerState => .optimizer
  | .activation | .input | .output => .activation
  | .temp | .other => .other

/-- A chain with the types of its initial objects and of the outputs of its tasks. -/
structure TypedChain where
  initialMemory : List (Object × ObjectType)
  tasks : List (Task × List ObjectType)
  finalLocations : List (String × Location)
  fastMemoryCapacity : Option Int
  backingMemoryCapacity : Option Int
  bandwidthFromSlow : Option Int
  bandwidthToSlow : Option Int
  deriving DecidableEq

def TypedChain.untyped (chain : TypedChain) : TaskChain :=
  { chain with
    initialMemory := chain.initialMemory.map Prod.fst
    tasks := chain.tasks.map Prod.fst }

def simObject (object : ObjectSpec) : Object × ObjectType :=
  (⟨object.id, object.sizeBytes, object.location⟩, roleToSimType object.role)

def simTask (task : TaskSpec) : Task × List ObjectType :=
  ({ id := task.id
     inputs := task.inputs
     outputs := task.outputs.map fun output => ⟨output.id, output.sizeBytes, output.location⟩
     runtime := task.runtimeUs
     workspaceBytes := task.workspaceBytes
     releasesAfter := task.releasesAfter
     offloadAfter := task.offloadAfter.map fun directive => ⟨directive.objectId, directive.runtimeUs⟩
     prefetchAfter := task.prefetchAfter.map fun directive => ⟨directive.objectId, directive.runtimeUs⟩
     mutatesInputs := task.mutates },
   task.outputs.map fun output => roleToSimType output.role)

def toSimChain (program : Program) : TypedChain :=
  { program with
    initialMemory := program.initialObjects.map simObject
    tasks := program.tasks.map simTask }

/-- The fast copies that a planner may add. -/
def fastCopies (program : Program) : List ObjectSpec :=
  (program.initialObjects.filter (·.location = .backing)).map ({ · with location := .fast })

def undirected (task : Task × List ObjectType) : Task × List ObjectType :=
  ({ task.1 with releasesAfter := [], offloadAfter := [], prefetchAfter := [] }, task.2)

/-- The chain is that of the program with directives and with these initial entries, its
capacities and bandwidths apart. -/
structure Annotates (program : Program) (added : List (Object × ObjectType)) (chain : TypedChain) :
    Prop where
  tasks : chain.tasks.map undirected = (toSimChain program).tasks
  initialMemory : chain.initialMemory.Perm ((toSimChain program).initialMemory ++ added)
  copies : ∀ entry ∈ added, entry ∈ (fastCopies program).map simObject
  finalLocations : chain.finalLocations = program.finalLocations

section

variable {program : Program} (distinct : (program.initialObjects.map (·.id)).Nodup)

theorem mem_fast_copies {copy : ObjectSpec} : copy ∈ fastCopies program ↔
    ∃ object ∈ program.initialObjects, object.location = .backing ∧
      { object with location := .fast } = copy := by
  simp [fastCopies, and_assoc]

include distinct

theorem copy_unknown {copy : ObjectSpec} (mem : copy ∈ fastCopies program) :
    ∀ object ∈ program.initialObjects, ¬(object.id = copy.id ∧ object.location = copy.location) := by
  obtain ⟨source, there, backing, rfl⟩ := mem_fast_copies.mp mem
  rintro object listed ⟨id, location⟩
  obtain rfl := inj_on_of_nodup_map distinct listed there id
  rw [backing] at location
  cases location

theorem copy_unique {copy other : ObjectSpec} (mem : copy ∈ fastCopies program)
    (listed : other ∈ fastCopies program) (same : other.id = copy.id) : other = copy := by
  obtain ⟨source, there, _, rfl⟩ := mem_fast_copies.mp mem
  obtain ⟨origin, known, _, rfl⟩ := mem_fast_copies.mp listed
  rw [inj_on_of_nodup_map distinct known there same]

theorem add_copy {copy : ObjectSpec} {initial : List ObjectSpec} (mem : copy ∈ fastCopies program)
    (new : ∀ object ∈ initial, ¬(object.id = copy.id ∧ object.location = copy.location)) :
    addInitial program initial (simObject copy).1 = .ok (initial ++ [copy]) := by
  obtain ⟨source, there, _, rfl⟩ := mem_fast_copies.mp mem
  have absent : (initial.any fun object =>
      object.id = source.id ∧ object.location = .fast) = false := by simpa using new
  have found : program.initialObjects.reverse.find? (·.id = source.id) = some source := by
    cases found : program.initialObjects.reverse.find? (·.id = source.id) with
    | none => simpa using find?_eq_none.mp found source (mem_reverse.mpr there)
    | some object =>
      have listed := mem_reverse.mp (mem_of_find?_eq_some found)
      rw [inj_on_of_nodup_map distinct listed there (by simpa using find?_some found)]
  unfold addInitial
  split
  · next known => exact absurd known (Bool.eq_false_iff.mp absent)
  split
  · next missing => cases missing.symm.trans found
  · next origin located =>
    cases located.symm.trans found
    rfl

/-- The entries of the program are passed over, and every other one is appended. -/
theorem add_copies {memory : List (Object × ObjectType)} {done : List ObjectSpec}
    (copied : ∀ copy ∈ done, copy ∈ fastCopies program)
    (entries : ∀ entry ∈ memory, entry ∈ (toSimChain program).initialMemory ∨
      entry ∈ (fastCopies program).map simObject)
    (once : (done.map simObject ++
      memory.filter (· ∉ (toSimChain program).initialMemory)).Nodup) :
    ∃ added, (∀ copy ∈ added, copy ∈ fastCopies program) ∧
      added.map simObject = memory.filter (· ∉ (toSimChain program).initialMemory) ∧
      (memory.map Prod.fst).foldlM (addInitial program) (program.initialObjects ++ done) =
        .ok (program.initialObjects ++ (done ++ added)) := by
  induction memory generalizing done with
  | nil => exact ⟨[], by simp, rfl, by simp [pure, Except.pure]⟩
  | cons entry memory ih =>
    have later := (forall_mem_cons.mp entries).2
    rw [map_cons, foldlM_cons]
    by_cases known : entry ∈ (toSimChain program).initialMemory
    · have skipped : addInitial program (program.initialObjects ++ done) entry.1 =
          .ok (program.initialObjects ++ done) := by
        obtain ⟨object, listed, rfl⟩ := mem_map.mp known
        refine if_pos (any_eq_true.mpr ⟨object, mem_append_left _ listed, ?_⟩)
        simp [simObject]
      rw [filter_cons_of_neg (by simpa using known)] at once ⊢
      rw [skipped]
      exact ih copied later once
    · obtain ⟨copy, mem, rfl⟩ := mem_map.mp ((entries entry mem_cons_self).resolve_left known)
      rw [filter_cons_of_pos (by simpa using known)] at once ⊢
      have new : ∀ object ∈ program.initialObjects ++ done,
          ¬(object.id = copy.id ∧ object.location = copy.location) := by
        refine forall_mem_append.mpr ⟨copy_unknown distinct mem, fun other listed same => ?_⟩
        obtain rfl := copy_unique distinct mem (copied other listed) same.1
        exact (nodup_append'.mp once).2.2 (mem_map_of_mem listed) mem_cons_self
      have more : ∀ other ∈ done ++ [copy], other ∈ fastCopies program :=
        forall_mem_append.mpr ⟨copied, by simpa using mem⟩
      obtain ⟨added, fine, same, ran⟩ := ih more later (by simpa using once)
      refine ⟨copy :: added, forall_mem_cons.mpr ⟨mem, fine⟩, congrArg _ same, ?_⟩
      rw [add_copy distinct mem new]
      simp only [append_assoc, singleton_append] at ran ⊢
      exact ran

end

theorem directed_tasks {specs : List TaskSpec} {tasks : List (Task × List ObjectType)}
    (same : tasks.map undirected = specs.map simTask) :
    (zipWith TaskSpec.withDirectives specs (tasks.map Prod.fst)).map simTask = tasks := by
  induction specs generalizing tasks with
  | nil => exact (map_eq_nil_iff.mp same).symm ▸ rfl
  | cons spec specs ih =>
    cases tasks with
    | nil => cases same
    | cons task tasks =>
      obtain ⟨first, rest⟩ := cons.inj same
      rw [map_cons, zipWith_cons_cons, map_cons, ih rest]
      congr 1
      have directives (triggers : List TransferTrigger) : (triggers.map fun trigger =>
          (⟨trigger.objId, trigger.runtime⟩ : TransferDirective)).map
            (fun directive => (⟨directive.objectId, directive.runtimeUs⟩ : TransferTrigger)) =
          triggers := by
        simp [Function.comp_def]
      obtain ⟨task, types⟩ := task
      cases task
      simp_all [undirected, simTask, TaskSpec.withDirectives]

/-- A plan is joined onto its program without loss, and stripped from it again. -/
theorem plan_conversion_keeps_all (program : Program) (bare : ∀ task ∈ program.tasks, TaskSpec.bare task = task)
    (distinct : (program.initialObjects.map (·.id)).Nodup) (added : List (Object × ObjectType))
    (once : added.Nodup) (chain : TypedChain) (annotates : Annotates program added chain) :
    ∃ annotated, applyChainAnnotations program chain.untyped = .ok annotated ∧
      (toSimChain annotated).initialMemory.Perm chain.initialMemory ∧
      toSimChain annotated = { chain with initialMemory := (toSimChain annotated).initialMemory } ∧
      stripPlanAnnotations annotated = { program with
        fastMemoryCapacity := chain.fastMemoryCapacity
        backingMemoryCapacity := chain.backingMemoryCapacity
        bandwidthFromSlow := chain.bandwidthFromSlow
        bandwidthToSlow := chain.bandwidthToSlow } := by
  have new : (chain.initialMemory.filter (· ∉ (toSimChain program).initialMemory)).Perm added := by
    have kept := annotates.initialMemory.filter (· ∉ (toSimChain program).initialMemory)
    have old : (toSimChain program).initialMemory.filter
        (· ∉ (toSimChain program).initialMemory) = [] := by simp
    rw [filter_append, old, nil_append] at kept
    refine kept.trans (.of_eq (filter_eq_self.mpr fun entry mem => ?_))
    obtain ⟨copy, listed, rfl⟩ := mem_map.mp (annotates.copies entry mem)
    simp only [decide_eq_true_eq]
    intro known
    obtain ⟨object, there, same⟩ := mem_map.mp known
    simp only [simObject, Prod.mk.injEq, Object.mk.injEq] at same
    exact copy_unknown distinct listed object there ⟨same.1.1, same.1.2.2⟩
  have entries : ∀ entry ∈ chain.initialMemory, entry ∈ (toSimChain program).initialMemory ∨
      entry ∈ (fastCopies program).map simObject := fun entry mem =>
    (mem_append.mp (annotates.initialMemory.subset mem)).imp_right (annotates.copies entry)
  obtain ⟨copies, fine, same, ran⟩ := add_copies distinct (forall_mem_nil _) entries
    (by simpa using new.nodup_iff.mpr once)
  have ids : chain.untyped.tasks.map (·.id) = program.tasks.map (·.id) := by
    have same := congrArg (map (·.1.id)) annotates.tasks
    simpa [toSimChain, TypedChain.untyped, undirected, simTask, Function.comp_def] using same
  rw [append_nil, nil_append] at ran
  have applied : applyChainAnnotations program chain.untyped = .ok { program with
      tasks := zipWith TaskSpec.withDirectives program.tasks (chain.tasks.map Prod.fst)
      initialObjects := program.initialObjects ++ copies
      finalLocations := chain.finalLocations
      fastMemoryCapacity := chain.fastMemoryCapacity
      backingMemoryCapacity := chain.backingMemoryCapacity
      bandwidthFromSlow := chain.bandwidthFromSlow
      bandwidthToSlow := chain.bandwidthToSlow } := by
    unfold applyChainAnnotations
    rw [if_neg (not_not.mpr ids)]
    change Except.bind (foldlM _ _ (chain.initialMemory.map Prod.fst)) _ = _
    rw [ran]
    rfl
  refine ⟨_, applied, ?_, ?_, ?_⟩
  · refine Perm.trans ?_ annotates.initialMemory.symm
    rw [toSimChain, map_append, same]
    exact new.append_left _
  · have tasks := directed_tasks annotates.tasks
    simp only [toSimChain, tasks]
  · have length : chain.untyped.tasks.length = program.tasks.length := by
      simpa using congrArg length ids
    have backed : ∀ object ∈ program.initialObjects ++ copies, object.location = .backing →
        object ∈ program.initialObjects := by
      intro object mem backing
      refine (mem_append.mp mem).resolve_right fun copy => ?_
      obtain ⟨_, _, _, rfl⟩ := mem_fast_copies.mp (fine object copy)
      cases backing
    have kept : (program.initialObjects ++ copies).filter (fun object => ¬(object.location = .fast ∧
        ∃ other ∈ program.initialObjects ++ copies, other.location = .backing ∧
          other.id = object.id)) = program.initialObjects := by
      rw [filter_append, filter_eq_self.mpr, filter_eq_nil_iff.mpr, append_nil]
      · intro copy mem
        obtain ⟨source, there, backing, same⟩ := mem_fast_copies.mp (fine copy mem)
        have twin : copy.location = .fast ∧ ∃ other ∈ program.initialObjects ++ copies,
            other.location = .backing ∧ other.id = copy.id :=
          same ▸ ⟨rfl, source, mem_append_left _ there, backing, rfl⟩
        simpa using twin
      · intro object mem
        rw [decide_eq_true_eq]
        rintro ⟨fast, other, there, backing, id⟩
        rw [inj_on_of_nodup_map distinct (backed other there backing) mem id, fast] at backing
        cases backing
    simp only [stripPlanAnnotations, kept, annotates.finalLocations]
    congr 1
    exact (bare_directed length).trans ((map_congr_left bare).trans (map_id _))

/-- A program of two backing objects with these ids. -/
def backed (first second : String) : Program where
  name := "p"
  initialObjects := [⟨first, 4, .backing, .other, none⟩, ⟨second, 8, .backing, .other, none⟩]

/-- Its chain, with the first object copied this often. -/
def copied (first second : String) (count : Nat) : TypedChain :=
  { toSimChain (backed first second) with
    initialMemory := (toSimChain (backed first second)).initialMemory ++
      replicate count (⟨first, 4, .fast⟩, .other) }

theorem plan_conversion_keeps_one_copy :
    ∃ annotated, applyChainAnnotations (backed "x" "y") (copied "x" "y" 1).untyped = .ok annotated ∧
      (toSimChain annotated).initialMemory.Perm (copied "x" "y" 1).initialMemory := by
  obtain ⟨annotated, applied, perm, -⟩ := plan_conversion_keeps_all (backed "x" "y") (by decide)
    (by decide) [(⟨"x", 4, .fast⟩, .other)] (by decide) (copied "x" "y" 1)
    ⟨rfl, .refl _, by decide, rfl⟩
  exact ⟨annotated, applied, perm⟩

/-- The second of two equal copies is not there again, and of two objects with one id the last
is copied. -/
theorem plan_conversion_loses_copies :
    (∀ first second count, Annotates (backed first second)
      (replicate count (⟨first, 4, .fast⟩, .other)) (copied first second count)) ∧
    (∃ annotated, applyChainAnnotations (backed "x" "y") (copied "x" "y" 2).untyped = .ok annotated ∧
      ¬(toSimChain annotated).initialMemory.Perm (copied "x" "y" 2).initialMemory) ∧
    ∃ annotated, applyChainAnnotations (backed "x" "x") (copied "x" "x" 1).untyped = .ok annotated ∧
      ¬(toSimChain annotated).initialMemory.Perm (copied "x" "x" 1).initialMemory := by
  refine ⟨fun first second count => ⟨rfl, .refl _, fun entry mem => ?_, rfl⟩,
    ⟨_, rfl, by decide⟩, _, rfl, by decide⟩
  rw [eq_of_mem_replicate mem]
  exact mem_cons_self

end Dataflow.PlanConversion
