import Dataflow.Engine
import Mathlib.Logic.Function.Basic

/-!
The sequential reading of a program: one task after the other, every mutation,
release, offload and prefetch taking effect at once, with no queues, no sizes
and no time. It says which version of each object a launch is meant to see and
which versions the locations are meant to hold at the end.
-/

namespace Dataflow

open List Function

/-- An object of the sequential reading: its latest version and the version of
the copy at each location. -/
structure Cell where
  version : Nat
  fast : Option Nat
  backing : Option Nat
  deriving DecidableEq

def Cell.copy (cell : Cell) : Location → Option Nat
  | .fast => cell.fast
  | .backing => cell.backing

abbrev Memory := String → Option Cell

namespace Memory

def modify (memory : Memory) (object : String) (change : Cell → Cell) : Memory :=
  update memory object ((memory object).map change)

def create (memory : Memory) (output : OutputSpec) : Memory :=
  update memory output.id (some
    { version := 0
      fast := if output.location = .fast then some 0 else none
      backing := if output.location = .backing then some 0 else none })

def mutate (memory : Memory) (object : String) : Memory :=
  memory.modify object fun cell =>
    { cell with version := cell.version + 1, fast := cell.fast.map fun _ => cell.version + 1 }

def release (program : Program) (task : TaskSpec) (memory : Memory) (object : String) : Memory :=
  memory.modify object fun cell =>
    { cell with
      fast := none
      backing := if deadEverywhere program task.id object then none else cell.backing }

def offload (memory : Memory) (trigger : TransferDirective) : Memory :=
  memory.modify trigger.objectId fun cell =>
    { cell with fast := none, backing := cell.fast.or cell.backing }

def prefetch (memory : Memory) (trigger : TransferDirective) : Memory :=
  memory.modify trigger.objectId fun cell => { cell with fast := cell.backing }

def retire (program : Program) (memory : Memory) (task : TaskSpec) : Memory :=
  let live := task.outputs.foldl create memory
  let mutated := task.mutates.foldl mutate live
  let released := task.releasesAfter.foldl (release program task) mutated
  let offloaded := task.offloadAfter.foldl offload released
  task.prefetchAfter.foldl prefetch offloaded

def place (memory : Memory) (spec : ObjectSpec) : Memory :=
  let cell := (memory spec.id).getD { version := 0, fast := none, backing := none }
  update memory spec.id (some (match spec.location with
    | .fast => { cell with fast := some 0 }
    | .backing => { cell with backing := some 0 }))

end Memory

def initialMemory (program : Program) : Memory :=
  program.initialObjects.foldl Memory.place fun _ => none

def memoryAfter (program : Program) (count : Nat) : Memory :=
  (program.tasks.take count).foldl (Memory.retire program) (initialMemory program)

def sequentialLaunch (program : Program) (position : Nat) (task : TaskSpec) : Launch :=
  { task := task.id
    versions := task.inputs.map fun object =>
      (object, (memoryAfter program position object).bind (·.fast)) }

/-- What every task is meant to be launched on, for the first `count` tasks. -/
def sequentialLaunches (program : Program) (count : Nat) : List Launch :=
  ((numbered program).take count).map fun entry => sequentialLaunch program entry.1 entry.2

section Facts

variable {program : Program} {memory : Memory} {object : String}

variable {task : TaskSpec} {count : Nat}

theorem memory_after_succ (found : program.tasks[count]? = some task) :
    memoryAfter program (count + 1) = (memoryAfter program count).retire program task := by
  unfold memoryAfter
  rw [take_add_one, found, foldl_append]
  rfl

theorem numbered_get {position : Nat} (found : program.tasks[position]? = some task) :
    (numbered program)[position]? = some (position, task) := by
  have inside := (List.getElem?_eq_some_iff.mp found).1
  unfold numbered
  rw [getElem?_zip_eq_some]
  exact ⟨by simp [inside], found⟩

theorem numbered_mem {entry : Nat × TaskSpec} (mem : entry ∈ numbered program) :
    program.tasks[entry.1]? = some entry.2 := by
  obtain ⟨position, inside, same⟩ := getElem_of_mem mem
  have found : (numbered program)[position]? = some entry := by
    rw [getElem?_eq_getElem inside, same]
  have parts := getElem?_zip_eq_some.mp found
  have index : position = entry.1 := by
    have ranged := (List.getElem?_eq_some_iff.mp parts.1).2
    simpa using ranged
  exact index ▸ parts.2

theorem sequential_launches_succ
    (found : program.tasks[count]? = some task) : sequentialLaunches program (count + 1) =
      sequentialLaunches program count ++ [sequentialLaunch program count task] := by
  unfold sequentialLaunches
  rw [take_add_one, numbered_get found, map_append]
  rfl

namespace Memory

variable {change : Cell → Cell}

theorem modify_other {other : String} (ne : other ≠ object) :
    memory.modify object change other = memory other :=
  update_of_ne ne _ _

theorem modify_self : memory.modify object change object = (memory object).map change :=
  update_self _ _ _

theorem modify_unknown {other : String} (unknown : memory object = none) :
    memory.modify other change object = none := by
  by_cases same : object = other
  · subst same
    rw [modify_self, unknown]
    rfl
  · rw [modify_other same, unknown]

theorem create_unknown (outputs : List OutputSpec) (memory : Memory)
    (unknown : memory object = none) (apart : object ∉ outputs.map (·.id)) :
    outputs.foldl create memory object = none := by
  induction outputs generalizing memory with
  | nil => exact unknown
  | cons output rest ih =>
    rw [map_cons, mem_cons, not_or] at apart
    apply ih _ _ apart.2
    rw [create, update_of_ne apart.1]
    exact unknown

theorem retire_unknown (unknown : memory object = none)
    (apart : object ∉ task.outputs.map (·.id)) : memory.retire program task object = none := by
  -- no directive creates an object
  refine foldlRecOn (motive := fun memory => memory object = none) task.prefetchAfter prefetch
    ?_ (fun _ absent _ _ => modify_unknown absent)
  refine foldlRecOn (motive := fun memory => memory object = none) task.offloadAfter offload
    ?_ (fun _ absent _ _ => modify_unknown absent)
  refine foldlRecOn (motive := fun memory => memory object = none) task.releasesAfter
    (release program task) ?_ (fun _ absent _ _ => modify_unknown absent)
  refine foldlRecOn (motive := fun memory => memory object = none) task.mutates mutate
    ?_ (fun _ absent _ _ => modify_unknown absent)
  exact create_unknown task.outputs memory unknown apart

def Out (memory : Memory) (object : String) : Prop :=
  ∀ cell, memory object = some cell → cell.fast = none

theorem out_modify {other : String} (out : Out memory object)
    (kept : ∀ cell, cell.fast = none → (change cell).fast = none) :
    Out (memory.modify other change) object := by
  intro cell found
  by_cases same : object = other
  · subst same
    rw [modify_self] at found
    obtain ⟨old, before, result⟩ := Option.map_eq_some_iff.mp found
    exact result ▸ kept old (out old before)
  · rw [modify_other same] at found
    exact out cell found

theorem out_cleared (clears : ∀ cell, (change cell).fast = none) :
    Out (memory.modify object change) object := by
  intro cell found
  rw [modify_self] at found
  obtain ⟨old, _, result⟩ := Option.map_eq_some_iff.mp found
  exact result ▸ clears old

theorem out_after_clearing {Item : Type} {apply : Memory → Item → Memory} {key : Item → String}
    (clears : ∀ memory item, key item = object → Out (apply memory item) object)
    (keeps : ∀ memory item, Out memory object → Out (apply memory item) object)
    (items : List Item) (memory : Memory) (before : object ∈ items.map key ∨ Out memory object) :
    Out (items.foldl apply memory) object := by
  induction items generalizing memory with
  | nil => exact before.resolve_left not_mem_nil
  | cons item rest ih =>
    apply ih
    rcases before with listed | out
    · rcases mem_cons.mp listed with here | later
      · exact Or.inr (clears memory item here.symm)
      · exact Or.inl later
    · exact Or.inr (keeps memory item out)

theorem out_after_releases (memory : Memory)
    (before : object ∈ task.releasesAfter ∨ Out memory object) :
    Out (task.releasesAfter.foldl (release program task) memory) object := by
  have keyed : object ∈ task.releasesAfter.map id ∨ Out memory object := by
    simpa using before
  exact out_after_clearing (fun _ _ same => same ▸ out_cleared fun _ => rfl)
    (fun _ _ out => out_modify out fun _ _ => rfl) _ memory keyed

theorem out_after_offloads (triggers : List TransferDirective) (memory : Memory)
    (before : object ∈ triggers.map (·.objectId) ∨ Out memory object) :
    Out (triggers.foldl offload memory) object :=
  out_after_clearing
    (fun _ _ same => same ▸ out_cleared fun _ => rfl)
    (fun _ _ out => out_modify out fun _ _ => rfl) _ memory before

/-- A task that releases or offloads the object, or finds it out, leaves it out unless
it prefetches it. -/
theorem retire_out
    (leaves : (object ∈ task.releasesAfter ∨ object ∈ task.offloadAfter.map (·.objectId)) ∨
      Out memory object ∧ object ∉ task.outputs.map (·.id))
    (stays : object ∉ task.prefetchAfter.map (·.objectId)) :
    Out (memory.retire program task) object := by
  have mutated : Out memory object ∧ object ∉ task.outputs.map (·.id) →
      Out (task.mutates.foldl mutate (task.outputs.foldl create memory)) object := by
    rintro ⟨out, apart⟩
    have created : Out (task.outputs.foldl create memory) object := by
      refine foldlRecOn (motive := fun memory => Out memory object) task.outputs create out ?_
      intro later still output mem cell found
      have other : object ≠ output.id := by
        intro same
        exact apart (same ▸ mem_map_of_mem mem)
      rw [create, update_of_ne other] at found
      exact still cell found
    refine foldlRecOn (motive := fun memory => Out memory object) task.mutates mutate created ?_
    intro later still written _
    apply out_modify still
    intro cell gone
    simp [gone]
  have offloaded : Out (task.offloadAfter.foldl offload (task.releasesAfter.foldl
      (release program task) (task.mutates.foldl mutate (task.outputs.foldl create memory))))
      object := by
    apply out_after_offloads
    rcases leaves with (released | offloaded) | out
    · exact Or.inr (out_after_releases _ (Or.inl released))
    · exact Or.inl offloaded
    · exact Or.inr (out_after_releases _ (Or.inr (mutated out)))
  -- the prefetches are of other objects
  refine foldlRecOn (motive := fun memory => Out memory object) task.prefetchAfter prefetch
    offloaded ?_
  intro later still trigger mem cell found
  have other : object ≠ trigger.objectId := by
    intro same
    exact stays (same ▸ mem_map_of_mem mem)
  rw [prefetch, modify_other other] at found
  exact still cell found

theorem place_unknown (specs : List ObjectSpec) (memory : Memory)
    (unknown : memory object = none) (apart : ∀ spec ∈ specs, spec.id ≠ object) :
    specs.foldl place memory object = none := by
  induction specs generalizing memory with
  | nil => exact unknown
  | cons spec rest ih =>
    apply ih
    · rw [place, update_of_ne (apart spec mem_cons_self).symm]
      exact unknown
    · intro later mem
      exact apart later (mem_cons_of_mem spec mem)

end Memory

theorem output_unknown (admitted : Admitted program) {position : Nat}
    (found : program.tasks[position]? = some task) (mem : object ∈ task.outputs.map (·.id)) (early : count ≤ position) : memoryAfter program count object = none := by
  obtain ⟨within, there⟩ := List.getElem?_eq_some_iff.mp found
  induction count with
  | zero =>
    apply Memory.place_unknown _ _ rfl
    apply admitted.outputsFresh
    exact mem_flatMap.mpr ⟨task, mem_of_getElem? found, mem⟩
  | succ count ih =>
    have inside : count < program.tasks.length := by omega
    have here := getElem?_eq_getElem inside
    rw [memory_after_succ here]
    apply Memory.retire_unknown (ih (by omega))
    -- two tasks never produce the same object
    intro clash
    have distinct := admitted.outputsDistinct
    unfold outputIds at distinct
    rw [nodup_flatMap] at distinct
    have apart := pairwise_iff_getElem.mp distinct.2 count position inside within (by omega)
    rw [there] at apart
    exact apart clash mem

theorem out_until_prefetched (admitted : Admitted program) {first : Nat} {leaver : TaskSpec}
    (there : program.tasks[first]? = some leaver)
    (leaves : object ∈ leaver.releasesAfter ∨ object ∈ leaver.offloadAfter.map (·.objectId)) (later : first < count) (within : count ≤ program.tasks.length)
    (stays : ∀ index task, first ≤ index → index < count → program.tasks[index]? = some task →
      object ∉ task.prefetchAfter.map (·.objectId)) : (memoryAfter program count).Out object := by
  obtain ⟨firstInside, firstHere⟩ := List.getElem?_eq_some_iff.mp there
  induction count with
  | zero => exact absurd later (Nat.not_lt_zero first)
  | succ count ih =>
    have inside := within
    have here := getElem?_eq_getElem inside
    rw [memory_after_succ here]
    refine Memory.retire_out ?_ (stays count _ (Nat.le_of_lt_succ later) (Nat.lt_succ_self _) here)
    rcases Nat.lt_or_eq_of_le (Nat.le_of_lt_succ later) with before | now
    · right
      refine ⟨ih before (Nat.le_of_lt inside) ?_, ?_⟩
      · intro index task above below
        exact stays index task above (Nat.lt_succ_of_lt below)
      -- what an earlier task directs is no output of this one
      have created :=
        pairwise_iff_getElem.mp admitted.directsCreated first count firstInside inside before
      rw [firstHere] at created
      apply created object
      simp only [TaskSpec.directiveObjects, mem_append]
      exact Or.inl leaves
    · left
      subst now
      rw [there] at here
      cases here
      exact leaves

end Facts

end Dataflow
