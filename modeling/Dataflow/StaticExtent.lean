import Dataflow.Chain
import Dataflow.StatefulOutcome

/-!
Static-extent fitting, after `fit_static_extent` of `lowering/planning.py`. What
PressureFit and the simulator make of a bare program under a capacity is arbitrary, and
so are the extent of a program and the caller's fallback. The reserves of the replans
are kept, newest first, so that a run can be spoken of as a whole.
-/

namespace Dataflow.StaticExtent

open List StatefulOutcome
open Sim (Object Task TaskChain)

/-- The errors that lead to the fallback, and all others. -/
inductive Failure where
  | capacity
  | other
  deriving DecidableEq

abbrev Levels := List (String × Int)

structure PlannedProgram where
  program : Program
  recomputeLevels : Levels := []
  maxTaskWorkspaceBytes : Int := 0
  packingReserveBytes : Int := 0
  staticExtentBytes : Option Int := none
  staticExtentReplans : Nat := 0

structure Setting where
  userMemoryCapacity : Int
  physicalExtent : Program → Int
  fixedProgramLeewayBytes : Int
  fallbackReplanForCapacity : Option (Int → Except Failure PlannedProgram)
  maximumReplans : Int
  minimumReserveStepBytes : Int
  /-- The chain that PressureFit annotates and the simulator accepts. -/
  annotate : Program → Int → Except Failure TaskChain

def TaskSpec.withDirectives (spec : TaskSpec) (task : Task) : TaskSpec :=
  { spec with
    releasesAfter := task.releasesAfter
    offloadAfter := task.offloadAfter.map fun trigger => ⟨trigger.objId, trigger.runtime⟩
    prefetchAfter := task.prefetchAfter.map fun trigger => ⟨trigger.objId, trigger.runtime⟩ }

/-- An initial copy that the chain adds is one of the program's objects, elsewhere. -/
def addInitial (program : Program) (initial : List ObjectSpec) (added : Object) :
    Except Failure (List ObjectSpec) :=
  if initial.any fun object => object.id = added.id ∧ object.location = added.location then
    .ok initial
  else match program.initialObjects.reverse.find? (·.id = added.id) with
    | none => .error .other
    | some source => .ok (initial ++ [{ source with location := added.location }])

def applyChainAnnotations (program : Program) (chain : TaskChain) : Except Failure Program := do
  if chain.tasks.map (·.id) ≠ program.tasks.map (·.id) then throw .other
  let initial ← chain.initialMemory.foldlM (addInitial program) program.initialObjects
  return { program with
    tasks := zipWith TaskSpec.withDirectives program.tasks chain.tasks
    initialObjects := initial
    finalLocations := chain.finalLocations
    fastMemoryCapacity := chain.fastMemoryCapacity
    backingMemoryCapacity := chain.backingMemoryCapacity
    bandwidthFromSlow := chain.bandwidthFromSlow
    bandwidthToSlow := chain.bandwidthToSlow }

def TaskSpec.bare (task : TaskSpec) : TaskSpec :=
  { task with releasesAfter := [], offloadAfter := [], prefetchAfter := [] }

def stripPlanAnnotations (program : Program) : Program :=
  { program with
    initialObjects := program.initialObjects.filter fun object => ¬(object.location = .fast ∧
      ∃ other ∈ program.initialObjects, other.location = .backing ∧ other.id = object.id)
    tasks := program.tasks.map TaskSpec.bare }

variable (setting : Setting)

/-- `plan_program` without recompute reports no levels. -/
def planProgram (bare : Program) (capacity : Int) : Except Failure PlannedProgram := do
  let chain ← setting.annotate bare capacity
  return { program := ← applyChainAnnotations bare chain }

def maxWorkspace (program : Program) : Int :=
  ((program.tasks.map (·.workspaceBytes)).max?).getD 0

def required (program : Program) : Int :=
  setting.physicalExtent program + maxWorkspace program + setting.fixedProgramLeewayBytes

/-- A plan, the levels of its variant, and the reserves so far, the last one first. -/
structure Attempt where
  current : PlannedProgram
  selectedLevels : Levels
  reserves : List Int := []

abbrev Fitting := Outcome Failure (List Int)

def Attempt.reserve (attempt : Attempt) : Int :=
  attempt.reserves.headD 0 + max (required setting attempt.current.program -
    setting.userMemoryCapacity) setting.minimumReserveStepBytes

def Attempt.replan (attempt : Attempt) : Fitting Attempt :=
  let reserve := attempt.reserve setting
  let capacity := setting.userMemoryCapacity - reserve
  let reserves := reserve :: attempt.reserves
  if capacity ≤ setting.fixedProgramLeewayBytes + maxWorkspace attempt.current.program then
    .error (.other, attempt.reserves)
  else match planProgram setting (stripPlanAnnotations attempt.current.program) capacity with
    | .ok next => .ok ⟨next, attempt.selectedLevels, reserves⟩
    | .error .other => .error (.other, reserves)
    | .error .capacity =>
      match setting.fallbackReplanForCapacity with
      | none => .error (.capacity, reserves)
      | some replan => match replan capacity with
        | .ok next => .ok ⟨next, next.recomputeLevels, reserves⟩
        | .error failure => .error (failure, reserves)

def Attempt.accepted (attempt : Attempt) : PlannedProgram :=
  { attempt.current with
    recomputeLevels := attempt.selectedLevels
    maxTaskWorkspaceBytes := maxWorkspace attempt.current.program
    packingReserveBytes := attempt.reserves.headD 0
    staticExtentBytes := some (setting.physicalExtent attempt.current.program)
    staticExtentReplans := attempt.reserves.length }

/-- The attempts, with the number of replans that are left. -/
def Attempt.fit : Nat → Attempt → Fitting (PlannedProgram × List Int)
  | replans, attempt =>
    if setting.physicalExtent attempt.current.program < 0 then .error (.other, attempt.reserves)
    else if required setting attempt.current.program ≤ setting.userMemoryCapacity then
      .ok (attempt.accepted setting, attempt.reserves)
    else match replans with
      | 0 => .error (.other, attempt.reserves)
      | replans + 1 => do (← attempt.replan setting).fit replans

def fitStaticExtent (planned : PlannedProgram) : Fitting (PlannedProgram × List Int) :=
  if setting.userMemoryCapacity ≤ 0 ∨ setting.fixedProgramLeewayBytes < 0 ∨
      setting.maximumReplans < 0 ∨ setting.minimumReserveStepBytes ≤ 0 then .error (.other, [])
  else Attempt.fit setting setting.maximumReplans.toNat ⟨planned, planned.recomputeLevels, []⟩

/-! ### what a run keeps -/

/-- The tasks without the decisions on residency. -/
def variant (program : Program) : List TaskSpec := program.tasks.map TaskSpec.bare

/-- Each reserve is larger than the one before it, and there are not more than the limit. -/
def Grown (limit : Nat) (reserves : List Int) : Prop :=
  reserves.length ≤ limit ∧ (reserves ++ [0]).Pairwise (· > ·)

theorem variant_strip (program : Program) :
    variant (stripPlanAnnotations program) = variant program := by
  simp [variant, stripPlanAnnotations, TaskSpec.bare]

theorem bare_directed : ∀ {specs : List TaskSpec} {tasks : List Task}, tasks.length = specs.length →
    (zipWith TaskSpec.withDirectives specs tasks).map TaskSpec.bare = specs.map TaskSpec.bare
  | [], _, _ => rfl
  | spec :: specs, task :: tasks, same => by
    rw [zipWith_cons_cons, map_cons, map_cons, bare_directed (Nat.succ.inj same)]
    rfl

theorem variant_planned {setting : Setting} {bare : Program} {capacity : Int} {next : PlannedProgram}
    (planned : planProgram setting bare capacity = .ok next) : variant next.program = variant bare := by
  obtain ⟨chain, _, planned⟩ := bind_ok.mp planned
  obtain ⟨program, applied, same⟩ := bind_ok.mp planned
  cases same
  unfold applyChainAnnotations at applied
  split_ifs at applied with ids
  · cases applied
  obtain ⟨initial, _, same⟩ := bind_ok.mp applied
  cases same
  apply bare_directed
  simpa using congrArg length (not_not.mp ids)

theorem Grown.next {limit : Nat} {reserves : List Int} {more : Int} (grown : Grown limit reserves)
    (room : reserves.length < limit) (pos : 0 < more) :
    Grown limit ((reserves.headD 0 + more) :: reserves) := by
  refine ⟨room, ?_⟩
  cases reserves with
  | nil => simpa using pos
  | cons last before =>
    refine pairwise_cons.mpr ⟨fun reserve mem => ?_, grown.2⟩
    rcases mem_cons.mp mem with rfl | older
    · exact lt_add_of_pos_right _ pos
    · exact lt_add_of_lt_of_pos ((pairwise_cons.mp grown.2).1 reserve older) pos

/-- The selected levels are those of the variant, with `replans` more reserves to come. -/
structure Sound (setting : Setting) (reports : List TaskSpec → Levels → Prop) (replans : Nat)
    (attempt : Attempt) : Prop where
  truthful : reports (variant attempt.current.program) attempt.selectedLevels
  grown : Grown setting.maximumReplans.toNat attempt.reserves
  room : attempt.reserves.length + replans ≤ setting.maximumReplans.toNat

section

variable {setting : Setting} {reports : List TaskSpec → Levels → Prop} {replans : Nat}
  {attempt : Attempt} (step : 0 < setting.minimumReserveStepBytes)
  (fallback : ∀ replan ∈ setting.fallbackReplanForCapacity, ∀ capacity next,
    replan capacity = .ok next → reports (variant next.program) next.recomputeLevels)
include step fallback

theorem Sound.replan (sound : Sound setting reports (replans + 1) attempt) :
    Ensures (attempt.replan setting) (Sound setting reports replans)
      fun _ => Grown setting.maximumReplans.toNat := by
  have room := sound.room
  have more : Grown setting.maximumReplans.toNat (attempt.reserve setting :: attempt.reserves) :=
    sound.grown.next (by omega) (lt_max_of_lt_right step)
  have left : (attempt.reserve setting :: attempt.reserves).length + replans ≤
      setting.maximumReplans.toNat := by rwa [length_cons, Nat.add_right_comm]
  unfold Attempt.replan
  simp only
  split
  · exact sound.grown
  split
  · next next planned =>
    refine ⟨?_, more, left⟩
    rw [variant_planned planned, variant_strip]
    exact sound.truthful
  · exact more
  split
  · exact more
  next replan given =>
  split
  · next next made => exact ⟨fallback replan given _ next made, more, left⟩
  · exact more

theorem Sound.fit (sound : Sound setting reports replans attempt) :
    Ensures (attempt.fit setting replans)
      (fun fitted => required setting fitted.1.program ≤ setting.userMemoryCapacity ∧
        reports (variant fitted.1.program) fitted.1.recomputeLevels ∧
        Grown setting.maximumReplans.toNat fitted.2)
      fun _ => Grown setting.maximumReplans.toNat := by
  induction replans generalizing attempt with
  | zero =>
    unfold Attempt.fit
    split_ifs with negative fits
    · exact sound.grown
    · exact ⟨fits, sound.truthful, sound.grown⟩
    · exact sound.grown
  | succ replans ih =>
    unfold Attempt.fit
    split_ifs with negative fits
    · exact sound.grown
    · exact ⟨fits, sound.truthful, sound.grown⟩
    · exact ensures_bind (sound.replan step fallback) fun next => ih

end

/-- Only a plan under a capacity has a small extent. -/
def tight : Setting where
  userMemoryCapacity := 4
  physicalExtent program := if program.fastMemoryCapacity.isSome then 0 else 5
  fixedProgramLeewayBytes := 0
  fallbackReplanForCapacity := none
  maximumReplans := 8
  minimumReserveStepBytes := 1
  annotate _ capacity := .ok { fastMemoryCapacity := some capacity }

end Dataflow.StaticExtent
