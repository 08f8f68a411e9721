import Dataflow.Simulator
import Mathlib.Data.List.Lattice
import Mathlib.Logic.Function.Basic

/-!
Recompute selection above a residency policy, after `planning/recompute.py`, without a
wall limit. The variant builder and the policy are arbitrary, and so is what the stall
report blames. A ValueError makes a variant infeasible; nothing catches the other errors
of the simulator.
-/

namespace Dataflow.Recompute

open List Sim StatefulOutcome

structure RecomputeOption where
  level : Int
  recomputeUs : ℚ

/-- Level 0 saves the whole activation. -/
structure RecomputeRewrite where
  objectId : String
  options : List RecomputeOption
  saved : 0 ∈ options.map (·.level)

structure StallReport where
  makespanUs : ℚ
  stallByObject : String → ℚ
  transferBacklogOverlap : String → ℚ

/-- An object without a rewrite stays at level 0. -/
abbrev Levels := String → Int

/-- A builder or policy without a result has raised a ValueError. -/
structure Workload where
  buildVariant : Levels → Option TaskChain
  policyFn : TaskChain → Option TaskChain
  buildStallReport : TaskChain → SimState → StallReport

/-- What ends the planning: a level that a rewrite does not have, or the simulator. -/
inductive Raised where
  | noLevel (object : String) (level : Int)
  | simulator (fault : SimError)
  deriving DecidableEq

abbrev Planning := Outcome Raised Unit

/-- The others are a KeyError, a ZeroDivisionError and RuntimeErrors. -/
def isValueError : SimError → Bool
  | .zeroBandwidth _ | .missingEntry _ _ | .noDeferred _ | .noOffloadForDeferred _
  | .inputNotScheduled _ => false
  | _ => true

variable (workload : Workload)

/-- No result is an infeasible variant. -/
def evaluate (levels : Levels) : Planning (Option (TaskChain × StallReport)) :=
  match (workload.buildVariant levels).bind workload.policyFn with
  | none => .ok none
  | some annotated =>
    if (validateChain annotated).isSome then .ok none else
    match simulate annotated with
    | .ok log => .ok (some (annotated, workload.buildStallReport annotated log))
    | .error (fault, _) => if isValueError fault then .ok none else .error (.simulator fault, ())

structure Plan where
  levels : Levels
  chain : TaskChain
  report : StallReport
  evaluated : evaluate workload levels = .ok (some (chain, report))

/-- One rewrite for an object, so that the table by object lists the same rewrites. -/
structure Table where
  rewrites : List RecomputeRewrite
  distinct : (rewrites.map (·.objectId)).Nodup

def nextLevel (rewrite : RecomputeRewrite) (current : Int) : Int :=
  ((rewrite.options.find? (current < ·.level)).map (·.level)).getD current

def option (rewrite : RecomputeRewrite) (level : Int) : Planning RecomputeOption :=
  match rewrite.options.find? (·.level = level) with
  | some found => .ok found
  | none => .error (.noLevel rewrite.objectId level, ())

def worthwhile (levels : Levels) (report : StallReport) :
    List RecomputeRewrite → Planning (List (RecomputeRewrite × ℚ))
  | [] => .ok []
  | rewrite :: rest => do
    let current := levels rewrite.objectId
    let next := nextLevel rewrite current
    if next = current then worthwhile levels report rest else
    let curOpt ← option rewrite current
    let nxtOpt ← option rewrite next
    let net := report.stallByObject rewrite.objectId +
      report.transferBacklogOverlap rewrite.objectId - (nxtOpt.recomputeUs - curOpt.recomputeUs)
    let later ← worthwhile levels report rest
    return if 0 < net then (rewrite, net) :: later else later

def rankedCandidates (table : Table) (levels : Levels) (report : StallReport) :
    Planning (List (RecomputeRewrite × ℚ)) := do
  let out ← worthwhile levels report table.rewrites
  return out.insertionSort fun left right =>
    right.2 < left.2 ∨ left.2 = right.2 ∧ left.1.objectId ≤ right.1.objectId

/-- The last level of the rewrites that `picked` names by their place, 0 for the others. -/
def seedLevels (table : Table) (picked : Nat → Bool) : Levels := fun object =>
  ((table.rewrites.zipIdx.find? (·.1.objectId = object)).bind fun (rewrite, place) =>
    if picked place then (rewrite.options.getLast?).map (·.level) else none).getD 0

/-- The batch is halved until nothing is left of it. -/
def batches (batch : Nat) : List Nat :=
  if batch = 0 then [] else batch :: batches (batch / 2)

/-- The best plan so far, and the variants evaluated. -/
structure Seen where
  best : Option (Plan workload) := none
  tried : List Levels := []

structure Search where
  current : Plan workload
  seen : Seen workload

variable {workload}

def attempt (levels : Levels) : Planning (Option (Plan workload)) :=
  match evaluated : evaluate workload levels with
  | .ok (some (chain, report)) => .ok (some ⟨levels, chain, report, evaluated⟩)
  | .ok none => .ok none
  | .error raised => .error raised

def Seen.keep (seen : Seen workload) (levels : Levels) (trial : Option (Plan workload)) :
    Seen workload where
  best := (trial.filter fun plan =>
    seen.best.all (plan.report.makespanUs < ·.report.makespanUs)).or seen.best
  tried := seen.tried ++ [levels]

def Seen.weigh (levels : Levels) (seen : Seen workload) : Planning (Seen workload) := do
  return seen.keep levels (← attempt levels)

/-- The batches of one iteration, until one beats the current plan. -/
def Search.tryBatches (candidates : List (RecomputeRewrite × ℚ)) :
    List Nat → Search workload → Planning (Search workload × Bool)
  | [], search => .ok (search, false)
  | batch :: smaller, ⟨current, seen⟩ => do
    let levels := (candidates.take batch).foldl (fun levels (rewrite, _) => Function.update levels
      rewrite.objectId (nextLevel rewrite (levels rewrite.objectId))) current.levels
    match (← attempt levels).filter (·.report.makespanUs < current.report.makespanUs) with
    | some trial => return (⟨trial, seen.keep levels (some trial)⟩, true)
    | none => tryBatches candidates smaller ⟨current, seen.keep levels none⟩

def Search.refine (table : Table) : Nat → Search workload → Planning (Seen workload)
  | 0, search => .ok search.seen
  | iterations + 1, search => do
    let candidates ← rankedCandidates table search.current.levels search.current.report
    if candidates.isEmpty then return search.seen
    let (next, accepted) ←
      search.tryBatches candidates (batches (max 1 (candidates.length / 2)))
    if accepted then next.refine table iterations else return next.seen

/-- Without a best plan the error of the first variant is raised again. -/
def planWithRecompute (table : Table) (maxIters : Int) : Planning (Seen workload) := do
  let saved ← Seen.weigh (fun _ => 0) {}
  let all ← saved.weigh (seedLevels table fun _ => true)
  let half ← all.weigh (seedLevels table (· % 2 = 0))
  match saved.best.or half.best with
  | none => return half
  | some current => Search.refine table maxIters.toNat ⟨current, half⟩

/-! ### levels -/

def Known (table : Table) (levels : Levels) : Prop :=
  ∀ rewrite ∈ table.rewrites, levels rewrite.objectId ∈ rewrite.options.map (·.level)

section Levels

variable {table : Table} {rewrite : RecomputeRewrite} {levels : Levels}

theorem next_level_known {current : Int} (known : current ∈ rewrite.options.map (·.level)) :
    nextLevel rewrite current ∈ rewrite.options.map (·.level) := by
  unfold nextLevel
  cases found : rewrite.options.find? (current < ·.level) with
  | none => exact known
  | some option => exact mem_map_of_mem (mem_of_find?_eq_some found)

theorem option_known {level : Int} (known : level ∈ rewrite.options.map (·.level)) :
    ∃ found, option rewrite level = .ok found := by
  unfold option
  cases found : rewrite.options.find? (·.level = level) with
  | some option => exact ⟨option, rfl⟩
  | none =>
    obtain ⟨option, listed, same⟩ := mem_map.mp known
    exact absurd same (by simpa using find?_eq_none.mp found option listed)

theorem worthwhile_known (report : StallReport) {rewrites : List RecomputeRewrite}
    (known : ∀ rewrite ∈ rewrites, levels rewrite.objectId ∈ rewrite.options.map (·.level)) :
    ∃ found, worthwhile levels report rewrites = .ok found ∧ found.map (·.1) ⊆ rewrites := by
  induction rewrites with
  | nil => exact ⟨[], rfl, Subset.refl _⟩
  | cons rewrite rest ih =>
    obtain ⟨later, same, inside⟩ := ih (forall_mem_cons.mp known).2
    have here := known rewrite mem_cons_self
    obtain ⟨now, atNow⟩ := option_known here
    obtain ⟨next, atNext⟩ := option_known (next_level_known here)
    have kept := subset_cons_of_subset rewrite inside
    simp only [worthwhile, same, atNow, atNext, ok_bind, pure, Except.pure]
    split_ifs
    · exact ⟨later, rfl, kept⟩
    · exact ⟨_, rfl, cons_subset.mpr ⟨mem_cons_self, kept⟩⟩
    · exact ⟨later, rfl, kept⟩

theorem Known.raised (known : Known table levels) (mem : rewrite ∈ table.rewrites) :
    Known table (Function.update levels rewrite.objectId
      (nextLevel rewrite (levels rewrite.objectId))) := by
  intro other listed
  by_cases same : other.objectId = rewrite.objectId
  · obtain rfl : other = rewrite := inj_on_of_nodup_map table.distinct listed mem same
    rw [Function.update_self]
    exact next_level_known (known other listed)
  · rw [Function.update_of_ne same]
    exact known other listed

theorem seed_known (picked : Nat → Bool) : Known table (seedLevels table picked) := by
  intro rewrite mem
  unfold seedLevels
  cases found : table.rewrites.zipIdx.find? (·.1.objectId = rewrite.objectId) with
  | none => exact rewrite.saved
  | some entry =>
    have same : entry.1.objectId = rewrite.objectId := by simpa using find?_some found
    have listed := fst_mem_of_mem_zipIdx (mem_of_find?_eq_some found)
    obtain rfl : entry.1 = rewrite := inj_on_of_nodup_map table.distinct listed mem same
    simp only [Option.bind_some]
    split_ifs
    · cases last : entry.1.options.getLast? with
      | none => exact entry.1.saved
      | some option => exact mem_map_of_mem (mem_of_getLast? last)
    · exact entry.1.saved

end Levels

/-! ### the best plan -/

section Search

variable {table : Table} {levels : Levels} {seen : Seen workload} {trial : Option (Plan workload)}

/-- An error that nothing catches comes from an evaluation. -/
def Faulted (workload : Workload) (raised : Raised) (_ : Unit) : Prop :=
  ∃ levels, evaluate workload levels = .error (raised, ())

/-- A plan is determined by its levels. -/
theorem attempt_exact : Ensures (attempt levels : Planning (Option (Plan workload)))
    (fun trial => ∀ plan, trial = some plan ↔ plan.levels = levels) (Faulted workload) := by
  have own (plan : Plan workload) : plan.levels = levels →
      evaluate workload levels = .ok (some (plan.chain, plan.report)) := by
    rintro rfl
    exact plan.evaluated
  unfold attempt
  split
  · next chain report evaluated =>
    refine fun plan => ⟨?_, fun same => ?_⟩
    · rintro ⟨⟩
      rfl
    · cases evaluated.symm.trans (own plan same)
      cases same
      rfl
  · next infeasible =>
    refine fun plan => ⟨by rintro ⟨⟩, fun same => ?_⟩
    cases infeasible.symm.trans (own plan same)
  · next raised halted => exact ⟨levels, halted⟩

/-- Every plan that was evaluated is matched by one that is kept. -/
structure Weighed (table : Table) (seen : Seen workload) : Prop where
  known : ∀ levels ∈ seen.tried, Known table levels
  kept : ∀ best ∈ seen.best, best.levels ∈ seen.tried
  least : ∀ plan : Plan workload, plan.levels ∈ seen.tried →
    ∃ best ∈ seen.best, best.report.makespanUs ≤ plan.report.makespanUs

theorem Weighed.keep (weighed : Weighed table seen) (known : Known table levels)
    (own : ∀ plan ∈ trial, plan.levels = levels)
    (covered : ∀ plan : Plan workload, plan.levels = levels → plan ∈ trial ∨
      ∃ other : Plan workload, other.levels ∈ seen.tried ∧
        other.report.makespanUs ≤ plan.report.makespanUs) : Weighed table (seen.keep levels trial) := by
  have below : ∀ plan : Plan workload, plan ∈ trial ∨ plan ∈ seen.best →
      ∃ best ∈ (seen.keep levels trial).best, best.report.makespanUs ≤ plan.report.makespanUs := by
    intro plan
    unfold Seen.keep
    cases trial <;> cases seen.best <;> simp [Option.filter] <;> grind
  have old (plan : Plan workload) (mem : plan.levels ∈ seen.tried) :
      ∃ best ∈ (seen.keep levels trial).best, best.report.makespanUs ≤ plan.report.makespanUs := by
    obtain ⟨best, same, under⟩ := weighed.least plan mem
    obtain ⟨next, chosen, lower⟩ := below best (.inr same)
    exact ⟨next, chosen, lower.trans under⟩
  refine ⟨?_, fun best chosen => ?_, fun plan mem => ?_⟩
  · exact forall_mem_append.mpr ⟨weighed.known, by simpa using known⟩
  · rcases Option.or_eq_some_iff.mp chosen with fresh | ⟨_, before⟩
    · rw [own best (Option.filter_eq_some_iff.mp fresh).1]
      exact mem_append_right _ mem_cons_self
    · exact mem_append_left _ (weighed.kept best before)
  · rcases mem_append.mp mem with before | new
    · exact old plan before
    rcases covered plan (mem_singleton.mp new) with fresh | ⟨other, before, under⟩
    · exact below plan (.inl fresh)
    · obtain ⟨best, chosen, lower⟩ := old other before
      exact ⟨best, chosen, lower.trans under⟩

theorem Weighed.weigh (weighed : Weighed table seen) (known : Known table levels) :
    Ensures (seen.weigh levels) (fun next => Weighed table next ∧ next.tried = seen.tried ++ [levels])
      (Faulted workload) := by
  refine ensures_bind attempt_exact fun trial exact_ => ⟨?_, rfl⟩
  exact weighed.keep known (fun plan => (exact_ plan).mp) fun plan same => .inl ((exact_ plan).mpr same)

/-- The best plan was evaluated, and no plan that was evaluated is faster. -/
def Least (seen : Seen workload) : Prop :=
  ∃ best ∈ seen.best, best.levels ∈ seen.tried ∧ ∀ plan : Plan workload,
    plan.levels ∈ seen.tried → best.report.makespanUs ≤ plan.report.makespanUs

theorem Weighed.found (weighed : Weighed table seen) {plan : Plan workload}
    (held : plan.levels ∈ seen.tried) : Least seen := by
  obtain ⟨best, chosen, _⟩ := weighed.least plan held
  refine ⟨best, chosen, weighed.kept best chosen, fun other mem => ?_⟩
  obtain ⟨same, again, lower⟩ := weighed.least other mem
  cases chosen.symm.trans again
  exact lower

variable {candidates : List (RecomputeRewrite × ℚ)} {search : Search workload}

theorem Weighed.try_batches (listed : candidates.map (·.1) ⊆ table.rewrites) (sizes : List Nat)
    (weighed : Weighed table search.seen) (held : search.current.levels ∈ search.seen.tried) :
    Ensures (search.tryBatches candidates sizes)
      (fun next => Weighed table next.1.seen ∧ next.1.current.levels ∈ next.1.seen.tried)
      (Faulted workload) := by
  induction sizes generalizing search with
  | nil => exact ⟨weighed, held⟩
  | cons batch smaller ih =>
    have known := foldlRecOn (candidates.take batch) _ (weighed.known _ held)
      fun levels known entry mem =>
        Known.raised known (listed (mem_map_of_mem (mem_of_mem_take mem)))
    refine ensures_bind attempt_exact fun trial exact_ => ?_
    split
    · next plan faster =>
      have found := (Option.filter_eq_some_iff.mp faster).1
      have own := (exact_ plan).mp found
      refine ⟨weighed.keep known (fun _ => ?_) fun other same => ?_, ?_⟩
      · rintro ⟨⟩
        exact own
      · exact .inl (found.symm.trans ((exact_ other).mpr same))
      · rw [own]
        exact mem_append_right _ mem_cons_self
    · next slower =>
      refine ih (weighed.keep known (fun _ => by rintro ⟨⟩) fun plan same => .inr ?_)
        (mem_append_left _ held)
      -- what does not beat the current plan does not beat the best one
      rw [(exact_ plan).mpr same, Option.filter_eq_none_iff] at slower
      exact ⟨search.current, held, not_lt.mp fun faster => slower plan rfl (decide_eq_true faster)⟩

theorem Weighed.refine (iterations : Nat) (weighed : Weighed table search.seen)
    (held : search.current.levels ∈ search.seen.tried) :
    Ensures (search.refine table iterations) Least (Faulted workload) := by
  induction iterations generalizing search with
  | zero => exact weighed.found held
  | succ iterations ih =>
    obtain ⟨found, same, inside⟩ := worthwhile_known search.current.report (weighed.known _ held)
    simp only [Search.refine, rankedCandidates, same, ok_bind, pure_bind]
    split
    · exact weighed.found held
    refine ensures_bind (weighed.try_batches ?_ _ held) fun next sound => ?_
    · exact fun rewrite mem => inside (((perm_insertionSort _ _).map _).mem_iff.mp mem)
    split
    · exact ih sound.1 sound.2
    · exact sound.1.found sound.2

end Search

/-- What is kept is the fastest of the variants that were evaluated. Nothing is raised unless
the variant that saves all is infeasible, and both seeds, or the simulator fails on a
variant with another error than a ValueError. -/
theorem plan_with_recompute_least (table : Table) (maxIters : Int) :
    Ensures (planWithRecompute table maxIters : Planning (Seen workload))
      (fun seen => Least seen ∨ seen.best = none ∧ ∀ plan : Plan workload, plan.levels ∉
        [fun _ => 0, seedLevels table fun _ => true, seedLevels table (· % 2 = 0)])
      (Faulted workload) := by
  have start : Weighed table ({} : Seen workload) := ⟨by simp, by simp, by simp⟩
  refine ensures_bind (start.weigh fun rewrite _ => rewrite.saved) fun saved first => ?_
  refine ensures_bind (first.1.weigh (seed_known _)) fun all second => ?_
  refine ensures_bind (second.1.weigh (seed_known _)) fun half third => ?_
  split
  · next absent =>
    have missing := (Option.or_eq_none_iff.mp absent).2
    refine .inr ⟨missing, fun plan mem => ?_⟩
    obtain ⟨best, chosen, _⟩ := third.1.least plan (by simpa [third.2, second.2, first.2] using mem)
    cases missing.symm.trans chosen
  · next current present =>
    refine ensures_mono (third.1.refine _ ?_) (fun seen => .inl) fun _ _ => id
    rcases Option.or_eq_some_iff.mp present with early | ⟨_, late⟩
    · rw [third.2, second.2]
      exact mem_append_left _ (mem_append_left _ (first.1.kept current early))
    · exact third.1.kept current late

/-- The variant that saves all needs a transfer at bandwidth 0; with level 1 nothing is left. -/
def zeroBandwidth : Workload where
  buildVariant levels := some (if levels "a" = 0 then
    { initialMemory := [{ id := "x", size := 1, location := .backing }], bandwidthFromSlow := some 0
      tasks := [{ id := "t", prefetchAfter := [{ objId := "x" }] }] } else {})
  policyFn := some
  buildStallReport _ log := ⟨log.computeBusyUntil, fun _ => 0, fun _ => 0⟩

def oneRewrite : Table where
  rewrites := [⟨"a", [⟨0, 0⟩, ⟨1, 1⟩], by decide⟩]
  distinct := by decide

theorem zero_bandwidth_raises :
    Ensures (planWithRecompute oneRewrite 8 : Planning (Seen zeroBandwidth)) (fun _ => False)
      (fun raised _ => raised = .simulator (.zeroBandwidth .fromSlow)) ∧
    Ensures (evaluate zeroBandwidth (seedLevels oneRewrite fun _ => true))
      (fun found => found.isSome) fun _ _ => False := by
  decide +kernel

end Dataflow.Recompute
