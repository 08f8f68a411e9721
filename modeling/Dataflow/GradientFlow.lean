import Dataflow.LoweredProgram
import Mathlib.Data.List.Sort

/-!
How gradients flow in lowered training programs. A root is what one optimizer task
updates: the embedding, a block or the head; with tied embeddings the head's use
counts for the embedding. A backward use is the backward task of a forward task that
reads the root's weights. The gradient of a trained root gets one contribution from
each use, the first creating and the others mutating, and is consumed by the root's
optimizer, after all uses and after the step's last reader of the weights.
-/

namespace Dataflow.Lowering

open List

inductive Root where
  | embed
  | block (layer : Nat)
  | head
  deriving DecidableEq

/-- The task that backpropagates through a forward task; the head does both at once. -/
def TaskName.backward : TaskName → Option TaskName
  | .embedFwd step round => some (.embedBwd step round)
  | .blockFwd step round layer => some (.blockBwd step round layer)
  | .headLoss step round => some (.headLoss step round)
  | _ => none

namespace Root

def weights : Root → ObjectName
  | embed => .wEmbed
  | block layer => .w layer
  | head => .wHead

def gradient (step : Nat) : Root → ObjectName
  | embed => .dwEmbed step
  | block layer => .dw step layer
  | head => .dwHead step

def optimizer (step : Nat) : Root → TaskName
  | embed => .optimizerEmbed step
  | block layer => .optimizerBlock step layer
  | head => .optimizerHead step

def Present (shape : Shape) : Root → Prop
  | embed => True
  | block layer => layer < shape.nLayers
  | head => shape.tied = false

def usesIn (shape : Shape) (step round : Nat) : Root → List TaskName
  | embed => (if shape.tied then [.headLoss step round] else []) ++ [.embedBwd step round]
  | block layer => [.blockBwd step round layer]
  | head => [.headLoss step round]

def uses (shape : Shape) (step : Nat) (root : Root) : List TaskName :=
  (range shape.gradAccumRounds).flatMap fun round => root.usesIn shape step round

def first (shape : Shape) (step : Nat) : Root → TaskName
  | embed => if shape.tied then .headLoss step 0 else .embedBwd step 0
  | block layer => .blockBwd step 0 layer
  | head => .headLoss step 0

variable {shape : Shape} {sizes : Sizes}
  {step round : Nat} {root : Root} {name : TaskName}

theorem mem_usesIn :
    name ∈ root.usesIn shape step round ↔ match root with
      | embed => (shape.tied = true ∧ name = .headLoss step round) ∨ name = .embedBwd step round
      | block layer => name = .blockBwd step round layer
      | head => name = .headLoss step round := by
  cases root <;> simp [usesIn]

theorem usesIn_place
    (mem : name ∈ root.usesIn shape step round) :
    name.step = step ∧ shape.slot name = round ∧ name.isOptimizer = false := by
  rw [mem_usesIn] at mem
  cases root with
  | embed =>
    rcases mem with ⟨-, rfl⟩ | rfl <;> exact ⟨rfl, rfl, rfl⟩
  | block layer =>
    subst mem
    exact ⟨rfl, rfl, rfl⟩
  | head =>
    subst mem
    exact ⟨rfl, rfl, rfl⟩

theorem mem_uses : name ∈ root.uses shape step ↔
      ∃ round < shape.gradAccumRounds, name ∈ root.usesIn shape step round := by
  simp [uses]

theorem usesIn_ordered (step round : Nat) (root : Root) :
    (root.usesIn shape step round).Pairwise shape.Before := by
  cases root with
  | embed =>
    rw [usesIn]
    split
    · refine pairwise_pair.mpr (Shape.before_of_offset rfl rfl ?_)
      simp only [Shape.offset]
      omega
    · exact pairwise_singleton _ _
  | block layer => exact pairwise_singleton _ _
  | head => exact pairwise_singleton _ _

theorem uses_ordered (shape : Shape) (step : Nat) (root : Root) :
    (root.uses shape step).Pairwise shape.Before := by
  refine pairwise_flatMap.mpr ⟨fun round _ => usesIn_ordered step round root, ?_⟩
  refine pairwise_lt_range.imp fun earlier left inLeft right inRight => ?_
  have leftPlace := usesIn_place inLeft
  have rightPlace := usesIn_place inRight
  exact Shape.before_of_round (leftPlace.1.trans rightPlace.1.symm) (by omega)

theorem uses_eq (rounds : 0 < shape.gradAccumRounds) (step : Nat) (root : Root) :
    ∃ rest, root.uses shape step = root.first shape step :: rest := by
  obtain ⟨count, counted⟩ := Nat.exists_eq_add_of_lt rounds
  have whole : range shape.gradAccumRounds = 0 :: (range count).map (· + 1) := by
    rw [counted, Nat.zero_add, range_succ_eq_map]
  rw [uses, whole, flatMap_cons]
  cases root with
  | embed => cases tied : shape.tied <;> simp [usesIn, first, tied]
  | block layer => simp [usesIn, first]
  | head => simp [usesIn, first]

theorem first_mem (rounds : 0 < shape.gradAccumRounds) (step : Nat) (root : Root) :
    root.first shape step ∈ root.uses shape step := by
  obtain ⟨rest, whole⟩ := uses_eq rounds step root
  rw [whole]
  exact mem_cons_self

theorem mem_drop_uses (rounds : 0 < shape.gradAccumRounds)
    : name ∈ (root.uses shape step).drop 1 ↔
      name ∈ root.uses shape step ∧ name ≠ root.first shape step := by
  obtain ⟨rest, whole⟩ := uses_eq rounds step root
  have ordered := uses_ordered shape step root
  rw [whole, pairwise_cons] at ordered
  rw [whole, drop_one, tail_cons, mem_cons]
  constructor
  · exact fun mem => ⟨.inr mem, (ordered.1 name mem).ne.symm⟩
  · rintro ⟨isFirst | mem, other⟩
    · exact absurd isFirst other
    · exact mem

/-! ### who touches a gradient -/

theorem creator_gradient (present : root.Present shape) :
    shape.creator (root.gradient step) = some (root.first shape step) := by
  cases root with
  | embed => rfl
  | block layer => rfl
  | head =>
    have untied : shape.tied = false := present
    simp [gradient, Shape.creator, first, untied]

/-- Weights and gradients: what belongs to a root. -/
def Owned : ObjectName → Prop
  | .wEmbed | .w _ | .wHead | .dwEmbed _ | .dw .. | .dwHead _ => True
  | _ => False

theorem gradient_owned (step : Nat) (root : Root) : Owned (root.gradient step) := by
  cases root <;> trivial

theorem weights_owned (root : Root) : Owned root.weights := by
  cases root <;> trivial

theorem gradient_isGradient (step : Nat) (root : Root) :
    (root.gradient step).isGradient = true := by
  cases root <;> rfl

section Owned

variable {object : ObjectName} {step round layer : Nat} {name : TaskName}

theorem mem_mutates_iff (isGradient : object.isGradient = true) :
    object ∈ (shape.task name).mutates ↔ match name with
      | .headLoss step round => round ≠ 0 ∧ object = shape.headDw step
      | .blockBwd step round layer => round ≠ 0 ∧ object = .dw step layer
      | .embedBwd step round => (round = 0 → shape.tied = true) ∧ object = .dwEmbed step
      | _ => False := by
  cases name <;> simp only [Shape.task, Shape.prologueRound, Shape.embedFwd, Shape.blockFwd,
    Shape.headLoss, Shape.blockRecompute, Shape.blockBwd, Shape.embedBwd, Shape.optimizer,
    Shape.firstRound, Shape.auxIds, Shape.auxGradMutates] <;> grind [ObjectName.isGradient]

theorem mem_inputs_iff (own : Owned object) : object ∈ (shape.task name).inputs ↔ match name with
      | .prologueRound .. => False
      | .embedFwd .. => object = .wEmbed
      | .blockFwd _ _ layer | .blockRecompute _ _ layer => object = .w layer
      | .headLoss step round => object = shape.headW ∨ round ≠ 0 ∧ object = shape.headDw step
      | .blockBwd step round layer => object = .w layer ∨ round ≠ 0 ∧ object = .dw step layer
      | .embedBwd step round => (round = 0 → shape.tied = true) ∧ object = .dwEmbed step
      | .optimizerEmbed step => object = .wEmbed ∨ object = .dwEmbed step
      | .optimizerBlock step layer => object = .w layer ∨ object = .dw step layer
      | .optimizerHead step => object = .wHead ∨ object = .dwHead step := by
  rw [Shape.mem_input_names]
  cases name <;> grind [Owned, Shape.xId, Shape.mem_auxIns]

end Owned

theorem mem_mutates_gradient (present : root.Present shape)
    : root.gradient step ∈ (shape.task name).mutates ↔
      (∃ round, name ∈ root.usesIn shape step round) ∧ name ≠ root.first shape step := by
  rw [mem_mutates_iff (gradient_isGradient step root)]
  cases root with
  | embed =>
    cases tied : shape.tied <;> cases name <;>
      simp [mem_usesIn, first, gradient, tied, Shape.headDw] <;> grind
  | block layer =>
    cases tied : shape.tied <;> cases name <;>
      simp [mem_usesIn, first, gradient, tied, Shape.headDw] <;> grind
  | head =>
    have untied : shape.tied = false := present
    cases name <;> simp [mem_usesIn, first, gradient, untied, Shape.headDw]
    grind

theorem mem_inputs_gradient :
    root.gradient step ∈ (shape.task name).inputs ↔
      root.gradient step ∈ (shape.task name).mutates ∨ name = root.optimizer step := by
  rw [mem_mutates_iff (gradient_isGradient step root), mem_inputs_iff (gradient_owned step root)]
  have notHead : root.gradient step ≠ shape.headW := by
    cases tied : shape.tied <;> cases root <;> simp [gradient, Shape.headW, tied]
  cases root <;> rw [gradient] at notHead <;> cases name <;>
    simp [gradient, optimizer, notHead] <;> grind

theorem optimizer_not_mutates (step : Nat) (root : Root) :
    root.gradient step ∉ (shape.task (root.optimizer step)).mutates := by
  rw [mem_mutates_iff (gradient_isGradient step root)]
  cases root <;> simp [optimizer]

/-! ### the optimizer comes last -/

theorem optimizer_place (shape : Shape) (step : Nat) (root : Root) :
    (root.optimizer step).step = step ∧ shape.slot (root.optimizer step) = shape.optimizerSlot := by
  cases root <;> exact ⟨rfl, rfl⟩

attribute [local grind] Shape.Before Shape.slot Shape.offset Shape.backwardOffset
  Shape.optimizerSlot TaskName.step weights optimizer

theorem use_before_optimizer
    (use : name ∈ root.uses shape step) : shape.Before name (root.optimizer step) := by
  obtain ⟨round, inRounds, inUses⟩ := mem_uses.mp use
  rw [mem_usesIn] at inUses
  cases root with
  | embed => rcases inUses with ⟨-, rfl⟩ | rfl <;> grind
  | block layer => grind
  | head => grind

theorem mem_inputs_weights :
    root.weights ∈ (shape.task name).inputs ↔ match name with
      | .embedFwd .. | .optimizerEmbed _ => root.weights = .wEmbed
      | .blockFwd _ _ layer | .blockRecompute _ _ layer | .blockBwd _ _ layer
      | .optimizerBlock _ layer => root.weights = .w layer
      | .headLoss .. => root.weights = shape.headW
      | .optimizerHead _ => root.weights = .wHead
      | _ => False := by
  rw [mem_inputs_iff (weights_owned root)]
  have noGradient (step : Nat) : root.weights ≠ shape.headDw step := by
    cases tied : shape.tied <;> cases root <;> simp [weights, Shape.headDw, tied]
  cases root <;> simp only [weights] at noGradient <;> cases name <;> simp [weights, noGradient]

theorem reader_before_optimizer (reaches : shape.Reaches name)
    (reads : root.weights ∈ (shape.task name).inputs) :
    name = root.optimizer name.step ∨ shape.Before name (root.optimizer name.step) := by
  rw [mem_inputs_weights] at reads
  cases root <;> cases name <;> grind [Shape.Reaches, Shape.headW]

theorem mem_uses_iff (rounds : 0 < shape.gradAccumRounds)
    (inSteps : step < shape.numSteps) (present : root.Present shape) :
    name ∈ root.uses shape step ↔ ∃ forward ∈ shape.chain, forward.step = step ∧
      root.weights ∈ (shape.task forward).inputs ∧ forward.backward = some name := by
  rw [mem_uses]
  constructor
  · rintro ⟨round, inRounds, mem⟩
    rw [mem_usesIn] at mem
    cases root with
    | embed =>
      rcases mem with ⟨tied, rfl⟩ | rfl
      · exact ⟨.headLoss step round, (Shape.mem_chain rounds).mpr ⟨inSteps, inRounds⟩, rfl,
          mem_inputs_weights.mpr (by simp [weights, Shape.headW, tied]), rfl⟩
      · exact ⟨.embedFwd step round, (Shape.mem_chain rounds).mpr ⟨inSteps, inRounds⟩, rfl,
          mem_inputs_weights.mpr rfl, rfl⟩
    | block layer =>
      subst mem
      exact ⟨.blockFwd step round layer,
        (Shape.mem_chain rounds).mpr ⟨inSteps, inRounds, present⟩, rfl,
        mem_inputs_weights.mpr rfl, rfl⟩
    | head =>
      subst mem
      have untied : shape.tied = false := present
      exact ⟨.headLoss step round, (Shape.mem_chain rounds).mpr ⟨inSteps, inRounds⟩, rfl,
        mem_inputs_weights.mpr (by simp [weights, Shape.headW, untied]), rfl⟩
  · rintro ⟨forward, inChain, sameStep, reads, backward⟩
    have reaches := ((Shape.mem_chain rounds).mp inChain).2
    rw [mem_inputs_weights] at reads
    subst sameStep
    cases forward <;> simp only [TaskName.backward, Option.some.injEq, reduceCtorEq] at backward
    case embedFwd step round =>
      cases root <;> simp only [weights, reduceCtorEq] at reads
      exact ⟨round, reaches, mem_usesIn.mpr (.inr backward.symm)⟩
    case blockFwd step round layer =>
      cases root <;> simp only [weights, reduceCtorEq, ObjectName.w.injEq] at reads
      subst reads
      exact ⟨round, reaches.1, mem_usesIn.mpr backward.symm⟩
    case headLoss step round =>
      refine ⟨round, reaches, mem_usesIn.mpr ?_⟩
      cases tied : shape.tied <;> cases root <;>
        simp [weights, Shape.headW, tied, TaskName.step, ← backward] at reads ⊢

end Root

/-! ### lowered programs -/

/-- What becomes of a root's gradient in a step of a draft. -/
structure Draft.Accumulates (draft : Draft) (step : Nat) (root : Root) (uses : List TaskName) : Prop where
  contributions : (draft.tasks.filter fun task =>
    root.gradient step ∈ task.created ∨ root.gradient step ∈ task.mutates).map DraftTask.name = uses
  creates : (draft.tasks.filter fun task =>
    root.gradient step ∈ task.created).map DraftTask.name = uses.take 1
  mutates : (draft.tasks.filter fun task =>
    root.gradient step ∈ task.mutates).map DraftTask.name = uses.drop 1
  consumes : (draft.tasks.filter fun task =>
    root.gradient step ∈ task.inputs ∧ root.gradient step ∉ task.mutates).map DraftTask.name =
      [root.optimizer step]
  last : ∃ before optimizer after, draft.tasks = before ++ optimizer :: after ∧
    optimizer.name = root.optimizer step ∧ ∀ task ∈ after,
      root.gradient step ∉ task.created ∧ root.gradient step ∉ task.mutates ∧
      (task.name.step = step → root.weights ∉ task.inputs)

namespace Shape

variable {shape : Shape} {sizes : Sizes}

theorem lowered_names (keep : DraftTask → Bool) :
    ((applyExactSizes sizes shape.build).tasks.filter keep).map DraftTask.name =
      shape.chain.filter fun name =>
        keep ((shape.task name).lowered sizes) && ((shape.task name).lowered sizes).alive := by
  have named (name : TaskName) : ((shape.task name).lowered sizes).name = name := shape.task_name name
  simp only [applyExactSizes, build, map_map, filter_map, filter_filter]
  simp [Function.comp_def, named]

theorem lowered_ordered (sizes : Sizes) (rounds : 0 < shape.gradAccumRounds) :
    ((applyExactSizes sizes shape.build).tasks.map DraftTask.name).Pairwise shape.Before := by
  rw [← filter_true (applyExactSizes sizes shape.build).tasks, lowered_names]
  exact (chain_ordered rounds).filter _

variable {task : DraftTask}

theorem mem_lowered : task ∈ (applyExactSizes sizes shape.build).tasks ↔
      ∃ name ∈ shape.chain, (shape.task name).lowered sizes = task ∧ task.alive = true := by
  simp only [applyExactSizes, build, map_map, mem_filter, mem_map, Function.comp_def]
  grind

theorem mem_lowered_created {object : ObjectName} (live : sizes.dead object = false) :
    object ∈ (task.lowered sizes).created ↔ object ∈ task.created := by
  rw [DraftTask.lowered, scrub_created, created_resize sizes.fix_name, mem_filter]
  simp [live]

theorem mem_lowered_inputs {object : ObjectName} (live : sizes.dead object = false) :
    object ∈ (task.lowered sizes).inputs ↔ object ∈ task.inputs := by
  simp [DraftTask.lowered, DraftTask.scrub, live]

theorem mem_lowered_mutates {object : ObjectName} (live : sizes.dead object = false) :
    object ∈ (task.lowered sizes).mutates ↔ object ∈ task.mutates := by
  simp [DraftTask.lowered, DraftTask.scrub, live]

instance : Std.Antisymm shape.Before :=
  ⟨fun _ _ first second => absurd second first.asymm⟩

instance : Std.Irrefl shape.Before := ⟨fun _ first => first.asymm first⟩

theorem lowered_names_eq (rounds : 0 < shape.gradAccumRounds) {keep : DraftTask → Bool}
    {expected : List TaskName} (ordered : expected.Pairwise shape.Before)
    (members : ∀ name, name ∈ expected ↔ name ∈ shape.chain ∧
      keep ((shape.task name).lowered sizes) = true ∧
      ((shape.task name).lowered sizes).alive = true) :
    ((applyExactSizes sizes shape.build).tasks.filter keep).map DraftTask.name = expected := by
  rw [lowered_names]
  refine ((chain_ordered rounds).filter _).eq_of_mem_iff ordered fun name => ?_
  rw [members name, mem_filter, Bool.and_eq_true]

end Shape

namespace Root

variable {shape : Shape} {sizes : Sizes}
  {step : Nat} {root : Root} {name : TaskName}

theorem use_in_chain (rounds : 0 < shape.gradAccumRounds)
    (inSteps : step < shape.numSteps) (present : root.Present shape)
    (use : name ∈ root.uses shape step) : name ∈ shape.chain := by
  obtain ⟨round, inRounds, inUses⟩ := mem_uses.mp use
  refine (Shape.mem_chain rounds).mpr ⟨(usesIn_place inUses).1 ▸ inSteps, ?_⟩
  rw [mem_usesIn] at inUses
  cases root with
  | embed => rcases inUses with ⟨-, rfl⟩ | rfl <;> exact inRounds
  | block layer =>
    subst inUses
    exact ⟨inRounds, present⟩
  | head =>
    subst inUses
    exact inRounds

theorem optimizer_in_chain (rounds : 0 < shape.gradAccumRounds)
    (inSteps : step < shape.numSteps) (present : root.Present shape) :
    root.optimizer step ∈ shape.chain := by
  refine (Shape.mem_chain rounds).mpr ⟨(optimizer_place shape step root).1.symm ▸ inSteps, ?_⟩
  cases root <;> exact present

theorem use_alive
    (live : sizes.dead (root.gradient step) = false) (use : name ∈ root.uses shape step)
    (touches : root.gradient step ∈ (shape.task name).created ∨
      root.gradient step ∈ (shape.task name).mutates) :
    ((shape.task name).lowered sizes).alive = true := by
  obtain ⟨round, -, inUses⟩ := mem_uses.mp use
  have ordinary : ((shape.task name).lowered sizes).name.isOptimizer = false := by
    rw [show ((shape.task name).lowered sizes).name = name from shape.task_name name]
    exact (usesIn_place inUses).2.2
  rcases touches with creates | mutates
  · obtain ⟨object, inOutputs, -⟩ := mem_map.mp ((Shape.mem_lowered_created live).mpr creates)
    exact alive_of_output inOutputs ordinary
  · refine alive_of_mutate ((Shape.mem_lowered_mutates live).mpr mutates) fun isOptimizer => ?_
    exact absurd isOptimizer (by simp [ordinary])

theorem weights_live (root : Root) : sizes.dead root.weights = false := by
  cases root <;> rfl

theorem optimizer_alive
    (live : sizes.dead (root.gradient step) = false) :
    ((shape.task (root.optimizer step)).lowered sizes).alive = true := by
  have mutated : root.weights ∈ (shape.task (root.optimizer step)).mutates := by
    cases root <;> exact mem_cons_self
  refine alive_of_mutate ((Shape.mem_lowered_mutates root.weights_live).mpr mutated) fun _ => ?_
  exact ⟨root.gradient step, (Shape.mem_lowered_inputs live).mpr (mem_inputs_gradient.mpr (.inr rfl)),
    gradient_isGradient step root⟩

variable (proper : shape.Proper) {step : Nat} {root : Root} (inSteps : step < shape.numSteps)
  (present : root.Present shape)

include proper present

theorem created_iff (inChain : name ∈ shape.chain) :
    root.gradient step ∈ (shape.task name).created ↔ name = root.first shape step := by
  have reaches := ((Shape.mem_chain proper.rounds).mp inChain).2
  rw [Shape.mem_created proper reaches, creator_gradient present, Option.some.injEq, eq_comm]

theorem mutated_iff (inChain : name ∈ shape.chain) :
    root.gradient step ∈ (shape.task name).mutates ↔
      name ∈ root.uses shape step ∧ name ≠ root.first shape step := by
  have reaches := ((Shape.mem_chain proper.rounds).mp inChain).2
  rw [mem_mutates_gradient present, mem_uses]
  refine and_congr_left fun _ => ⟨?_, fun ⟨round, _, use⟩ => ⟨round, use⟩⟩
  rintro ⟨round, use⟩
  refine ⟨round, ?_, use⟩
  rw [mem_usesIn] at use
  cases root with
  | embed => rcases use with ⟨-, rfl⟩ | rfl <;> exact reaches
  | block layer =>
    subst use
    exact reaches.1
  | head =>
    subst use
    exact reaches

theorem touched_iff (inChain : name ∈ shape.chain) :
    (root.gradient step ∈ (shape.task name).created ∨
      root.gradient step ∈ (shape.task name).mutates) ↔ name ∈ root.uses shape step := by
  rw [created_iff proper present inChain, mutated_iff proper present inChain]
  constructor
  · rintro (rfl | ⟨use, -⟩)
    · exact first_mem proper.rounds step root
    · exact use
  · intro use
    by_cases isFirst : name = root.first shape step
    · exact .inl isFirst
    · exact .inr ⟨use, isFirst⟩

include inSteps

theorem accumulates (live : sizes.dead (root.gradient step) = false) :
    (applyExactSizes sizes shape.build).Accumulates step root (root.uses shape step) := by
  have inChain {name : TaskName} (use : name ∈ root.uses shape step) :=
    use_in_chain proper.rounds inSteps present use
  have alive {name : TaskName} (use : name ∈ root.uses shape step) :
      ((shape.task name).lowered sizes).alive = true :=
    use_alive live use ((touched_iff proper present (inChain use)).mpr use)
  have ordered := uses_ordered shape step root
  constructor
  case contributions =>
    refine Shape.lowered_names_eq proper.rounds ordered fun name => ?_
    rw [decide_eq_true_eq, Shape.mem_lowered_created live, Shape.mem_lowered_mutates live]
    constructor
    · exact fun use => ⟨inChain use, (touched_iff proper present (inChain use)).mpr use, alive use⟩
    · exact fun ⟨mem, touches, _⟩ => (touched_iff proper present mem).mp touches
  case creates =>
    refine Shape.lowered_names_eq proper.rounds (ordered.sublist (take_sublist _ _)) fun name => ?_
    obtain ⟨rest, whole⟩ := uses_eq proper.rounds step root
    have isUse := first_mem proper.rounds step root
    rw [decide_eq_true_eq, Shape.mem_lowered_created live, whole, take_succ_cons, take_zero,
      mem_singleton]
    constructor
    · rintro rfl
      exact ⟨inChain isUse, (created_iff proper present (inChain isUse)).mpr rfl, alive isUse⟩
    · exact fun ⟨mem, creates, _⟩ => (created_iff proper present mem).mp creates
  case mutates =>
    refine Shape.lowered_names_eq proper.rounds (ordered.sublist (drop_sublist _ _)) fun name => ?_
    rw [decide_eq_true_eq, Shape.mem_lowered_mutates live, mem_drop_uses proper.rounds]
    constructor
    · exact fun use => ⟨inChain use.1, (mutated_iff proper present (inChain use.1)).mpr use, alive use.1⟩
    · exact fun ⟨mem, mutates, _⟩ => (mutated_iff proper present mem).mp mutates
  case consumes =>
    refine Shape.lowered_names_eq proper.rounds (pairwise_singleton _ _) fun name => ?_
    rw [decide_eq_true_eq, Shape.mem_lowered_inputs live, Shape.mem_lowered_mutates live,
      mem_inputs_gradient, mem_singleton]
    constructor
    · rintro rfl
      exact ⟨optimizer_in_chain proper.rounds inSteps present,
        ⟨.inr rfl, optimizer_not_mutates step root⟩, optimizer_alive live⟩
    · rintro ⟨-, ⟨mutates | isOptimizer, other⟩, -⟩
      · exact absurd mutates other
      · exact isOptimizer
  case last =>
    have mem := Shape.mem_lowered.mpr ⟨_, optimizer_in_chain proper.rounds inSteps present, rfl,
        optimizer_alive live⟩
    obtain ⟨before, after, split⟩ := append_of_mem mem
    refine ⟨before, _, after, split, shape.task_name _, fun task inAfter => ?_⟩
    have inTasks : task ∈ (applyExactSizes sizes shape.build).tasks := by
      rw [split]
      exact mem_append_right _ (mem_cons_of_mem _ inAfter)
    obtain ⟨name, inNames, rfl, -⟩ := Shape.mem_lowered.mp inTasks
    -- the optimizer's name comes before every later name
    have names := Shape.lowered_ordered sizes proper.rounds
    rw [split, map_append, map_cons, pairwise_append, pairwise_cons] at names
    have later : shape.Before (root.optimizer step) name := by
      have first := names.2.1.1 _ (mem_map_of_mem inAfter)
      rwa [show ((shape.task (root.optimizer step)).lowered sizes).name = root.optimizer step from
          shape.task_name _, show ((shape.task name).lowered sizes).name = name from
          shape.task_name name] at first
    have untouched : name ∉ root.uses shape step := fun use =>
      (use_before_optimizer use).asymm later
    rw [Shape.mem_lowered_created live, Shape.mem_lowered_mutates live,
      Shape.mem_lowered_inputs root.weights_live]
    refine ⟨fun creates => untouched ((touched_iff proper present inNames).mp (.inl creates)),
      fun mutates => untouched ((touched_iff proper present inNames).mp (.inr mutates)), ?_⟩
    intro sameStep reads
    have reaches := ((Shape.mem_chain proper.rounds).mp inNames).2
    have nameStep : name.step = step := by rw [← sameStep]; exact congrArg _ (shape.task_name name).symm
    have order := reader_before_optimizer reaches reads
    rw [nameStep] at order
    rcases order with same | before
    · exact later.ne same.symm
    · exact before.asymm later

end Root

/-- Lowered training programs are well formed: they pass validation, and each trained root's
gradient collects every backward use before its one optimizer. -/
theorem Shape.lowered_well_formed {shape : Shape} {sizes : Sizes} (proper : shape.Proper)
    (sized : sizes.Proper shape) :
    validateProgram (applyExactSizes sizes shape.build).program = [] ∧
    ∀ step < shape.numSteps, ∀ root : Root, root.Present shape →
      sizes.dead (root.gradient step) = false → ∃ uses,
        (∀ name, name ∈ uses ↔ ∃ forward ∈ shape.chain, forward.step = step ∧
          root.weights ∈ (shape.task forward).inputs ∧ forward.backward = some name) ∧
        uses.Nodup ∧ uses ≠ [] ∧
        (applyExactSizes sizes shape.build).Accumulates step root uses := by
  refine ⟨(Shape.lowered_sound proper).valid (Shape.lowered_sized proper sized), ?_⟩
  intro step inSteps root present live
  refine ⟨root.uses shape step, fun name => Root.mem_uses_iff proper.rounds inSteps present,
    (Root.uses_ordered shape step root).imp Shape.Before.ne,
    ne_nil_of_mem (Root.first_mem proper.rounds step root),
    Root.accumulates proper inSteps present live⟩

/-- Two layers sharing an AuxTemp, tied embeddings, two rounds and one recomputed block. -/
def smallShape : Shape where
  name := "small"
  nLayers := 2
  gradAccumRounds := 2
  numSteps := 2
  maxTokens := 4
  dModel := 8
  vocabSize := 16
  embedParams := 128
  headParams := 128
  tied := true
  layer := fun _ => { wBytes := 64, aBytes := 32, auxTempBytes := 16, auxBytes := 8 }
  auxShared := [{ producer := 0, consumers := [1], gradBytes := 16 }]
  level := fun step round layer => if step = 0 ∧ round = 1 ∧ layer = 1 then 1 else 0
  pcieBytesPerUs := 10

def smallSizes : Sizes where
  a := fun _ => 256
  wEmbed := 256
  wHead := 256
  w := fun _ => 256
  oEmbed := 0
  oHead := 0
  o := fun _ => 512
  dwEmbed := 256
  dwHead := 0
  dw := fun _ => 256

theorem smallShape_proper : smallShape.Proper where
  named := by decide
  layers := by decide
  rounds := by decide
  tokens := by decide
  model := by decide
  levels := by
    intro step round layer
    simp only [smallShape]
    split <;> simp
  auxTemp := fun _ => by simp [smallShape]
  aux := fun _ => by simp [smallShape]
  blockCosts := fun _ => by simp [smallShape]
  costs := by decide
  group := fun _ none_ => nomatch none_
  capacity := fun _ none_ => nomatch none_
  bandwidth := by decide
  shares := by
    intro share mem
    rw [mem_singleton.mp mem]
    exact ⟨by decide, by decide, by decide, by decide, by decide⟩
  apart := by
    intro share mem other otherMember _ _ _
    rw [mem_singleton.mp mem, mem_singleton.mp otherMember]

theorem smallSizes_proper : smallSizes.Proper smallShape := by
  constructor <;> simp [smallSizes]

theorem lowered_well_formed_small :
    validateProgram (applyExactSizes smallSizes smallShape.build).program = [] ∧
      ∃ uses, uses.Nodup ∧ uses ≠ [] ∧
        (applyExactSizes smallSizes smallShape.build).Accumulates 1 .embed uses := by
  obtain ⟨valid, flows⟩ := Shape.lowered_well_formed smallShape_proper smallSizes_proper
  obtain ⟨uses, -, distinct, some_, accumulates⟩ := flows 1 (by decide) .embed trivial (by decide)
  exact ⟨valid, uses, distinct, some_, accumulates⟩

end Dataflow.Lowering
