import Dataflow.ShapedBuild

/-!
Lowered training programs. Exact sizes resize the shaped draft and prune what is
empty, so a lowered program is sound; with positive layouts its sizes are in order
and it passes validation.

A root is what one optimizer task updates: the embedding, a block or the head. Its
gradient gets one contribution from each backward use in each round of a step,
creating in the first and mutating in the others, and the optimizer comes after
all of them and after everything in the step that reads the weights.
-/

namespace Dataflow.Lowering

open List

/-! ### exact sizes as resizing and pruning -/

theorem Sizes.fix_name (sizes : Sizes) (object : DraftObject) :
    (sizes.fix object).name = object.name := by
  rw [Sizes.fix]
  split <;> rfl

def Sizes.drops (sizes : Sizes) (task : DraftTask) : Bool := !(task.scrub sizes.dead).alive

theorem applyExactSizes_eq (sizes : Sizes) (draft : Draft) : applyExactSizes sizes draft =
      (draft.resize sizes.fix).prune sizes.drops sizes.dead fun _ => true := by
  have tasks : (draft.tasks.map (DraftTask.lowered sizes)).filter DraftTask.alive =
      pruned sizes.drops sizes.dead (draft.tasks.map fun task =>
        { task with outputs := task.outputs.map sizes.fix }) := by
    rw [pruned, filter_map, filter_map, map_map]
    simp only [Function.comp_def, Sizes.drops, Bool.not_not]
    rfl
  simp only [applyExactSizes, Draft.prune, Draft.resize, tasks, filter_true]

variable {object : DraftObject}
  {task : DraftTask} {name : ObjectName} {sizes : Sizes}

theorem alive_of_output (mem : object ∈ task.outputs)
    (ordinary : task.name.isOptimizer = false) : task.alive = true := by
  have some_ := isEmpty_eq_false_iff.mpr (ne_nil_of_mem mem)
  simp [DraftTask.alive, some_, ordinary]

theorem alive_of_mutate (mem : name ∈ task.mutates)
    (used : task.name.isOptimizer = true → ∃ input ∈ task.inputs, input.isGradient = true) :
    task.alive = true := by
  have some_ := isEmpty_eq_false_iff.mpr (ne_nil_of_mem mem)
  cases optimizer : task.name.isOptimizer with
  | false => simp [DraftTask.alive, some_, optimizer]
  | true => simpa [DraftTask.alive, some_, optimizer] using used optimizer

theorem dropped_dead
    (optimizers : task.name.isOptimizer = true → task.created = [])
    (dropped : sizes.drops task = true) (creates : name ∈ task.created) :
    sizes.dead name = true := by
  have ordinary : task.name.isOptimizer = false := by
    by_contra isOptimizer
    rw [optimizers (by simpa using isOptimizer)] at creates
    exact not_mem_nil creates
  obtain ⟨object, inOutputs, rfl⟩ := mem_map.mp creates
  by_contra live
  have kept : object ∈ (task.scrub sizes.dead).outputs :=
    mem_filter.mpr ⟨inOutputs, by simpa using live⟩
  have alive := alive_of_output kept ordinary
  simp [Sizes.drops, alive] at dropped

/-- What exact sizes need of a draft: optimizers create nothing, forward tasks something that
stays. -/
structure Draft.Lowerable (sizes : Sizes) (draft : Draft) : Prop where
  optimizers : ∀ task ∈ draft.tasks, task.name.isOptimizer = true → task.created = []
  forwards : ∀ task ∈ draft.tasks, ∀ step round layer, task.name = .blockFwd step round layer →
    ∃ name ∈ task.created, sizes.dead name = false

theorem Draft.Sound.lowered {draft : Draft} (sound : draft.Sound)
    (lowerable : draft.Lowerable sizes) : (applyExactSizes sizes draft).Sound := by
  have optimizers : ∀ task ∈ (draft.resize sizes.fix).tasks, task.name.isOptimizer = true →
      task.created = [] := by
    intro task mem isOptimizer
    obtain ⟨other, inTasks, rfl⟩ := mem_map.mp mem
    rw [created_resize sizes.fix_name]
    exact lowerable.optimizers other inTasks isOptimizer
  rw [applyExactSizes_eq]
  refine (sound.resize sizes.fix_name).prune (fun _ => True) ?_ ?_ ?_ ?_
  · exact fun task mem dropped name creates =>
      .inl (dropped_dead (optimizers task mem) dropped creates)
  · exact fun _ _ _ _ _ => trivial
  · exact fun _ _ => trivial
  rintro ⟨step, round, layer⟩ - - task mem named
  by_contra dropped
  obtain ⟨other, inTasks, rfl⟩ := mem_map.mp mem
  obtain ⟨name, creates, live⟩ := lowerable.forwards other inTasks step round layer named
  have dead := dropped_dead (optimizers _ mem) (by simpa using dropped)
    ((created_resize sizes.fix_name other).symm ▸ creates)
  exact absurd dead (by simp [live])

/-! ### sizes in order -/

/-- The layouts of a shape's objects: positive, but for gradients and optimizer state. -/
structure Sizes.Proper (sizes : Sizes) (shape : Shape) : Prop where
  a : ∀ layer < shape.nLayers, 0 < sizes.a layer
  auxTemp : ∀ bytes, sizes.auxTemp = some bytes → ∀ layer < shape.nLayers,
    (shape.layer layer).auxTempBytes ≠ 0 → 0 < bytes layer
  aux : ∀ layer < shape.nLayers, ∀ bytes, sizes.aux layer = some bytes → 0 < bytes
  wEmbed : 0 < sizes.wEmbed
  wHead : shape.tied = false → 0 < sizes.wHead
  w : ∀ layer < shape.nLayers, 0 < sizes.w layer
  oEmbed : 0 ≤ sizes.oEmbed
  oHead : 0 ≤ sizes.oHead
  o : ∀ layer < shape.nLayers, 0 ≤ sizes.o layer
  dwEmbed : 0 ≤ sizes.dwEmbed
  dwHead : 0 ≤ sizes.dwHead
  dw : ∀ layer < shape.nLayers, 0 ≤ sizes.dw layer

theorem fits_plain (plain : object.tensor = none)
    (positive : 0 < object.sizeBytes) : object.Fits := by
  simp only [DraftObject.Fits, plain, checkObject, append_nil, report_eq_nil]
  omega

theorem fits_dense (bits : Int) {dtype : String} {dims : List Int}
    (typed : object.tensor = some { dtype := some dtype, shape := some dims })
    (listed : dtypeBits.lookup dtype = some bits) (dense : 8 * object.sizeBytes = dims.prod * bits)
    (positive : 0 < object.sizeBytes) : object.Fits := by
  have bytes : dtypeNbytes dims dtype = some object.sizeBytes := by
    rw [dtypeNbytes, listed, Option.map_some, ← dense]
    congr 1
    omega
  simp only [DraftObject.Fits, typed, checkObject, TensorMeta.nbytes, bytes, listed,
    append_eq_nil_iff, report_eq_nil]
  exact ⟨by omega, by simp, by simp⟩

theorem fits_fix {bytes : Int}
    (laid : sizes.objectSize object.name = some bytes) (positive : 0 < bytes) :
    (sizes.fix object).Fits := by
  rw [Sizes.fix, laid]
  exact fits_plain rfl positive

theorem fits_unfixed
    (laid : sizes.objectSize object.name = none) (fits : object.Fits) : (sizes.fix object).Fits := by
  rw [Sizes.fix, laid]
  exact fits

namespace Shape

variable {shape : Shape} {sizes : Sizes}

theorem rows_fit (proper : shape.Proper) (name : ObjectName) (role : Role) :
    (shape.rows name role).Fits := by
  have positive := Nat.mul_pos proper.tokens proper.model
  refine fits_dense 16 rfl (by decide) ?_ ?_
  · simp only [rows, yBytes, bf16, prod_cons, prod_nil, mul_one]
    push_cast
    omega
  · simp only [rows, yBytes, bf16]
    omega

theorem ids_fit (proper : shape.Proper)
    (typed : object.tensor = some shape.idsTensor) (bytes : object.sizeBytes = shape.idsBytes) :
    object.Fits := by
  have positive := proper.tokens
  refine fits_dense 32 typed (by decide) ?_ ?_ <;> rw [bytes]
  · simp only [idsBytes, prod_cons, prod_nil, mul_one]
    omega
  · simp only [idsBytes]
    omega

theorem scalar_fits {dtype : String}
    (typed : object.tensor = some { dtype := some dtype, shape := some [1] })
    (listed : dtypeBits.lookup dtype = some 32) (bytes : object.sizeBytes = 4) : object.Fits := by
  refine fits_dense 32 typed listed ?_ ?_ <;> rw [bytes] <;> decide

theorem positive_of_live {name : ObjectName} {bytes : Int} (nonneg : 0 ≤ bytes)
    (kind : sizes.dead name = decide (some bytes = some 0)) (live : sizes.dead name = false) :
    0 < bytes := by
  rw [kind, decide_eq_false_iff_not] at live
  have nonzero : bytes ≠ 0 := fun zero => live (by rw [zero])
  omega

section

variable (proper : shape.Proper)
include proper

section

variable (sized : sizes.Proper shape)
include sized

theorem blockFwd_outputs_fit {step round layer : Nat} (layers : layer < shape.nLayers)
    (mem : object ∈ (shape.blockFwd step round layer).outputs) : (sizes.fix object).Fits := by
  simp only [blockFwd, mem_append] at mem
  rcases mem with (listed | saved) | produced
  · rw [mem_singleton.mp listed]
    exact fits_unfixed rfl (rows_fit proper _ _)
  · rw [mem_singleton.mp (mem_ite_nil_right.mp saved).2]
    exact fits_fix rfl (sized.a layer layers)
  obtain ⟨nonzero, only⟩ := mem_ite_nil_right.mp produced
  rw [mem_singleton.mp only]
  have nonneg := proper.auxTemp layer
  cases laid : sizes.auxTemp with
  | none =>
    refine fits_unfixed (by simp [Sizes.objectSize, laid]) (fits_plain rfl ?_)
    exact lt_of_le_of_ne nonneg (Ne.symm nonzero)
  | some bytes =>
    exact fits_fix (by simp [Sizes.objectSize, laid]) (sized.auxTemp bytes laid layer layers nonzero)

theorem headLoss_outputs_fit {step round : Nat} (mem : object ∈ (shape.headLoss step round).outputs)
    (live : sizes.dead object.name = false) : (sizes.fix object).Fits := by
  simp only [headLoss, mem_append] at mem
  rcases mem with listed | gradient
  · rcases mem_pair.mp listed with rfl | rfl
    · exact fits_unfixed rfl (rows_fit proper _ _)
    · exact fits_unfixed rfl (scalar_fits rfl (by decide) rfl)
  rw [mem_singleton.mp (mem_ite_nil_right.mp gradient).2] at live ⊢
  cases tied : shape.tied with
  | true =>
    have laid : sizes.objectSize (shape.headDw step) = some sizes.dwEmbed := by
      simp [headDw, tied, Sizes.objectSize]
    simp only [headDw, tied, if_true] at live
    exact fits_fix laid (positive_of_live sized.dwEmbed rfl live)
  | false =>
    have laid : sizes.objectSize (shape.headDw step) = some sizes.dwHead := by
      simp [headDw, tied, Sizes.objectSize]
    simp only [headDw, tied, Bool.false_eq_true, if_false] at live
    exact fits_fix laid (positive_of_live sized.dwHead rfl live)

theorem blockBwd_outputs_fit {step round layer : Nat} (layers : layer < shape.nLayers)
    (mem : object ∈ (shape.blockBwd step round layer).outputs)
    (live : sizes.dead object.name = false) : (sizes.fix object).Fits := by
  simp only [blockBwd, mem_append] at mem
  rcases mem with (listed | gradient) | auxGrad
  · rw [mem_singleton.mp listed]
    refine fits_unfixed ?_ (rows_fit proper _ _)
    split <;> rfl
  · rw [mem_singleton.mp (mem_ite_nil_right.mp gradient).2] at live ⊢
    exact fits_fix rfl (positive_of_live (sized.dw layer layers) rfl live)
  rw [auxGradOuts] at auxGrad
  cases found : shape.auxGroup layer with
  | none => simp [found] at auxGrad
  | some group =>
    obtain ⟨leader, last, bytes⟩ := group
    simp only [found] at auxGrad
    obtain ⟨share, inShared, -, -, -, -, rfl, nonzero⟩ := auxGroup_some found
    rw [mem_singleton.mp (mem_ite_nil_right.mp auxGrad).2]
    refine fits_unfixed rfl (fits_plain rfl ?_)
    exact lt_of_le_of_ne (proper.shares share inShared).bytes (Ne.symm nonzero)

theorem outputs_fit {name : TaskName} (reaches : shape.Reaches name)
    (mem : object ∈ (shape.task name).outputs) (live : sizes.dead object.name = false) :
    (sizes.fix object).Fits := by
  cases name with
  | prologueRound step round =>
    rw [mem_singleton.mp mem]
    exact fits_unfixed rfl (scalar_fits rfl (by decide) rfl)
  | embedFwd step round =>
    rw [mem_singleton.mp mem]
    exact fits_unfixed rfl (rows_fit proper _ _)
  | blockFwd step round layer => exact blockFwd_outputs_fit proper sized reaches.2 mem
  | headLoss step round => exact headLoss_outputs_fit proper sized mem live
  | blockRecompute step round layer =>
    rw [mem_singleton.mp mem]
    exact fits_fix rfl (sized.a layer reaches.2.1)
  | blockBwd step round layer => exact blockBwd_outputs_fit proper sized reaches.2 mem live
  | embedBwd step round =>
    rw [mem_singleton.mp (mem_ite_nil_right.mp mem).2] at live ⊢
    exact fits_fix rfl (positive_of_live sized.dwEmbed rfl live)
  | optimizerEmbed step | optimizerBlock step layer | optimizerHead step =>
    exact absurd mem not_mem_nil

theorem parameters_fit (mem : object ∈ shape.parameters) (live : sizes.dead object.name = false) :
    (sizes.fix object).Fits := by
  simp only [parameters, mem_append] at mem
  rcases mem with (embed | layers) | head
  · rcases mem_pair.mp embed with rfl | rfl
    · exact fits_fix rfl sized.wEmbed
    · exact fits_fix rfl (positive_of_live sized.oEmbed rfl live)
  · obtain ⟨layer, inLayers, ofLayer⟩ := mem_flatMap.mp layers
    have inside := mem_range.mp inLayers
    rcases mem_append.mp ofLayer with listed | counted
    · rcases mem_pair.mp listed with rfl | rfl
      · exact fits_fix rfl (sized.w layer inside)
      · exact fits_fix rfl (positive_of_live (sized.o layer inside) rfl live)
    obtain ⟨nonzero, only⟩ := mem_ite_nil_right.mp counted
    rw [mem_singleton.mp only]
    cases laid : sizes.aux layer with
    | none =>
      refine fits_unfixed laid (fits_plain rfl ?_)
      exact lt_of_le_of_ne (proper.aux layer) (Ne.symm nonzero)
    | some bytes => exact fits_fix laid (sized.aux layer inside bytes laid)
  · obtain ⟨untied, pair⟩ := mem_ite_nil_left.mp head
    rcases mem_pair.mp pair with rfl | rfl
    · exact fits_fix rfl (sized.wHead (by simpa using untied))
    · exact fits_fix rfl (positive_of_live sized.oHead rfl live)

theorem initial_fit
    (mem : object ∈ shape.build.initialObjects) (live : sizes.dead object.name = false) :
    (sizes.fix object).Fits := by
  rcases mem_append.mp mem with parameter | data
  · exact parameters_fit proper sized parameter live
  · obtain ⟨step, -, ofStep⟩ := mem_flatMap.mp data
    obtain ⟨round, -, ofRound⟩ := mem_flatMap.mp ofStep
    rcases mem_pair.mp ofRound with rfl | rfl <;>
      exact fits_unfixed rfl (ids_fit proper rfl rfl)

theorem lowered_sized : (applyExactSizes sizes shape.build).Sized where
  initial := by
    intro object mem
    obtain ⟨inObjects, kept⟩ := mem_filter.mp mem
    obtain ⟨other, inInitial, rfl⟩ := mem_map.mp inObjects
    rw [sizes.fix_name] at kept
    exact initial_fit proper sized inInitial (by simpa using kept)
  outputs := by
    intro task mem object inOutputs
    obtain ⟨resized, inTasks, rfl⟩ := mem_map.mp (mem_filter.mp mem).1
    obtain ⟨name, inChain, rfl⟩ := mem_map.mp inTasks
    obtain ⟨inFixed, kept⟩ := mem_filter.mp inOutputs
    obtain ⟨other, inBuilt, rfl⟩ := mem_map.mp inFixed
    rw [sizes.fix_name] at kept
    have reaches := ((mem_chain proper.rounds).mp inChain).2
    exact outputs_fit proper sized reaches inBuilt (by simpa using kept)

end

theorem build_lowerable : shape.build.Lowerable sizes where
  optimizers := by
    intro task mem isOptimizer
    obtain ⟨name, -, rfl⟩ := mem_map.mp mem
    cases name <;> first | rfl | exact nomatch isOptimizer
  forwards := by
    intro task mem step round layer named
    obtain ⟨name, inChain, rfl⟩ := mem_map.mp mem
    rw [task_name] at named
    subst named
    have reaches := ((mem_chain proper.rounds).mp inChain).2
    exact ⟨.y step round layer, (mem_created proper reaches).mpr rfl, rfl⟩

theorem lowered_sound : (applyExactSizes sizes shape.build).Sound :=
  (build_sound proper).lowered (build_lowerable proper)

end

end Shape

end Dataflow.Lowering
