import Dataflow.Program
import Dataflow.ShapedNames

/-!
The shaped training-program builder. One chain grammar serves every family: in
each round embedding, blocks, fused head and loss, then the blocks backwards with
a recompute before each backward that needs one, and the embedding backward; the
optimizer tasks follow the last mutation of their gradient or close the step.
Gradients are created in the first round of a step and mutated in the others.

`applyExactSizes` replaces the sizes by packed-layout bytes. Objects that end up
empty, optimizer state without slots and gradients without fields, are scrubbed
from every task, and tasks left without a purpose go.

Roofline costs are given numbers here. Block parameters and metadata are left out.
-/

namespace Dataflow.Lowering

open List

/-- What the builder needs about one layer: its kind's sizes and costs. -/
structure Layer where
  wBytes : Int
  aBytes : Int
  /-- 0 is a kind without AuxTemp. -/
  auxTempBytes : Int := 0
  /-- 0 is a kind without Aux. -/
  auxBytes : Int := 0
  fwdUs : ℚ := 1
  bwdUs : ℚ := 1
  recomputeUs : ℚ := 1
  optimizerUs : ℚ := 1
  /-- The layer is listed in `tp_params`. -/
  sliced : Bool := false

/-- Every consumer also consumes the producer's AuxTemp. -/
structure AuxShare where
  producer : Nat
  consumers : List Nat
  gradBytes : Int := 0

structure Shape where
  name : String
  nLayers : Nat
  gradAccumRounds : Nat
  numSteps : Nat
  maxTokens : Nat
  dModel : Nat
  vocabSize : Nat
  embedParams : Nat
  headParams : Nat
  tied : Bool := false
  interleaved : Bool := true
  roundPrologue : Bool := true
  biasUpdateInBwd : Bool := false
  retainedLbl : Bool := false
  layer : Nat → Layer
  auxShared : List AuxShare := []
  /-- `recompute_levels`, 0 for missing ids. -/
  level : Nat → Nat → Nat → Nat := fun _ _ _ => 0
  dpGroup : Option String := none
  embedFwdUs : ℚ := 1
  embedBwdUs : ℚ := 1
  headLossUs : ℚ := 1
  optimizerEmbedUs : ℚ := 1
  optimizerHeadUs : ℚ := 1
  fastMemoryCapacity : Option Int := none
  pcieBytesPerUs : Int

structure DraftObject where
  name : ObjectName
  sizeBytes : Int
  role : Role
  location : Location := .backing
  tensor : Option TensorMeta := none
  deriving DecidableEq

structure DraftTask where
  name : TaskName
  inputs : List ObjectName
  outputs : List DraftObject
  mutates : List ObjectName := []
  runtimeUs : ℚ
  commGroups : List (String × String) := []
  deriving DecidableEq

/-- A program whose ids are still names. -/
structure Draft where
  name : String
  initialObjects : List DraftObject
  tasks : List DraftTask
  finalLocations : List (ObjectName × Location)
  /-- Step, round and layer of each recompute rewrite. -/
  rewrites : List (Nat × Nat × Nat)
  fastMemoryCapacity : Option Int
  bandwidth : Int

/-! ### ids -/

def DraftObject.initialSpec (object : DraftObject) : ObjectSpec :=
  { id := object.name.id, sizeBytes := object.sizeBytes, location := object.location
    role := object.role, tensor := object.tensor }

def DraftObject.outputSpec (object : DraftObject) : OutputSpec :=
  { id := object.name.id, sizeBytes := object.sizeBytes, location := object.location
    role := object.role, tensor := object.tensor }

def DraftTask.spec (task : DraftTask) : TaskSpec :=
  { id := task.name.id
    inputs := task.inputs.map ObjectName.id
    outputs := task.outputs.map DraftObject.outputSpec
    mutates := task.mutates.map ObjectName.id
    runtimeUs := task.runtimeUs
    commGroups := task.commGroups }

def rewriteSpec (place : Nat × Nat × Nat) : RecomputeRewrite :=
  { objectId := (ObjectName.a place.1 place.2.1 place.2.2).id
    fTaskId := (TaskName.blockFwd place.1 place.2.1 place.2.2).id
    rTaskId := (TaskName.blockRecompute place.1 place.2.1 place.2.2).id
    options := [⟨0⟩, ⟨1⟩] }

def Draft.program (draft : Draft) : Program :=
  { name := draft.name
    initialObjects := draft.initialObjects.map DraftObject.initialSpec
    tasks := draft.tasks.map DraftTask.spec
    finalLocations := draft.finalLocations.map fun entry => (entry.1.id, entry.2)
    fastMemoryCapacity := draft.fastMemoryCapacity
    bandwidthFromSlow := some draft.bandwidth
    bandwidthToSlow := some draft.bandwidth
    recomputeRewrites := draft.rewrites.map rewriteSpec }

namespace Shape

/-! ### sizes -/

def bf16 (elements : Nat) : Int := 2 * elements

variable (shape : Shape)

def yBytes : Int := bf16 (shape.maxTokens * shape.dModel)

def yTensor : TensorMeta :=
  { dtype := some "bf16", shape := some [shape.maxTokens, shape.dModel] }

def idsTensor : TensorMeta :=
  { dtype := some "int32", shape := some [(shape.maxTokens : Int)] }

def idsBytes : Int := 4 * shape.maxTokens

def tableTensor : TensorMeta :=
  { dtype := some "bf16", shape := some [shape.vocabSize, shape.dModel] }

/-- An activation or gradient of one row for each token. -/
def rows (name : ObjectName) (role : Role) : DraftObject :=
  { name := name, sizeBytes := shape.yBytes, role := role, location := .fast
    tensor := some shape.yTensor }

/-! ### shared AuxTemp -/

def auxProducerOf (layer : Nat) : Option Nat :=
  (shape.auxShared.reverse.find? fun share => layer ∈ share.consumers).map AuxShare.producer

def auxShareOf (producer : Nat) : Option AuxShare :=
  shape.auxShared.reverse.find? fun share => share.producer = producer

/-- Leader, last member and gradient bytes of the group through which the layer threads a
`dAuxTemp`. -/
def auxGroup (layer : Nat) : Option (Nat × Nat × Int) :=
  let leader := (shape.auxProducerOf layer).getD layer
  match shape.auxShareOf leader with
  | some share =>
    if share.gradBytes ≠ 0 ∧ layer ∈ leader :: share.consumers then
      some (leader, (share.consumers.getLast?).getD leader, share.gradBytes)
    else none
  | none => none

/-! ### initial objects -/

def auxIds : List ObjectName :=
  ((range shape.nLayers).filter fun i => (shape.layer i).auxBytes ≠ 0).map .aux

def parameters : List DraftObject :=
  [{ name := .wEmbed, sizeBytes := bf16 shape.embedParams, role := .parameter
     tensor := if shape.tied then none else some shape.tableTensor },
   { name := .oEmbed, sizeBytes := 2 * bf16 shape.embedParams, role := .optimizerState }] ++
  ((range shape.nLayers).flatMap fun i =>
    [{ name := .w i, sizeBytes := (shape.layer i).wBytes, role := .parameter },
     { name := .o i, sizeBytes := 2 * (shape.layer i).wBytes, role := .optimizerState }] ++
    if (shape.layer i).auxBytes ≠ 0 then
      [{ name := .aux i, sizeBytes := (shape.layer i).auxBytes, role := .optimizerState }]
    else []) ++
  if shape.tied then [] else
    [{ name := .wHead, sizeBytes := bf16 shape.headParams, role := .parameter
       tensor := some shape.tableTensor },
     { name := .oHead, sizeBytes := 2 * bf16 shape.headParams, role := .optimizerState }]

/-- The very first task consumes `tokens_0_0`, which starts on fast. -/
def dataObjects : List DraftObject :=
  (range shape.numSteps).flatMap fun s =>
    (range shape.gradAccumRounds).flatMap fun r =>
      [{ name := .tokens s r, sizeBytes := shape.idsBytes, role := .input
         location := if s = 0 ∧ r = 0 then .fast else .backing, tensor := some shape.idsTensor },
       { name := .targets s r, sizeBytes := shape.idsBytes, role := .input
         tensor := some shape.idsTensor }]

/-! ### tasks -/

def firstRound (round : Nat) : Bool := round = 0

def lastRound (round : Nat) : Bool := round + 1 = shape.gradAccumRounds

def xId (step round layer : Nat) : ObjectName :=
  if layer = 0 then .yEmbed step round else .y step round (layer - 1)

def headW : ObjectName := if shape.tied then .wEmbed else .wHead

def headDw (step : Nat) : ObjectName :=
  if shape.tied then .dwEmbed step else .dwHead step

def optComm : List (String × String) :=
  match shape.dpGroup with
  | some group => [("dp", group)]
  | none => []

def tpComm (layer : Nat) : List (String × String) :=
  if (shape.layer layer).sliced then
    match shape.dpGroup with
    | some group => [("tp", group)]
    | none => []
  else []

/-- AuxTemp inputs of recompute and backward: the layer's own and its producer's. -/
def auxIns (step round layer : Nat) : List ObjectName :=
  (if (shape.layer layer).auxTempBytes ≠ 0 then [.auxTemp step round layer] else []) ++
  match shape.auxProducerOf layer with
  | some producer => [.auxTemp step round producer]
  | none => []

def prologueRound (shape : Shape) (step round : Nat) : DraftTask where
  name := .prologueRound step round
  inputs := if firstRound round then shape.auxIds else []
  outputs := [{ name := .currentRound step round, sizeBytes := 4, role := .activation
                location := .fast, tensor := some { dtype := some "int32", shape := some [1] } }]
  mutates := if firstRound round then shape.auxIds else []
  runtimeUs := 1

def embedFwd (shape : Shape) (step round : Nat) : DraftTask where
  name := .embedFwd step round
  inputs := [.tokens step round, .wEmbed] ++
    if shape.roundPrologue then [.currentRound step round] else []
  outputs := [shape.rows (.yEmbed step round) .activation]
  runtimeUs := shape.embedFwdUs

def counts (layer : Nat) : Bool :=
  (shape.layer layer).auxBytes ≠ 0 && shape.roundPrologue

def blockFwd (shape : Shape) (step round layer : Nat) : DraftTask where
  name := .blockFwd step round layer
  inputs := [xId step round layer, .w layer] ++
    (match shape.auxProducerOf layer with
      | some producer => [.auxTemp step round producer]
      | none => []) ++
    if shape.counts layer then [.currentRound step round, .aux layer] else []
  outputs := [shape.rows (.y step round layer) .activation] ++
    (if shape.level step round layer = 0 then
      [{ name := .a step round layer, sizeBytes := (shape.layer layer).aBytes
         role := .activation, location := .fast }] else []) ++
    if (shape.layer layer).auxTempBytes ≠ 0 then
      [{ name := .auxTemp step round layer, sizeBytes := (shape.layer layer).auxTempBytes
         role := .activation, location := .fast }] else []
  mutates := if shape.counts layer then [.aux layer] else []
  runtimeUs := (shape.layer layer).fwdUs
  commGroups := shape.tpComm layer

/-- Fused head, loss and head backward. When tied, it creates the shared gradient. -/
def headLoss (shape : Shape) (step round : Nat) : DraftTask where
  name := .headLoss step round
  inputs := [.y step round (shape.nLayers - 1), .targets step round, shape.headW] ++
    if firstRound round then [] else [shape.headDw step]
  outputs := [shape.rows (.dy step round (shape.nLayers - 1)) .gradient,
      { name := .loss step round, sizeBytes := 4, role := .output, location := .fast
        tensor := some { dtype := some "fp32", shape := some [1] } }] ++
    if firstRound round then
      [{ name := shape.headDw step, sizeBytes := bf16 shape.headParams, role := .gradient
         location := .fast }] else []
  mutates := if firstRound round then [] else [shape.headDw step]
  runtimeUs := shape.headLossUs

def blockRecompute (shape : Shape) (step round layer : Nat) : DraftTask where
  name := .blockRecompute step round layer
  inputs := [xId step round layer, .w layer] ++ shape.auxIns step round layer
  outputs := [{ name := .a step round layer, sizeBytes := (shape.layer layer).aBytes
                role := .activation, location := .fast }]
  runtimeUs := (shape.layer layer).recomputeUs
  commGroups := shape.tpComm layer

/-- In the last round the backward reads the step's counts. -/
def readsCounts (round layer : Nat) : Bool :=
  shape.counts layer && shape.lastRound round

/-- The packs of earlier rounds that a retained-inputs loss reads in the last one. -/
def retained (step round layer : Nat) : List ObjectName :=
  if shape.readsCounts round layer && shape.retainedLbl && (shape.layer layer).auxTempBytes ≠ 0 then
    (range round).map fun earlier => .auxTemp step earlier layer
  else []

/-- The gradient of a shared AuxTemp: created by the last member of the group, mutated by
the others, consumed by the leader. -/
def auxGradIns (step round layer : Nat) : List ObjectName :=
  match shape.auxGroup layer with
  | some (leader, last, _) => if layer = last then [] else [.dAuxTemp step round leader]
  | none => []

def auxGradOuts (step round layer : Nat) : List DraftObject :=
  match shape.auxGroup layer with
  | some (leader, last, bytes) =>
    if layer = last then
      [{ name := .dAuxTemp step round leader, sizeBytes := bytes, role := .gradient
         location := .fast }] else []
  | none => []

def auxGradMutates (step round layer : Nat) : List ObjectName :=
  match shape.auxGroup layer with
  | some (leader, last, _) =>
    if layer = last then [] else if layer = leader then [] else [.dAuxTemp step round leader]
  | none => []

def blockBwd (shape : Shape) (step round layer : Nat) : DraftTask where
  name := .blockBwd step round layer
  inputs := [.dy step round layer, .a step round layer, xId step round layer, .w layer] ++
    shape.auxIns step round layer ++
    (if firstRound round then [] else [.dw step layer]) ++
    shape.auxGradIns step round layer ++
    (if shape.readsCounts round layer then [.aux layer] else []) ++
    shape.retained step round layer
  outputs := [shape.rows (if layer = 0 then .dyEmbed step round else .dy step round (layer - 1))
      .gradient] ++
    (if firstRound round then
      [{ name := .dw step layer, sizeBytes := (shape.layer layer).wBytes, role := .gradient
         location := .fast }] else []) ++
    shape.auxGradOuts step round layer
  mutates := (if firstRound round then [] else [.dw step layer]) ++
    shape.auxGradMutates step round layer ++
    if shape.readsCounts round layer && shape.biasUpdateInBwd then [.w layer] else []
  runtimeUs := (shape.layer layer).bwdUs
  commGroups := shape.tpComm layer

def embedBwd (shape : Shape) (step round : Nat) : DraftTask where
  name := .embedBwd step round
  inputs := [.dyEmbed step round, .tokens step round] ++
    if firstRound round && !shape.tied then [] else [.dwEmbed step]
  outputs := if firstRound round && !shape.tied then
      [{ name := .dwEmbed step, sizeBytes := bf16 shape.embedParams, role := .gradient
         location := .fast }] else []
  mutates := if firstRound round && !shape.tied then [] else [.dwEmbed step]
  runtimeUs := shape.embedBwdUs

/-- One optimizer task: it reads the gradient and mutates weights and state. -/
def optimizer (name : TaskName) (weights gradient state : ObjectName)
    (runtimeUs : ℚ) : DraftTask where
  name := name
  inputs := [weights, gradient, state]
  outputs := []
  mutates := [weights, state]
  runtimeUs := runtimeUs
  commGroups := shape.optComm

def task : TaskName → DraftTask
  | .prologueRound step round => shape.prologueRound step round
  | .embedFwd step round => shape.embedFwd step round
  | .blockFwd step round layer => shape.blockFwd step round layer
  | .headLoss step round => shape.headLoss step round
  | .blockRecompute step round layer => shape.blockRecompute step round layer
  | .blockBwd step round layer => shape.blockBwd step round layer
  | .embedBwd step round => shape.embedBwd step round
  | .optimizerEmbed step =>
    shape.optimizer (.optimizerEmbed step) .wEmbed (.dwEmbed step) .oEmbed shape.optimizerEmbedUs
  | .optimizerBlock step layer =>
    shape.optimizer (.optimizerBlock step layer) (.w layer) (.dw step layer) (.o layer)
      (shape.layer layer).optimizerUs
  | .optimizerHead step =>
    shape.optimizer (.optimizerHead step) .wHead (.dwHead step) .oHead shape.optimizerHeadUs

/-! ### the chain -/

/-- Optimizers that follow the last round's gradients. -/
def follows (round : Nat) : Bool := shape.interleaved && shape.lastRound round

def backwardChain (step round layer : Nat) : List TaskName :=
  (if shape.level step round layer = 1 then [.blockRecompute step round layer] else []) ++
  [.blockBwd step round layer] ++
  if shape.follows round then [.optimizerBlock step layer] else []

def roundChain (step round : Nat) : List TaskName :=
  (if shape.roundPrologue then [.prologueRound step round] else []) ++
  [.embedFwd step round] ++
  (range shape.nLayers).map (.blockFwd step round) ++
  [.headLoss step round] ++
  (if shape.follows round && !shape.tied then [.optimizerHead step] else []) ++
  (range shape.nLayers).reverse.flatMap (shape.backwardChain step round) ++
  [.embedBwd step round] ++
  if shape.follows round then [.optimizerEmbed step] else []

def tailChain (step : Nat) : List TaskName :=
  if shape.interleaved then [] else
    [.optimizerEmbed step] ++ (range shape.nLayers).map (.optimizerBlock step) ++
    if shape.tied then [] else [.optimizerHead step]

def stepChain (step : Nat) : List TaskName :=
  (range shape.gradAccumRounds).flatMap (shape.roundChain step) ++ shape.tailChain step

def chain : List TaskName :=
  (range shape.numSteps).flatMap shape.stepChain

def places : List (Nat × Nat × Nat) :=
  (range shape.numSteps).flatMap fun s =>
    (range shape.gradAccumRounds).flatMap fun r =>
      (range shape.nLayers).map fun i => (s, r, i)

def losses : List ObjectName :=
  (range shape.numSteps).flatMap fun s =>
    (range shape.gradAccumRounds).map fun r => .loss s r

def build : Draft where
  name := shape.name
  initialObjects := shape.parameters ++ shape.dataObjects
  tasks := shape.chain.map shape.task
  finalLocations := (shape.parameters.map DraftObject.name ++ shape.losses).map fun name =>
    (name, .backing)
  rewrites := shape.places
  fastMemoryCapacity := shape.fastMemoryCapacity
  bandwidth := shape.pcieBytesPerUs

end Shape

/-! ### exact sizes -/

/-- Packed-layout bytes of one rank; a gradient or optimizer state may be empty. -/
structure Sizes where
  a : Nat → Int
  /-- `none` unless every layer has an AuxTemp layout. -/
  auxTemp : Option (Nat → Int) := none
  aux : Nat → Option Int := fun _ => none
  wEmbed : Int
  wHead : Int
  w : Nat → Int
  oEmbed : Int
  oHead : Int
  o : Nat → Int
  dwEmbed : Int
  dwHead : Int
  dw : Nat → Int

def Sizes.objectSize (sizes : Sizes) : ObjectName → Option Int
  | .a _ _ layer => some (sizes.a layer)
  | .auxTemp _ _ layer => sizes.auxTemp.map fun bytes => bytes layer
  | .aux layer => sizes.aux layer
  | .dwEmbed _ => some sizes.dwEmbed
  | .wEmbed => some sizes.wEmbed
  | .dwHead _ => some sizes.dwHead
  | .wHead => some sizes.wHead
  | .oEmbed => some sizes.oEmbed
  | .oHead => some sizes.oHead
  | .o layer => some (sizes.o layer)
  | .dw _ layer => some (sizes.dw layer)
  | .w layer => some (sizes.w layer)
  | .tokens .. | .targets .. | .currentRound .. | .yEmbed .. | .y .. | .dyEmbed .. | .dy ..
  | .dAuxTemp .. | .loss .. => none

def Sizes.fix (sizes : Sizes) (object : DraftObject) : DraftObject :=
  match sizes.objectSize object.name with
  | none => object
  | some size => { object with sizeBytes := size, tensor := none }

def Sizes.dead (sizes : Sizes) (name : ObjectName) : Bool :=
  match name with
  | .oEmbed | .oHead | .o _ | .dwEmbed _ | .dwHead _ | .dw .. => sizes.objectSize name = some 0
  | _ => false

def TaskName.isOptimizer : TaskName → Bool
  | .optimizerEmbed _ | .optimizerBlock .. | .optimizerHead _ => true
  | _ => false

def ObjectName.isGradient : ObjectName → Bool
  | .dwEmbed _ | .dwHead _ | .dw .. => true
  | _ => false

def DraftTask.scrub (dead : ObjectName → Bool) (task : DraftTask) : DraftTask :=
  { task with
    inputs := task.inputs.filter fun name => !dead name
    mutates := task.mutates.filter fun name => !dead name
    outputs := task.outputs.filter fun object => !dead object.name }

/-- An optimizer without a gradient has nothing to apply. -/
def DraftTask.alive (task : DraftTask) : Bool :=
  !(task.outputs.isEmpty && task.mutates.isEmpty) &&
    !(task.name.isOptimizer && !task.inputs.any ObjectName.isGradient)

def DraftTask.lowered (sizes : Sizes) (task : DraftTask) : DraftTask :=
  DraftTask.scrub sizes.dead { task with outputs := task.outputs.map sizes.fix }

/-- With nothing dead every task is alive, so the filter is the source's. -/
def applyExactSizes (sizes : Sizes) (draft : Draft) : Draft :=
  { draft with
    initialObjects := (draft.initialObjects.map sizes.fix).filter fun object =>
      !sizes.dead object.name
    tasks := (draft.tasks.map (DraftTask.lowered sizes)).filter DraftTask.alive
    finalLocations := draft.finalLocations.filter fun entry => !sizes.dead entry.1 }

end Dataflow.Lowering
