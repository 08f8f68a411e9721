import Dataflow.ShapedChain

/-!
The shaped builder makes sound drafts. Each object is initial or has one task
that creates it; the inputs of a task are initial or created at an earlier place.
Groups that share an AuxTemp must be proper: members after their producer, the
last consumer last, and no layer in two groups.
-/

namespace Dataflow.Lowering

open List

/-! ### shares -/

def AuxShare.group (share : AuxShare) : List Nat := share.producer :: share.consumers

/-- The member whose backward creates the gradient. -/
def AuxShare.last (share : AuxShare) : Nat := (share.consumers.getLast?).getD share.producer

structure AuxShare.Proper (shape : Shape) (share : AuxShare) : Prop where
  produces : (shape.layer share.producer).auxTempBytes ≠ 0
  inside : ∀ layer ∈ share.group, layer < shape.nLayers
  later : ∀ layer ∈ share.consumers, share.producer < layer
  ordered : ∀ layer ∈ share.consumers, layer ≤ share.last
  bytes : 0 ≤ share.gradBytes

theorem AuxShare.last_mem (share : AuxShare) : share.last ∈ share.group := by
  rw [AuxShare.last, AuxShare.group]
  cases found : share.consumers.getLast? with
  | none => exact mem_cons_self
  | some layer => exact mem_cons_of_mem _ (mem_of_getLast? found)

/-- A shape as its family configures it. -/
structure Shape.Proper (shape : Shape) : Prop where
  named : shape.name ≠ ""
  layers : 0 < shape.nLayers
  rounds : 0 < shape.gradAccumRounds
  tokens : 0 < shape.maxTokens
  model : 0 < shape.dModel
  levels : ∀ step round layer, shape.level step round layer = 0 ∨ shape.level step round layer = 1
  auxTemp : ∀ layer, 0 ≤ (shape.layer layer).auxTempBytes
  aux : ∀ layer, 0 ≤ (shape.layer layer).auxBytes
  blockCosts : ∀ layer, 0 ≤ (shape.layer layer).fwdUs ∧ 0 ≤ (shape.layer layer).bwdUs ∧
    0 ≤ (shape.layer layer).recomputeUs ∧ 0 ≤ (shape.layer layer).optimizerUs
  costs : 0 ≤ shape.embedFwdUs ∧ 0 ≤ shape.embedBwdUs ∧ 0 ≤ shape.headLossUs ∧
    0 ≤ shape.optimizerEmbedUs ∧ 0 ≤ shape.optimizerHeadUs
  group : ∀ group, shape.dpGroup = some group → group ≠ ""
  capacity : ∀ bytes, shape.fastMemoryCapacity = some bytes → 0 < bytes
  bandwidth : 0 < shape.pcieBytesPerUs
  shares : ∀ share ∈ shape.auxShared, share.Proper shape
  apart : ∀ share ∈ shape.auxShared, ∀ other ∈ shape.auxShared, ∀ layer ∈ share.group,
    layer ∈ other.group → share = other

namespace Shape

variable {shape : Shape}
  {layer producer leader last : Nat} {bytes : Int} {left right : TaskName}

theorem auxProducerOf_some (found : shape.auxProducerOf layer = some producer) :
    ∃ share ∈ shape.auxShared, share.producer = producer ∧ layer ∈ share.consumers := by
  obtain ⟨share, located, rfl⟩ := Option.map_eq_some_iff.mp found
  exact ⟨share, mem_reverse.mp (mem_of_find?_eq_some located), rfl,
    by simpa using find?_some located⟩

variable {share : AuxShare}

theorem auxShareOf_some (found : shape.auxShareOf producer = some share) :
    share ∈ shape.auxShared ∧ share.producer = producer :=
  ⟨mem_reverse.mp (mem_of_find?_eq_some found), by simpa using find?_some found⟩

section

variable (proper : shape.Proper)
include proper

section

variable (mem : share ∈ shape.auxShared)
include mem

theorem auxProducerOf_of_mem {layer : Nat} (consumes : layer ∈ share.consumers) :
    shape.auxProducerOf layer = some share.producer := by
  have found : ∃ producer, shape.auxProducerOf layer = some producer := by
    refine Option.isSome_iff_exists.mp ?_
    rw [auxProducerOf, Option.isSome_map, find?_isSome]
    exact ⟨share, mem_reverse.mpr mem, by simpa using consumes⟩
  obtain ⟨producer, found⟩ := found
  obtain ⟨other, inShared, rfl, alsoConsumes⟩ := auxProducerOf_some found
  rw [found, proper.apart share mem other inShared layer (mem_cons_of_mem _ consumes)
    (mem_cons_of_mem _ alsoConsumes)]

theorem auxShareOf_of_mem : shape.auxShareOf share.producer = some share := by
  have found : ∃ other, shape.auxShareOf share.producer = some other := by
    refine Option.isSome_iff_exists.mp ?_
    rw [auxShareOf, find?_isSome]
    exact ⟨share, mem_reverse.mpr mem, by simp⟩
  obtain ⟨other, found⟩ := found
  obtain ⟨inShared, same⟩ := auxShareOf_some found
  rw [found, proper.apart share mem other inShared share.producer mem_cons_self
    (same ▸ mem_cons_self)]

theorem leader_of_mem {layer : Nat} (inGroup : layer ∈ share.group) :
    (shape.auxProducerOf layer).getD layer = share.producer := by
  rcases mem_cons.mp inGroup with same | consumes
  · subst same
    cases found : shape.auxProducerOf share.producer with
    | none => rfl
    | some producer =>
      obtain ⟨other, inShared, rfl, consumes⟩ := auxProducerOf_some found
      obtain rfl := proper.apart share mem other inShared share.producer inGroup
        (mem_cons_of_mem _ consumes)
      rfl
  · rw [auxProducerOf_of_mem proper mem consumes]
    rfl

theorem auxGroup_of_mem (bytes : share.gradBytes ≠ 0) {layer : Nat}
    (inGroup : layer ∈ share.group) :
    shape.auxGroup layer = some (share.producer, share.last, share.gradBytes) := by
  have inList := inGroup
  simp only [auxGroup, leader_of_mem proper mem inGroup, auxShareOf_of_mem proper mem]
  rw [if_pos ⟨bytes, inList⟩]
  rfl

end

end

theorem auxGroup_some
    (found : shape.auxGroup layer = some (leader, last, bytes)) :
    ∃ share ∈ shape.auxShared, shape.auxShareOf leader = some share ∧ share.producer = leader ∧
      layer ∈ share.group ∧ last = share.last ∧ bytes = share.gradBytes ∧ share.gradBytes ≠ 0 := by
  simp only [auxGroup] at found
  cases located : shape.auxShareOf ((shape.auxProducerOf layer).getD layer) with
  | none => simp [located] at found
  | some share =>
    obtain ⟨inShared, produces⟩ := auxShareOf_some located
    simp only [located] at found
    split at found
    · rename_i holds
      obtain ⟨rfl, rfl, rfl⟩ := found
      refine ⟨share, inShared, located, produces, ?_, ?_, rfl, holds.1⟩
      · rw [AuxShare.group, produces]
        exact holds.2
      · rw [AuxShare.last, produces]
    · exact nomatch found

/-! ### where objects come from -/

def Initial (shape : Shape) : ObjectName → Prop
  | .wEmbed | .oEmbed => True
  | .wHead | .oHead => shape.tied = false
  | .w layer | .o layer => layer < shape.nLayers
  | .aux layer => layer < shape.nLayers ∧ (shape.layer layer).auxBytes ≠ 0
  | .tokens step round | .targets step round =>
    step < shape.numSteps ∧ round < shape.gradAccumRounds
  | _ => False

def creator (shape : Shape) : ObjectName → Option TaskName
  | .currentRound step round => some (.prologueRound step round)
  | .yEmbed step round => some (.embedFwd step round)
  | .y step round layer => some (.blockFwd step round layer)
  | .a step round layer => some (
      if shape.level step round layer = 0 then .blockFwd step round layer
      else .blockRecompute step round layer)
  | .auxTemp step round layer =>
    if (shape.layer layer).auxTempBytes ≠ 0 then some (.blockFwd step round layer) else none
  | .dyEmbed step round => some (.blockBwd step round 0)
  | .dy step round layer => some (
      if layer + 1 = shape.nLayers then .headLoss step round else .blockBwd step round (layer + 1))
  | .dAuxTemp step round leader =>
    match shape.auxShareOf leader with
    | some share =>
      if share.gradBytes ≠ 0 then some (.blockBwd step round share.last) else none
    | none => none
  | .loss step round => some (.headLoss step round)
  | .dwEmbed step => some (if shape.tied then .headLoss step 0 else .embedBwd step 0)
  | .dwHead step => if shape.tied then none else some (.headLoss step 0)
  | .dw step layer => some (.blockBwd step 0 layer)
  | .wEmbed | .oEmbed | .wHead | .oHead | .w _ | .o _ | .aux _ | .tokens .. | .targets .. => none

theorem parameter_names : shape.parameters.map DraftObject.name =
    [.wEmbed, .oEmbed] ++ ((range shape.nLayers).flatMap fun layer => [.w layer, .o layer] ++
        if (shape.layer layer).auxBytes ≠ 0 then [.aux layer] else []) ++
    if shape.tied then [] else [.wHead, .oHead] := by
  simp [parameters, map_flatMap, apply_ite (map DraftObject.name)]

theorem data_names : shape.dataObjects.map DraftObject.name =
    (range shape.numSteps).flatMap fun step => (range shape.gradAccumRounds).flatMap fun round =>
        [.tokens step round, .targets step round] := by
  simp [dataObjects, map_flatMap]

theorem initial_names : shape.build.initialNames =
    shape.parameters.map DraftObject.name ++ shape.dataObjects.map DraftObject.name := by
  simp [Draft.initialNames, build]

theorem mem_initialNames {name : ObjectName} :
    name ∈ shape.build.initialNames ↔ shape.Initial name := by
  rw [initial_names, parameter_names, data_names]
  cases name <;> simp [Initial]

theorem initialNames_nodup : shape.build.initialNames.Nodup := by
  rw [initial_names, parameter_names, data_names]
  have layers : ((range shape.nLayers).flatMap fun layer =>
      [ObjectName.w layer, .o layer] ++
        if (shape.layer layer).auxBytes ≠ 0 then [.aux layer] else []).Nodup := by
    refine nodup_flatMap.mpr ⟨fun layer _ => ?_, nodup_range.imp fun apart name => ?_⟩
    · split <;> simp
    · grind
  have data : ((range shape.numSteps).flatMap fun step =>
      (range shape.gradAccumRounds).flatMap fun round =>
        [ObjectName.tokens step round, .targets step round]).Nodup := by
    refine nodup_flatMap.mpr ⟨fun step _ => nodup_flatMap.mpr ⟨fun round _ => by simp, ?_⟩, ?_⟩
    all_goals
      refine nodup_range.imp fun apart name => ?_
      grind
  refine nodup_append'.mpr ⟨nodup_append'.mpr ⟨nodup_append'.mpr ⟨by simp, layers, ?_⟩,
    ?_, ?_⟩, data, ?_⟩
  · intro name embed
    rcases mem_pair.mp embed with rfl | rfl <;> simp
  · split <;> simp
  · intro name others
    split
    · simp
    · intro head
      rcases mem_pair.mp head with rfl | rfl <;> simp at others
  · intro name parameter inData
    simp only [mem_flatMap, mem_pair] at inData
    obtain ⟨step, -, round, -, rfl | rfl⟩ := inData <;> simp at parameter

variable {object : ObjectName}

theorem auxGradOuts_names (step round layer : Nat) :
    object ∈ (shape.auxGradOuts step round layer).map DraftObject.name ↔
      ∃ leader bytes, shape.auxGroup layer = some (leader, layer, bytes) ∧
        object = .dAuxTemp step round leader := by
  simp only [auxGradOuts]
  cases found : shape.auxGroup layer with
  | none => simp
  | some group =>
    obtain ⟨leader, last, bytes⟩ := group
    by_cases own : layer = last
    · subst own
      simp
    · simp [own, Ne.symm own]

variable {name : TaskName}

theorem creator_dAuxTemp (proper : shape.Proper) {step round : Nat} :
    shape.creator (.dAuxTemp step round leader) = some name ↔
      ∃ layer bytes, shape.auxGroup layer = some (leader, layer, bytes) ∧
        name = .blockBwd step round layer := by
  constructor
  · intro creates
    simp only [creator] at creates
    split at creates
    · rename_i share found
      obtain ⟨mem, rfl⟩ := auxShareOf_some found
      split at creates
      · rename_i bytes
        exact ⟨share.last, share.gradBytes,
          auxGroup_of_mem proper mem bytes share.last_mem, (Option.some.inj creates).symm⟩
      · exact nomatch creates
    · exact nomatch creates
  · rintro ⟨layer, bytes, found, rfl⟩
    obtain ⟨share, -, located, -, -, last, -, nonzero⟩ := auxGroup_some found
    simp only [creator, located, if_pos nonzero, last]

theorem mem_created_names : object ∈ (shape.task name).created ↔ match name with
      | .prologueRound step round => object = .currentRound step round
      | .embedFwd step round => object = .yEmbed step round
      | .blockFwd step round layer => object = .y step round layer ∨
          (shape.level step round layer = 0 ∧ object = .a step round layer) ∨
          ((shape.layer layer).auxTempBytes ≠ 0 ∧ object = .auxTemp step round layer)
      | .headLoss step round => object = .dy step round (shape.nLayers - 1) ∨
          object = .loss step round ∨ (round = 0 ∧ object = shape.headDw step)
      | .blockRecompute step round layer => object = .a step round layer
      | .blockBwd step round layer =>
        object = (if layer = 0 then .dyEmbed step round else .dy step round (layer - 1)) ∨
        (round = 0 ∧ object = .dw step layer) ∨
        ∃ leader bytes, shape.auxGroup layer = some (leader, layer, bytes) ∧
          object = .dAuxTemp step round leader
      | .embedBwd step round => round = 0 ∧ shape.tied = false ∧ object = .dwEmbed step
      | .optimizerEmbed _ | .optimizerBlock .. | .optimizerHead _ => False := by
  cases name with
  | blockBwd step round layer =>
    simp only [task, blockBwd, DraftTask.created, map_append, mem_append,
      auxGradOuts_names, apply_ite (map DraftObject.name)]
    simp [rows, firstRound, or_assoc]
  | _ =>
    simp [task, prologueRound, embedFwd, blockFwd, headLoss, blockRecompute, embedBwd, optimizer,
      DraftTask.created, rows, firstRound, apply_ite (map DraftObject.name), and_assoc]

theorem mem_created (proper : shape.Proper) (reaches : shape.Reaches name) :
    object ∈ (shape.task name).created ↔ shape.creator object = some name := by
  have layers := proper.layers
  rw [mem_created_names]
  cases object with
  | dAuxTemp step round leader =>
    rw [creator_dAuxTemp proper]
    cases name <;> simp [headDw] <;> grind
  | _ =>
    cases name <;> simp [creator, headDw] <;> grind [Reaches]

/-! ### every input is ready -/

/-- The input is initial or made at an earlier place. -/
def Ready (shape : Shape) (name : TaskName) (input : ObjectName) : Prop :=
  shape.Initial input ∨
    ∃ other, shape.creator input = some other ∧ shape.Reaches other ∧ shape.Before other name

theorem before_of_offset (step : left.step = right.step)
    (slot : shape.slot left = shape.slot right) (less : shape.offset left < shape.offset right) :
    shape.Before left right := .inr ⟨step, .inr ⟨slot, less⟩⟩

theorem before_of_round (step : left.step = right.step)
    (less : shape.slot left < shape.slot right) : shape.Before left right :=
  .inr ⟨step, .inl less⟩

variable {step round layer : Nat} {input : ObjectName}

theorem mem_auxIns : input ∈ shape.auxIns step round layer ↔
      ∃ source, (source = layer ∧ (shape.layer layer).auxTempBytes ≠ 0 ∨
        shape.auxProducerOf layer = some source) ∧ input = .auxTemp step round source := by
  simp only [auxIns]
  grind

theorem mem_input_names : input ∈ (shape.task name).inputs ↔ match name with
      | .prologueRound _ round => round = 0 ∧
          ∃ layer < shape.nLayers, (shape.layer layer).auxBytes ≠ 0 ∧ input = .aux layer
      | .embedFwd step round => input = .tokens step round ∨ input = .wEmbed ∨
          (shape.roundPrologue = true ∧ input = .currentRound step round)
      | .blockFwd step round layer => input = xId step round layer ∨ input = .w layer ∨
          (∃ producer, shape.auxProducerOf layer = some producer ∧
            input = .auxTemp step round producer) ∨
          (shape.counts layer = true ∧ (input = .currentRound step round ∨ input = .aux layer))
      | .headLoss step round => input = .y step round (shape.nLayers - 1) ∨
          input = .targets step round ∨ input = shape.headW ∨
          (round ≠ 0 ∧ input = shape.headDw step)
      | .blockRecompute step round layer => input = xId step round layer ∨ input = .w layer ∨
          input ∈ shape.auxIns step round layer
      | .blockBwd step round layer => input = .dy step round layer ∨
          input = .a step round layer ∨ input = xId step round layer ∨ input = .w layer ∨
          input ∈ shape.auxIns step round layer ∨ (round ≠ 0 ∧ input = .dw step layer) ∨
          (∃ leader last bytes, shape.auxGroup layer = some (leader, last, bytes) ∧
            layer ≠ last ∧ input = .dAuxTemp step round leader) ∨
          (shape.readsCounts round layer = true ∧ (input = .aux layer ∨
            shape.retainedLbl = true ∧ (shape.layer layer).auxTempBytes ≠ 0 ∧
              ∃ earlier < round, input = .auxTemp step earlier layer))
      | .embedBwd step round => input = .dyEmbed step round ∨ input = .tokens step round ∨
          ((round = 0 → shape.tied = true) ∧ input = .dwEmbed step)
      | .optimizerEmbed step => input = .wEmbed ∨ input = .dwEmbed step ∨ input = .oEmbed
      | .optimizerBlock step layer => input = .w layer ∨ input = .dw step layer ∨ input = .o layer
      | .optimizerHead step => input = .wHead ∨ input = .dwHead step ∨ input = .oHead := by
  cases name with
  | blockBwd step round layer =>
    simp only [task, blockBwd, auxGradIns, retained, firstRound]
    grind
  | blockFwd step round layer =>
    simp only [task, blockFwd]
    grind
  | prologueRound step round =>
    simp only [task, prologueRound, firstRound, auxIds]
    grind
  | _ =>
    simp [task, embedFwd, headLoss, blockRecompute, embedBwd, optimizer, firstRound]

theorem producer_below (proper : shape.Proper) {layer : Nat}
    (found : shape.auxProducerOf layer = some producer) :
    producer < layer ∧ producer < shape.nLayers ∧ (shape.layer producer).auxTempBytes ≠ 0 := by
  obtain ⟨share, mem, rfl, consumes⟩ := auxProducerOf_some found
  have whole := proper.shares share mem
  exact ⟨whole.later layer consumes, whole.inside _ mem_cons_self, whole.produces⟩

theorem AuxShare.Proper.le_last (proper : share.Proper shape) {layer : Nat}
    (mem : layer ∈ share.group) : layer ≤ share.last := by
  rcases mem_cons.mp mem with rfl | consumes
  · rcases mem_cons.mp share.last_mem with same | consumes
    · exact same.ge
    · exact (proper.later _ consumes).le
  · exact proper.ordered layer consumes

theorem group_last (proper : shape.Proper) {layer : Nat}
    (step round : Nat) (found : shape.auxGroup layer = some (leader, last, bytes)) :
    layer ≤ last ∧ last < shape.nLayers ∧
      shape.creator (.dAuxTemp step round leader) = some (.blockBwd step round last) := by
  obtain ⟨share, inShared, -, rfl, inGroup, rfl, rfl, nonzero⟩ := auxGroup_some found
  have whole := proper.shares share inShared
  exact ⟨AuxShare.Proper.le_last whole inGroup, whole.inside _ share.last_mem,
    (creator_dAuxTemp proper).mpr
      ⟨share.last, _, auxGroup_of_mem proper inShared nonzero share.last_mem, rfl⟩⟩

attribute [local grind] Reaches Before TaskName.step slot offset backwardOffset optimizerSlot

theorem ready_made {name other : TaskName} (made : shape.creator input = some other)
    (earlier : shape.Reaches other ∧ shape.Before other name) : shape.Ready name input :=
  .inr ⟨other, made, earlier⟩

theorem ready_xId (rounds : round < shape.gradAccumRounds) (layers : layer < shape.nLayers)
    (later : shape.Before (.blockFwd step round layer) name ∨ name = .blockFwd step round layer) :
    shape.Ready name (xId step round layer) := by
  rw [xId]
  split
  · exact ready_made rfl (by grind)
  · exact ready_made rfl (by grind)

theorem ready_auxTemp (rounds : round < shape.gradAccumRounds) (layers : layer < shape.nLayers)
    (produces : (shape.layer layer).auxTempBytes ≠ 0)
    (later : shape.Before (.blockFwd step round layer) name) :
    shape.Ready name (.auxTemp step round layer) :=
  ready_made (if_pos produces) ⟨⟨rounds, layers⟩, later⟩

theorem ready_auxIns (proper : shape.Proper) (rounds : round < shape.gradAccumRounds) (layers : layer < shape.nLayers)
    (later : shape.Before (.blockFwd step round layer) name)
    (mem : input ∈ shape.auxIns step round layer) : shape.Ready name input := by
  obtain ⟨source, ⟨rfl, produces⟩ | found, rfl⟩ := mem_auxIns.mp mem
  · exact ready_auxTemp rounds layers produces later
  · have below := producer_below proper found
    exact ready_auxTemp rounds below.2.1 below.2.2 (by grind)

theorem inputs_ready (proper : shape.Proper) (reaches : shape.Reaches name)
    (inSteps : name.step < shape.numSteps)
    (mem : input ∈ (shape.task name).inputs) : shape.Ready name input := by
  have rounds := proper.rounds
  have layers := proper.layers
  rw [mem_input_names] at mem
  cases name with
  | prologueRound step round =>
    obtain ⟨-, layer, inside, kept, rfl⟩ := mem
    exact .inl ⟨inside, kept⟩
  | embedFwd step round =>
    rcases mem with rfl | rfl | ⟨prologue, rfl⟩
    · exact .inl ⟨inSteps, reaches⟩
    · exact .inl trivial
    · exact ready_made rfl (by grind)
  | blockFwd step round layer =>
    rcases mem with rfl | rfl | ⟨producer, found, rfl⟩ | ⟨counts, rfl | rfl⟩
    · exact ready_xId reaches.1 reaches.2 (.inr rfl)
    · exact .inl reaches.2
    · have below := producer_below proper found
      exact ready_auxTemp reaches.1 below.2.1 below.2.2 (by grind)
    · exact ready_made rfl (by grind [Shape.counts])
    · exact .inl ⟨reaches.2, by grind [Shape.counts]⟩
  | headLoss step round =>
    rcases mem with rfl | rfl | rfl | ⟨later, rfl⟩
    · exact ready_made rfl (by grind)
    · exact .inl ⟨inSteps, reaches⟩
    · exact .inl (by grind [headW, Initial])
    · exact @ready_made _ _ _ (.headLoss step 0) (by grind [headDw, creator]) (by grind)
  | blockRecompute step round layer =>
    obtain ⟨inside, layers, -⟩ := reaches
    have forward : shape.Before (.blockFwd step round layer) (.blockRecompute step round layer) := by
      grind
    rcases mem with rfl | rfl | aux
    · exact ready_xId inside layers (.inl forward)
    · exact .inl layers
    · exact ready_auxIns proper inside layers forward aux
  | blockBwd step round layer =>
    obtain ⟨inside, layers⟩ := reaches
    have forward : shape.Before (.blockFwd step round layer) (.blockBwd step round layer) := by
      grind
    rcases mem with rfl | rfl | rfl | rfl | aux | ⟨later, rfl⟩ |
      ⟨leader, last, bytes, found, other, rfl⟩ |
      ⟨reads, rfl | ⟨-, produces, earlier, less, rfl⟩⟩
    · exact ready_made rfl (by grind)
    · have level := proper.levels step round layer
      exact ready_made rfl (by grind)
    · exact ready_xId inside layers (.inl forward)
    · exact .inl layers
    · exact ready_auxIns proper inside layers forward aux
    · exact ready_made rfl (by grind)
    · obtain ⟨atMost, below, made⟩ := group_last proper step round found
      exact ready_made made (by grind)
    · exact .inl ⟨layers, by grind [readsCounts, Shape.counts]⟩
    · exact ready_auxTemp (by omega) layers produces (by grind)
  | embedBwd step round =>
    rcases mem with rfl | rfl | ⟨later, rfl⟩
    · exact ready_made rfl (by grind)
    · exact .inl ⟨inSteps, reaches⟩
    · exact ready_made rfl (by grind)
  | optimizerEmbed step =>
    rcases mem with rfl | rfl | rfl
    · exact .inl trivial
    · exact ready_made rfl (by grind)
    · exact .inl trivial
  | optimizerBlock step layer =>
    rcases mem with rfl | rfl | rfl
    · exact .inl reaches
    · exact ready_made rfl (by grind)
    · exact .inl reaches
  | optimizerHead step =>
    have untied := reaches
    rcases mem with rfl | rfl | rfl
    · exact .inl untied
    · exact @ready_made _ _ _ (.headLoss step 0) (by grind [creator]) (by grind)
    · exact .inl untied

/-! ### tasks are regular -/

theorem auxIds_nodup : shape.auxIds.Nodup :=
  (nodup_range.filter _).map fun _ _ same => ObjectName.aux.inj same

theorem auxIns_nodup (proper : shape.Proper) (step round layer : Nat) :
    (shape.auxIns step round layer).Nodup := by
  rw [auxIns]
  cases found : shape.auxProducerOf layer with
  | none => split <;> simp
  | some producer =>
    obtain ⟨share, mem, rfl, consumes⟩ := auxProducerOf_some found
    have less := (proper.shares share mem).later layer consumes
    split <;> simp
    omega

theorem mem_auxGradIns (mem : input ∈ shape.auxGradIns step round layer) :
    ∃ leader, input = .dAuxTemp step round leader := by
  rw [auxGradIns] at mem
  split at mem
  · split at mem
    · exact absurd mem not_mem_nil
    · exact ⟨_, mem_singleton.mp mem⟩
  · exact absurd mem not_mem_nil

theorem auxGradIns_nodup (step round layer : Nat) : (shape.auxGradIns step round layer).Nodup := by
  rw [auxGradIns]
  split
  · split <;> simp
  · simp

theorem auxGradMutates_subset {name : ObjectName}
    (mem : name ∈ shape.auxGradMutates step round layer) :
    name ∈ shape.auxGradIns step round layer := by
  rw [auxGradMutates] at mem
  rw [auxGradIns]
  grind

theorem mem_retained (mem : input ∈ shape.retained step round layer) :
    ∃ earlier < round, input = .auxTemp step earlier layer := by
  rw [Shape.retained] at mem
  split at mem
  · obtain ⟨earlier, less, rfl⟩ := mem_map.mp mem
    exact ⟨earlier, mem_range.mp less, rfl⟩
  · exact absurd mem not_mem_nil

theorem retained_nodup (step round layer : Nat) : (shape.retained step round layer).Nodup := by
  rw [Shape.retained]
  split
  · exact nodup_range.map fun _ _ same => (ObjectName.auxTemp.inj same).2.1
  · exact nodup_nil

theorem xId_cases (step round layer : Nat) :
    xId step round layer = .yEmbed step round ∨ ∃ other, xId step round layer = .y step round other := by
  rw [xId]
  split
  · exact .inl rfl
  · exact .inr ⟨_, rfl⟩

/-- Tells the groups of a backward's inputs apart. -/
def inputKind : ObjectName → Nat
  | .auxTemp .. => 1
  | .dw .. => 2
  | .dAuxTemp .. => 3
  | .aux _ => 4
  | _ => 0

/-- A list without repetition whose names are of kinds below the bound. -/
def Kinds (names : List ObjectName) (bound : Nat) : Prop :=
  names.Nodup ∧ ∀ name ∈ names, inputKind name < bound

theorem Kinds.append {names : List ObjectName} {bound : Nat} (kinds : Kinds names bound)
    (more : List ObjectName) (distinct : more.Nodup) (kind : ∀ name ∈ more, inputKind name = bound) :
    Kinds (names ++ more) (bound + 1) := by
  refine ⟨nodup_append'.mpr ⟨kinds.1, distinct, fun name old new => ?_⟩, fun name mem => ?_⟩
  · exact absurd (kind name new) (kinds.2 name old).ne
  · rcases mem_append.mp mem with old | new
    · exact (kinds.2 name old).trans (Nat.lt_succ_self bound)
    · exact (kind name new).trans_lt (Nat.lt_succ_self bound)

section

variable (proper : shape.Proper)
include proper

theorem blockBwd_inputs_nodup (step round layer : Nat) :
    (shape.blockBwd step round layer).inputs.Nodup := by
  have listed : Kinds [.dy step round layer, .a step round layer, xId step round layer,
      .w layer] 1 := by
    rcases xId_cases step round layer with same | ⟨other, same⟩ <;> simp [Kinds, same, inputKind]
  have aux := listed.append _ (auxIns_nodup proper step round layer) fun name mem => by
    obtain ⟨other, -, rfl⟩ := mem_auxIns.mp mem
    rfl
  have gradient := aux.append (if firstRound round then [] else [.dw step layer])
    (by split <;> simp) (by split <;> simp [inputKind])
  have auxGrad := gradient.append (shape.auxGradIns step round layer) (auxGradIns_nodup _ _ _)
    fun name mem => by
      obtain ⟨leader, rfl⟩ := mem_auxGradIns mem
      rfl
  have counts := auxGrad.append (if shape.readsCounts round layer then [.aux layer] else [])
    (by split <;> simp) (by split <;> simp [inputKind])
  refine nodup_append'.mpr ⟨counts.1, retained_nodup _ _ _, fun name mem inRetained => ?_⟩
  -- own and earlier AuxTemps are of one kind, but of different rounds
  obtain ⟨earlier, less, rfl⟩ := mem_retained inRetained
  have notGrad : .auxTemp step earlier layer ∉ shape.auxGradIns step round layer := by
    intro there
    obtain ⟨leader, same⟩ := mem_auxGradIns there
    cases same
  have own : .auxTemp step earlier layer ∈ shape.auxIns step round layer := by
    rcases xId_cases step round layer with same | ⟨other, same⟩ <;> simpa [same, notGrad] using mem
  obtain ⟨other, -, same⟩ := mem_auxIns.mp own
  have equal := (ObjectName.auxTemp.inj same).2.1
  omega

theorem tpComm_named (layer : Nat) : ∀ entry ∈ shape.tpComm layer, entry.1 ≠ "" ∧ entry.2 ≠ "" := by
  intro entry mem
  rw [tpComm] at mem
  split at mem
  · split at mem
    · rename_i group found
      rw [mem_singleton.mp mem]
      exact ⟨(by decide : "tp" ≠ ""), proper.group group found⟩
    · exact absurd mem not_mem_nil
  · exact absurd mem not_mem_nil

theorem optComm_named : ∀ entry ∈ shape.optComm, entry.1 ≠ "" ∧ entry.2 ≠ "" := by
  intro entry mem
  rw [optComm] at mem
  split at mem
  · rename_i group found
    rw [mem_singleton.mp mem]
    exact ⟨(by decide : "dp" ≠ ""), proper.group group found⟩
  · exact absurd mem not_mem_nil

theorem optimizer_regular (name : TaskName)
    {weights gradient state : ObjectName} {runtimeUs : ℚ} (cost : 0 ≤ runtimeUs)
    (distinct : [weights, gradient, state].Nodup) :
    (shape.optimizer name weights gradient state runtimeUs).Regular where
  runtime := cost
  groups := optComm_named proper
  distinct := distinct
  mutates := by
    intro object mem
    rcases mem_pair.mp mem with rfl | rfl <;> simp [optimizer]

theorem blockBwd_regular (step round layer : Nat) : (shape.blockBwd step round layer).Regular where
  runtime := (proper.blockCosts layer).2.1
  groups := tpComm_named proper layer
  distinct := blockBwd_inputs_nodup proper step round layer
  mutates := by
    intro object mem
    simp only [blockBwd, mem_append] at mem ⊢
    rcases mem with (gradient | auxGrad) | weights
    · exact .inl (.inl (.inl (.inr gradient)))
    · exact .inl (.inl (.inr (auxGradMutates_subset auxGrad)))
    · have same := (mem_ite_nil_right.mp weights).2
      simp [mem_singleton.mp same]

theorem blockFwd_regular (step round layer : Nat) : (shape.blockFwd step round layer).Regular where
  runtime := (proper.blockCosts layer).1
  groups := tpComm_named proper layer
  distinct := by
    have split := xId_cases step round layer
    cases found : shape.auxProducerOf layer <;> cases counted : shape.counts layer <;>
      rcases split with same | ⟨other, same⟩ <;> simp [blockFwd, found, counted, same]
  mutates := by
    intro object mem
    obtain ⟨counted, only⟩ := mem_ite_nil_right.mp mem
    simp [blockFwd, counted, mem_singleton.mp only]

theorem task_regular : (shape.task name).Regular := by
  cases name with
  | prologueRound step round =>
    refine ⟨(zero_le_one : (0 : ℚ) ≤ 1), forall_mem_nil _, ?_, fun _ mem => mem⟩
    simp only [task, prologueRound]
    split
    · exact auxIds_nodup
    · exact nodup_nil
  | embedFwd step round =>
    refine ⟨proper.costs.1, forall_mem_nil _, ?_, forall_mem_nil _⟩
    simp only [task, embedFwd]
    split <;> simp
  | blockFwd step round layer => exact blockFwd_regular proper step round layer
  | headLoss step round =>
    refine ⟨proper.costs.2.2.1, forall_mem_nil _, ?_,
      fun _ mem => mem_append_right _ mem⟩
    cases tied : shape.tied <;> cases first : firstRound round <;>
      simp [task, headLoss, headW, headDw, tied, first]
  | blockRecompute step round layer =>
    refine ⟨(proper.blockCosts layer).2.2.1, tpComm_named proper layer, ?_,
      forall_mem_nil _⟩
    refine nodup_append'.mpr ⟨?_, auxIns_nodup proper _ _ _, fun name listed aux => ?_⟩
    · rcases xId_cases step round layer with same | ⟨other, same⟩ <;> simp [same]
    · obtain ⟨other, -, rfl⟩ := mem_auxIns.mp aux
      rcases xId_cases step round layer with same | ⟨before, same⟩ <;> simp [same] at listed
  | blockBwd step round layer => exact blockBwd_regular proper step round layer
  | embedBwd step round =>
    refine ⟨proper.costs.2.1, forall_mem_nil _, ?_,
      fun _ mem => mem_append_right _ mem⟩
    simp only [task, embedBwd]
    split <;> simp
  | optimizerEmbed step => exact optimizer_regular proper _ proper.costs.2.2.2.1 (by simp)
  | optimizerBlock step layer =>
    exact optimizer_regular proper _ (proper.blockCosts layer).2.2.2 (by simp)
  | optimizerHead step => exact optimizer_regular proper _ proper.costs.2.2.2.2 (by simp)

end

theorem created_nodup (name : TaskName) : (shape.task name).created.Nodup := by
  cases name <;> simp only [task, prologueRound, embedFwd, blockFwd, headLoss, blockRecompute,
    blockBwd, embedBwd, optimizer, auxGradOuts, DraftTask.created, rows, headDw] <;> grind

@[simp] theorem task_name (name : TaskName) : (shape.task name).name = name := by
  cases name <;> rfl

theorem initial_not_created (initial : shape.Initial object) : shape.creator object = none := by
  cases object <;> simp_all [Initial, creator]

theorem mem_losses {name : ObjectName} :
    name ∈ shape.losses ↔ ∃ step < shape.numSteps, ∃ round < shape.gradAccumRounds,
      name = .loss step round := by
  simp [losses, eq_comm (b := name)]

theorem mem_places : (step, round, layer) ∈ shape.places ↔
      step < shape.numSteps ∧ round < shape.gradAccumRounds ∧ layer < shape.nLayers := by
  simp [places]

theorem build_sound (proper : shape.Proper) : shape.build.Sound := by
  have names : shape.build.tasks.map DraftTask.name = shape.chain := by
    simp [build, Function.comp_def]
  have reached {name : TaskName} (mem : name ∈ shape.chain) := (mem_chain proper.rounds).mp mem
  refine
    { named := proper.named
      distinct := names ▸ chain_nodup proper.rounds
      fresh := ?_
      regular := ?_
      supplied := ?_
      finals := ?_
      capacity := proper.capacity
      bandwidth := proper.bandwidth
      rewrites := ?_ }
  · have made := nodup_created (chain_nodup proper.rounds) (fun name _ => created_nodup name)
      fun name mem object => (mem_created proper (reached mem).2).mp
    refine nodup_append'.mpr ⟨initialNames_nodup, made, fun object initial created => ?_⟩
    obtain ⟨task, inTasks, creates⟩ := mem_flatMap.mp created
    obtain ⟨name, mem, rfl⟩ := mem_map.mp inTasks
    have origin := (mem_created proper (reached mem).2).mp creates
    rw [initial_not_created (mem_initialNames.mp initial)] at origin
    exact nomatch origin
  · intro task mem
    obtain ⟨name, -, rfl⟩ := mem_map.mp mem
    exact task_regular proper
  · refine supplied_of_earlier Before.asymm (chain_ordered proper.rounds) ?_
    intro name mem input reads
    obtain ⟨inSteps, reaches⟩ := reached mem
    rcases inputs_ready proper reaches inSteps reads with initial |
      ⟨other, origin, otherReaches, before⟩
    · exact .inl (mem_initialNames.mpr initial)
    have atMost : other.step ≤ name.step := by
      simp only [Before] at before
      omega
    exact .inr ⟨other, (mem_chain proper.rounds).mpr ⟨by omega, otherReaches⟩, before,
      (mem_created proper otherReaches).mpr origin⟩
  · intro entry mem
    obtain ⟨name, inFinals, rfl⟩ := mem_map.mp mem
    rcases mem_append.mp inFinals with parameter | loss
    · refine mem_append_left _ ?_
      rw [initial_names]
      exact mem_append_left _ parameter
    obtain ⟨step, inSteps, round, inRounds, rfl⟩ := mem_losses.mp loss
    have inChain : TaskName.headLoss step round ∈ shape.chain :=
      (mem_chain proper.rounds).mpr ⟨inSteps, inRounds⟩
    refine mem_append_right _ (mem_flatMap.mpr
      ⟨_, mem_map_of_mem inChain, (mem_created proper ?_).mpr rfl⟩)
    exact inRounds
  · rintro ⟨step, round, layer⟩ mem
    obtain ⟨inSteps, inRounds, inLayers⟩ := mem_places.mp mem
    rw [names]
    exact (mem_chain proper.rounds).mpr ⟨inSteps, inRounds, inLayers⟩

end Shape

end Dataflow.Lowering
