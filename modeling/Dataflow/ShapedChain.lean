import Dataflow.DraftValidity

/-!
The order of the shaped chain. Every task of the chain has a place: its step, the
round it belongs to and an offset in that round; optimizers in tail placement get
a slot after the last round. The builder's loops emit tasks by increasing place,
and a name is in the chain exactly if its step, round and layer are in range.
-/

namespace Dataflow.Lowering

open List

/-- A list whose keys increase inside a band. -/
structure Within {α : Type} (key : α → Nat) (low high : Nat) (list : List α) : Prop where
  ordered : list.Pairwise fun left right => key left < key right
  band : ∀ item ∈ list, low ≤ key item ∧ key item < high

namespace Within

variable {α : Type} {key : α → Nat} {low middle high : Nat}

theorem nil : Within key low high [] := ⟨.nil, fun _ mem => nomatch mem⟩

theorem single {item : α} (lower : low ≤ key item) (upper : key item < high) :
    Within key low high [item] := by
  refine ⟨pairwise_singleton _ _, fun other mem => ?_⟩
  rw [mem_singleton.mp mem]
  exact ⟨lower, upper⟩

theorem ite {condition : Prop} [Decidable condition] {list : List α}
    (within : Within key low high list) : Within key low high (if condition then list else []) := by
  split
  · exact within
  · exact nil

theorem append {first second : List α} (left : Within key low middle first)
    (right : Within key middle high second) (lower : low ≤ middle) (upper : middle ≤ high) :
    Within key low high (first ++ second) := by
  constructor
  · refine pairwise_append.mpr ⟨left.ordered, right.ordered, fun a inFirst b inSecond => ?_⟩
    have before := (left.band a inFirst).2
    have after := (right.band b inSecond).1
    omega
  intro item mem
  rcases mem_append.mp mem with inFirst | inSecond
  · have bounds := left.band item inFirst
    omega
  · have bounds := right.band item inSecond
    omega

theorem flatMap_range (width : Nat) {count : Nat} {pieces : Nat → List α} (each : ∀ index < count,
      Within key (low + width * index) (low + width * (index + 1)) (pieces index)) :
    Within key low (low + width * count) ((range count).flatMap pieces) := by
  induction count with
  | zero => exact nil
  | succ count ih =>
    rw [range_succ, flatMap_append, flatMap_singleton]
    refine (ih fun index inside => each index (by omega)).append (each count (by omega)) ?_ ?_
    · exact Nat.le_add_right _ _
    · exact Nat.add_le_add_left (Nat.mul_le_mul_left width (Nat.le_succ count)) low

theorem weaken {lowest highest : Nat} {list : List α} (within : Within key low high list)
    (lower : lowest ≤ low) (upper : high ≤ highest) : Within key lowest highest list :=
  ⟨within.ordered, fun item mem => by
    have bounds := within.band item mem
    omega⟩

end Within

/-! ### places -/

def TaskName.step : TaskName → Nat
  | .prologueRound step _ | .embedFwd step _ | .blockFwd step _ _ | .headLoss step _
  | .blockRecompute step _ _ | .blockBwd step _ _ | .embedBwd step _ | .optimizerEmbed step
  | .optimizerBlock step _ | .optimizerHead step => step

namespace Shape

variable (shape : Shape)

/-- The round of an optimizer task; tail placement is after every round. -/
def optimizerSlot : Nat :=
  if shape.interleaved then shape.gradAccumRounds - 1 else shape.gradAccumRounds

def slot : TaskName → Nat
  | .prologueRound _ round | .embedFwd _ round | .blockFwd _ round _ | .headLoss _ round
  | .blockRecompute _ round _ | .blockBwd _ round _ | .embedBwd _ round => round
  | .optimizerEmbed _ | .optimizerBlock _ _ | .optimizerHead _ => shape.optimizerSlot

/-- The layers run backwards, three offsets each: recompute, backward, optimizer. -/
def backwardOffset (layer : Nat) : Nat := shape.nLayers + 4 + 3 * (shape.nLayers - 1 - layer)

def offset : TaskName → Nat
  | .prologueRound .. => 0
  | .embedFwd .. => 1
  | .blockFwd _ _ layer => 2 + layer
  | .headLoss .. => shape.nLayers + 2
  | .blockRecompute _ _ layer => shape.backwardOffset layer
  | .blockBwd _ _ layer => shape.backwardOffset layer + 1
  | .embedBwd .. => 4 * shape.nLayers + 4
  | .optimizerHead _ => if shape.interleaved then shape.nLayers + 3 else shape.nLayers + 1
  | .optimizerBlock _ layer =>
    if shape.interleaved then shape.backwardOffset layer + 2 else 1 + layer
  | .optimizerEmbed _ => if shape.interleaved then 4 * shape.nLayers + 5 else 0

def Before (left right : TaskName) : Prop :=
  left.step < right.step ∨ left.step = right.step ∧
    (shape.slot left < shape.slot right ∨ shape.slot left = shape.slot right ∧
      shape.offset left < shape.offset right)

variable {shape}
  {left right : TaskName} {layer step round : Nat}

theorem Before.asymm (first : shape.Before left right) :
    ¬ shape.Before right left := by
  simp only [Before] at *
  omega

theorem Before.ne (first : shape.Before left right) : left ≠ right := by
  rintro rfl
  exact first.asymm first

/-! ### the loops emit by increasing place -/

theorem backward_within (step round : Nat) :
    Within shape.offset (shape.backwardOffset layer) (shape.backwardOffset layer + 3)
      (shape.backwardChain step round layer) := by
  have recompute : Within shape.offset (shape.backwardOffset layer) (shape.backwardOffset layer + 1)
      (if shape.level step round layer = 1 then [.blockRecompute step round layer] else []) :=
    Within.ite (Within.single (le_refl _) (Nat.lt_succ_self _))
  have backward : Within shape.offset (shape.backwardOffset layer + 1)
      (shape.backwardOffset layer + 2) [.blockBwd step round layer] :=
    Within.single (le_refl _) (Nat.lt_succ_self _)
  have optimizer : Within shape.offset (shape.backwardOffset layer + 2)
      (shape.backwardOffset layer + 3)
      (if shape.follows round then [.optimizerBlock step layer] else []) := by
    by_cases follows : shape.follows round = true
    · have interleaved : shape.interleaved = true := (Bool.and_eq_true_iff.mp follows).1
      rw [if_pos follows]
      refine Within.single ?_ ?_ <;> simp [offset, interleaved]
    · rw [if_neg follows]
      exact Within.nil
  exact (recompute.append backward (by omega) (by omega)).append optimizer (by omega) (by omega)

theorem reverse_flatMap {α : Type} (count : Nat) (pieces : Nat → List α) :
    (range count).reverse.flatMap pieces =
      (range count).flatMap fun index => pieces (count - 1 - index) := by
  rw [range_eq_range', reverse_range', flatMap_map, ← range_eq_range']
  simp

theorem backwards_within (step round : Nat) :
    Within shape.offset (shape.nLayers + 4) (4 * shape.nLayers + 4)
      ((range shape.nLayers).reverse.flatMap (shape.backwardChain step round)) := by
  rw [reverse_flatMap]
  refine (Within.flatMap_range 3 fun index inside => ?_).weaken (le_refl _) (by omega)
  refine (backward_within step round).weaken ?_ ?_ <;> simp only [backwardOffset] <;> omega

theorem forwards_within (step round : Nat) : Within shape.offset 2 (shape.nLayers + 2)
      ((range shape.nLayers).map (TaskName.blockFwd step round)) := by
  rw [← flatMap_pure_eq_map]
  refine (Within.flatMap_range 1 fun index inside => ?_).weaken (le_refl _) (by omega)
  exact Within.single (by simp [offset]) (by simp [offset])

theorem round_within (step round : Nat) :
    Within shape.offset 0 (4 * shape.nLayers + 6) (shape.roundChain step round) := by
  have prologue : Within shape.offset 0 1
      (if shape.roundPrologue then [.prologueRound step round] else []) :=
    Within.ite (Within.single (le_refl _) (Nat.lt_succ_self _))
  have embed : Within shape.offset 1 2 [.embedFwd step round] :=
    Within.single (le_refl _) (Nat.lt_succ_self _)
  have head : Within shape.offset (shape.nLayers + 2) (shape.nLayers + 3) [.headLoss step round] :=
    Within.single (le_refl _) (Nat.lt_succ_self _)
  have optimizerHead : Within shape.offset (shape.nLayers + 3) (shape.nLayers + 4)
      (if shape.follows round && !shape.tied then [.optimizerHead step] else []) := by
    by_cases interleaved : shape.interleaved = true
    · refine Within.ite (Within.single ?_ ?_) <;> simp [offset, interleaved]
    · simp only [follows, interleaved, Bool.false_and, Bool.false_eq_true, if_false]
      exact Within.nil
  have embedBwd : Within shape.offset (4 * shape.nLayers + 4) (4 * shape.nLayers + 5)
      [.embedBwd step round] :=
    Within.single (le_refl _) (Nat.lt_succ_self _)
  have optimizerEmbed : Within shape.offset (4 * shape.nLayers + 5) (4 * shape.nLayers + 6)
      (if shape.follows round then [.optimizerEmbed step] else []) := by
    by_cases interleaved : shape.interleaved = true
    · refine Within.ite (Within.single ?_ ?_) <;> simp [offset, interleaved]
    · simp only [follows, interleaved, Bool.false_and, Bool.false_eq_true, if_false]
      exact Within.nil
  have forward := (prologue.append embed (by omega) (by omega)).append
    (forwards_within step round) (by omega) (by omega)
  have loss := (forward.append head (by omega) (by omega)).append optimizerHead (by omega) (by omega)
  have backward := loss.append (backwards_within step round) (by omega) (by omega)
  exact (backward.append embedBwd (by omega) (by omega)).append optimizerEmbed (by omega) (by omega)

theorem tail_within (step : Nat) :
    Within shape.offset 0 (shape.nLayers + 2) (shape.tailChain step) := by
  by_cases interleaved : shape.interleaved = true
  · rw [tailChain, if_pos interleaved]
    exact Within.nil
  have embed : Within shape.offset 0 1 [.optimizerEmbed step] := by
    refine Within.single ?_ ?_ <;> simp [offset, interleaved]
  have blocks : Within shape.offset 1 (shape.nLayers + 1)
      ((range shape.nLayers).map (TaskName.optimizerBlock step)) := by
    rw [← flatMap_pure_eq_map]
    refine (Within.flatMap_range 1 fun index inside => ?_).weaken (le_refl _) (by omega)
    refine Within.single ?_ ?_ <;> simp [offset, interleaved]
  have head : Within shape.offset (shape.nLayers + 1) (shape.nLayers + 2)
      (if shape.tied then [] else [.optimizerHead step]) := by
    split
    · exact Within.nil
    · refine Within.single ?_ ?_ <;> simp [offset, interleaved]
  rw [tailChain, if_neg interleaved]
  exact (embed.append blocks (by omega) (by omega)).append head (by omega) (by omega)

/-! ### what the chain holds -/

def Reaches (shape : Shape) : TaskName → Prop
  | .prologueRound _ round => round < shape.gradAccumRounds ∧ shape.roundPrologue = true
  | .embedFwd _ round | .headLoss _ round | .embedBwd _ round => round < shape.gradAccumRounds
  | .blockFwd _ round layer | .blockBwd _ round layer =>
    round < shape.gradAccumRounds ∧ layer < shape.nLayers
  | .blockRecompute step round layer =>
    round < shape.gradAccumRounds ∧ layer < shape.nLayers ∧ shape.level step round layer = 1
  | .optimizerEmbed _ => True
  | .optimizerBlock _ layer => layer < shape.nLayers
  | .optimizerHead _ => shape.tied = false

variable {name : TaskName}

theorem mem_backward : name ∈ shape.backwardChain step round layer ↔
      (name = .blockRecompute step round layer ∧ shape.level step round layer = 1) ∨
      name = .blockBwd step round layer ∨
      (name = .optimizerBlock step layer ∧ shape.follows round = true) := by
  simp only [backwardChain, mem_append, mem_ite_nil_right, mem_singleton]
  tauto

theorem mem_round : name ∈ shape.roundChain step round ↔
      (name = .prologueRound step round ∧ shape.roundPrologue = true) ∨
      name = .embedFwd step round ∨ (∃ layer < shape.nLayers, name = .blockFwd step round layer) ∨
      name = .headLoss step round ∨
      (name = .optimizerHead step ∧ shape.follows round = true ∧ shape.tied = false) ∨
      (∃ layer < shape.nLayers, name ∈ shape.backwardChain step round layer) ∨
      name = .embedBwd step round ∨ (name = .optimizerEmbed step ∧ shape.follows round = true) := by
  simp only [roundChain, mem_append, mem_ite_nil_right, mem_singleton,
    mem_map, mem_flatMap, mem_reverse, mem_range, Bool.and_eq_true,
    Bool.not_eq_true', eq_comm (b := name), or_assoc, and_comm (a := name = _), and_assoc]

theorem follows_iff : shape.follows round = true ↔
      shape.interleaved = true ∧ round + 1 = shape.gradAccumRounds := by
  rw [follows, lastRound, Bool.and_eq_true, decide_eq_true_eq]

theorem mem_tail : name ∈ shape.tailChain step ↔ shape.interleaved = false ∧
      (name = .optimizerEmbed step ∨ (∃ layer < shape.nLayers, name = .optimizerBlock step layer) ∨
        (name = .optimizerHead step ∧ shape.tied = false)) := by
  cases interleaved : shape.interleaved <;> cases tied : shape.tied <;>
    simp [tailChain, interleaved, tied, eq_comm (b := name)]

theorem exists_follows (rounds : 0 < shape.gradAccumRounds) (interleaved : shape.interleaved = true) :
    ∃ round < shape.gradAccumRounds, shape.follows round = true :=
  ⟨shape.gradAccumRounds - 1, by omega, follows_iff.mpr ⟨interleaved, by omega⟩⟩

theorem mem_step (rounds : 0 < shape.gradAccumRounds) :
    name ∈ shape.stepChain step ↔ name.step = step ∧ shape.Reaches name := by
  have some_ := exists_follows rounds
  simp only [stepChain, mem_append, mem_flatMap, mem_range, mem_round, mem_backward, mem_tail]
  cases name <;> simp [Reaches, TaskName.step] <;> grind

theorem mem_chain (rounds : 0 < shape.gradAccumRounds) :
    name ∈ shape.chain ↔ name.step < shape.numSteps ∧ shape.Reaches name := by
  simp [chain, mem_step rounds, ← and_assoc, and_comm]

theorem optimizerSlot_follows (follows : shape.follows round = true) :
    shape.optimizerSlot = round := by
  obtain ⟨interleaved, last⟩ := follows_iff.mp follows
  rw [optimizerSlot, if_pos interleaved]
  omega

theorem slot_round (mem : name ∈ shape.roundChain step round) :
    name.step = step ∧ shape.slot name = round := by
  simp only [mem_round, mem_backward] at mem
  rcases mem with ⟨rfl, -⟩ | rfl | ⟨layer, -, rfl⟩ | rfl | ⟨rfl, last, -⟩ |
    ⟨layer, -, ⟨rfl, -⟩ | rfl | ⟨rfl, last⟩⟩ | rfl | ⟨rfl, last⟩ <;>
    first | exact ⟨rfl, rfl⟩ | exact ⟨rfl, optimizerSlot_follows last⟩

theorem slot_tail (mem : name ∈ shape.tailChain step) :
    name.step = step ∧ shape.slot name = shape.gradAccumRounds := by
  obtain ⟨interleaved, rfl | ⟨layer, -, rfl⟩ | ⟨rfl, -⟩⟩ := mem_tail.mp mem <;>
    simp [TaskName.step, slot, optimizerSlot, interleaved]

theorem chain_ordered (rounds : 0 < shape.gradAccumRounds) : shape.chain.Pairwise shape.Before := by
  refine pairwise_flatMap.mpr ⟨fun step _ => ?_, ?_⟩
  · refine pairwise_append.mpr ⟨pairwise_flatMap.mpr ⟨fun round _ => ?_, ?_⟩, ?_, ?_⟩
    · refine (round_within step round).ordered.imp_of_mem fun inLeft inRight less => ?_
      exact .inr ⟨(slot_round inLeft).1.trans (slot_round inRight).1.symm,
        .inr ⟨(slot_round inLeft).2.trans (slot_round inRight).2.symm, less⟩⟩
    · refine pairwise_lt_range.imp fun earlier left inLeft right inRight => ?_
      have first := slot_round inLeft
      have second := slot_round inRight
      exact .inr ⟨first.1.trans second.1.symm, .inl (by omega)⟩
    · refine (tail_within step).ordered.imp_of_mem fun inLeft inRight less => ?_
      exact .inr ⟨(slot_tail inLeft).1.trans (slot_tail inRight).1.symm,
        .inr ⟨(slot_tail inLeft).2.trans (slot_tail inRight).2.symm, less⟩⟩
    intro left inRounds right inTail
    obtain ⟨round, inside, inLeft⟩ := mem_flatMap.mp inRounds
    have first := slot_round inLeft
    have second := slot_tail inTail
    have bound := mem_range.mp inside
    exact .inr ⟨first.1.trans second.1.symm, .inl (by omega)⟩
  · refine pairwise_lt_range.imp fun earlier left inLeft right inRight => ?_
    have first := ((mem_step rounds).mp inLeft).1
    have second := ((mem_step rounds).mp inRight).1
    exact .inl (by omega)

theorem chain_nodup (rounds : 0 < shape.gradAccumRounds) : shape.chain.Nodup :=
  (chain_ordered rounds).imp Before.ne

end Shape

end Dataflow.Lowering
