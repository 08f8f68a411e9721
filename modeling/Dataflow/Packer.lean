import Mathlib.Data.List.Sort
import Dataflow.DataFeed

/-!
The packer: sequences into rounds of a fixed size, rounds into steps. `greedy`
fills one round after the other in feed order, with or without splitting a
sequence at the edge of a round; `ffd` pulls a window and puts the longest
sequences first into the first round with room. What does not fit is requeued
before the cursor of the step is taken.
-/

namespace Dataflow.Data

open Lockstep

inductive Policy where
  | ffd
  | greedy
  deriving DecidableEq

/-- The arguments of a packer that its constructor accepts. -/
structure Packing where
  tokensPerRound : Nat
  gaRounds : Nat
  maxSeqlen : Nat
  allowRoundSplit : Bool := false
  policy : Policy := .ffd
  lookaheadMult : Nat := 4
  splits : allowRoundSplit = true → policy = .greedy
  packs : allowRoundSplit = false → maxSeqlen ≤ tokensPerRound

structure PackedRound (Item : Type) where
  tokens : List Int32
  targets : List Int32
  seqLens : List Nat
  extras : List (String × NdArray Item)
  deriving DecidableEq

structure PackedStep (Item Cursor : Type) where
  rounds : List (PackedRound Item)
  cursorAfter : FeedCursor Item Cursor
  deriving DecidableEq

variable {Item Cursor : Type}

def concatRound (numpy : Numpy Item) (placed : List (Sequence Item)) (tokensPerRound : Nat)
    (seqLens : List Nat) : Except Fault (PackedRound Item) := do
  let tokens := placed.flatMap Sequence.tokens
  let targets := placed.flatMap Sequence.targets
  let keys := (placed.flatMap fun sequence => sequence.extras.map Prod.fst).eraseDups
  let extras ← keys.mapM fun key =>
    let parts := placed.filterMap fun sequence => sequence.extras.lookup key
    if parts.length = placed.length then .ok (key, numpy.concatenate parts)
    else .error (.value s!"extras[{key}] missing on some sequences in the round")
  pure {
    tokens := tokens ++ List.replicate (tokensPerRound - tokens.length) 0
    targets := targets ++ List.replicate (tokensPerRound - targets.length) (-1)
    seqLens := seqLens
    extras := extras }

/-! ### greedy -/

def Sequence.slice (sequence : Sequence Item) (low high : Nat)
    (inside : low < high ∧ high ≤ sequence.length) : Sequence Item where
  tokens := (sequence.tokens.take high).drop low
  targets := (sequence.targets.take high).drop low
  nonempty := by
    have bound := inside.2
    simp only [Sequence.length] at bound
    rw [List.length_drop, List.length_take]
    omega
  aligned := by rw [List.length_drop, List.length_drop, List.length_take, List.length_take,
    sequence.aligned]

/-- The head of a split sequence on the chunk grid of its round. -/
def chunks (limit : Nat) (positive : 0 < limit) (sequence : Sequence Item) (take : Nat)
    (inside : take ≤ sequence.length) (low : Nat) : List (Sequence Item) :=
  if within : low < take then
    sequence.slice low (min (low + limit) take) ⟨by omega, by omega⟩ ::
      chunks limit positive sequence take inside (low + limit)
  else []
termination_by take - low

/-- What a round holds when it is closed, with the sequence it leaves for the next one. -/
structure Filled (Item : Type) where
  placed : List (Sequence Item)
  seqLens : List Nat
  carry : Option (Sequence Item)

def draw : Option (Sequence Item) → Pull Item Cursor (Sequence Item)
  | some sequence => pure sequence
  | none => nextSequence

def fillRound (packing : Packing) (room : Nat) (filled : Filled Item) :
    Pull Item Cursor (Filled Item) :=
  if _ : room = 0 then pure filled else do
  let sequence ← draw filled.carry
  if packing.allowRoundSplit then
    let take := min sequence.length room
    if positive : 0 < packing.maxSeqlen then
      let pieces := chunks packing.maxSeqlen positive sequence take (Nat.min_le_left _ _) 0
      let carry := if cut : take < sequence.length then
        some (sequence.slice take sequence.length ⟨cut, le_rfl⟩) else none
      fillRound packing (room - take)
        ⟨filled.placed ++ pieces, filled.seqLens ++ pieces.map Sequence.length, carry⟩
    else StateT.lift (.error (.value "range() arg 3 must not be zero"))
  else if packing.tokensPerRound < sequence.length then
    StateT.lift (.error (.value s!"sequence of {sequence.length} tokens can never fit a {packing.tokensPerRound}-token round without round splitting"))
  else if room < sequence.length then
    pure { filled with carry := some sequence }
  else
    fillRound packing (room - sequence.length)
      ⟨filled.placed ++ [sequence], filled.seqLens ++ [sequence.length], none⟩
termination_by room
decreasing_by
  all_goals have positive := sequence.nonempty
  all_goals simp only [Sequence.length] at *
  all_goals omega

def greedyRounds (numpy : Numpy Item) (packing : Packing) :
    Nat → Option (Sequence Item) → Pull Item Cursor (List (PackedRound Item) × Option (Sequence Item))
  | 0, carry => pure ([], carry)
  | count + 1, carry => do
      let filled ← fillRound packing packing.tokensPerRound ⟨[], [], carry⟩
      let round ← StateT.lift
        (concatRound numpy filled.placed packing.tokensPerRound filled.seqLens)
      let (rounds, left) ← greedyRounds numpy packing count filled.carry
      pure (round :: rounds, left)

def requeueCarry : Option (Sequence Item) → Pull Item Cursor Unit
  | some sequence => requeue [sequence]
  | none => pure ()

def greedyStep (numpy : Numpy Item) (packing : Packing) :
    Pull Item Cursor (PackedStep Item Cursor) := do
  let (rounds, carry) ← greedyRounds numpy packing packing.gaRounds none
  requeueCarry carry
  let after ← cursor
  pure ⟨rounds, after⟩

/-! ### first-fit-decreasing -/

def pullWindow (wanted : Nat) (window : List (Sequence Item)) :
    Pull Item Cursor (List (Sequence Item)) :=
  if _ : wanted = 0 then pure window else do
  let sequence ← nextSequence
  pullWindow (wanted - sequence.length) (window ++ [sequence])
termination_by wanted
decreasing_by
  have positive := sequence.nonempty
  simp only [Sequence.length]
  omega

def decreasingLength (window : List (Sequence Item)) (first second : Nat) : Prop :=
  let length (index : Nat) := (window[index]?.map Sequence.length).getD 0
  length second < length first ∨ length first = length second ∧ first ≤ second

instance (window : List (Sequence Item)) (first second : Nat) :
    Decidable (decreasingLength window first second) :=
  inferInstanceAs (Decidable (_ ∨ _))

structure Bins where
  room : List Nat
  bins : List (List Nat)
  placed : List Nat := []

def Bins.firstFit (bins : Bins) (index length : Nat) : Bins :=
  match bins.room.findIdx? fun room => length ≤ room with
  | none => bins
  | some bin =>
    { room := bins.room.modify bin (· - length)
      bins := bins.bins.modify bin (· ++ [index])
      placed := bins.placed ++ [index] }

def fillBins (packing : Packing) (window : List (Sequence Item)) : Bins :=
  ((List.range window.length).insertionSort (decreasingLength window)).foldl
    (fun bins index => bins.firstFit index ((window[index]?.map Sequence.length).getD 0))
    { room := List.replicate packing.gaRounds packing.tokensPerRound
      bins := List.replicate packing.gaRounds [] }

def leftover (window : List (Sequence Item)) (placed : List Nat) : List (Sequence Item) :=
  ((List.range window.length).filter fun index => index ∉ placed).filterMap fun index =>
    window[index]?

def ffdStep (numpy : Numpy Item) (packing : Packing) :
    Pull Item Cursor (PackedStep Item Cursor) := do
  let budget := packing.gaRounds * packing.tokensPerRound
  let window ← pullWindow (packing.lookaheadMult * budget) []
  let filled := fillBins packing window
  requeue (leftover window filled.placed)
  let rounds ← StateT.lift (filled.bins.mapM fun bin =>
    let placed := bin.filterMap fun index => window[index]?
    concatRound numpy placed packing.tokensPerRound (placed.map Sequence.length))
  let after ← cursor
  pure ⟨rounds, after⟩

def nextStep (numpy : Numpy Item) (packing : Packing) : Pull Item Cursor (PackedStep Item Cursor) :=
  match packing.policy with
  | .greedy => greedyStep numpy packing
  | .ffd => ffdStep numpy packing

def takeSteps (numpy : Numpy Item) (packing : Packing) :
    Nat → Pull Item Cursor (List (PackedStep Item Cursor))
  | 0 => pure []
  | count + 1 => do
      let step ← nextStep numpy packing
      let rest ← takeSteps numpy packing count
      pure (step :: rest)

end Dataflow.Data
