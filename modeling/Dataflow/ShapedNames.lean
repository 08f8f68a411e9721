import Mathlib.Data.List.Basic
import Mathlib.Tactic.Common

/-!
The id grammar of lowered training programs. Objects and tasks of a chain have
ids such as `A_{s}_{r}_{i}` or `block_bwd_{s}_{r}_{i}` for step `s`, round `r`
and layer `i`. A name is a list of words without underscores, so different names
have different ids.
-/

namespace Dataflow.Lowering

open List

def joined (words : List String) : String :=
  String.ofList (['_'].intercalate (words.map String.toList))

inductive ObjectName where
  | wEmbed
  | oEmbed
  | wHead
  | oHead
  | w (layer : Nat)
  | o (layer : Nat)
  | aux (layer : Nat)
  | tokens (step round : Nat)
  | targets (step round : Nat)
  | currentRound (step round : Nat)
  | yEmbed (step round : Nat)
  | y (step round layer : Nat)
  | a (step round layer : Nat)
  | auxTemp (step round layer : Nat)
  | dyEmbed (step round : Nat)
  | dy (step round layer : Nat)
  | dAuxTemp (step round layer : Nat)
  | loss (step round : Nat)
  | dwEmbed (step : Nat)
  | dwHead (step : Nat)
  | dw (step layer : Nat)
  deriving DecidableEq

inductive TaskName where
  | prologueRound (step round : Nat)
  | embedFwd (step round : Nat)
  | blockFwd (step round layer : Nat)
  | headLoss (step round : Nat)
  | blockRecompute (step round layer : Nat)
  | blockBwd (step round layer : Nat)
  | embedBwd (step round : Nat)
  | optimizerEmbed (step : Nat)
  | optimizerBlock (step layer : Nat)
  | optimizerHead (step : Nat)
  deriving DecidableEq

def ObjectName.words : ObjectName → List String
  | .wEmbed => ["W", "embed"]
  | .oEmbed => ["O", "embed"]
  | .wHead => ["W", "head"]
  | .oHead => ["O", "head"]
  | .w layer => ["W", layer.repr]
  | .o layer => ["O", layer.repr]
  | .aux layer => ["Aux", layer.repr]
  | .tokens step round => ["tokens", step.repr, round.repr]
  | .targets step round => ["targets", step.repr, round.repr]
  | .currentRound step round => ["current", "round", step.repr, round.repr]
  | .yEmbed step round => ["y", "embed", step.repr, round.repr]
  | .y step round layer => ["y", step.repr, round.repr, layer.repr]
  | .a step round layer => ["A", step.repr, round.repr, layer.repr]
  | .auxTemp step round layer => ["AuxTemp", step.repr, round.repr, layer.repr]
  | .dyEmbed step round => ["dy", "embed", step.repr, round.repr]
  | .dy step round layer => ["dy", step.repr, round.repr, layer.repr]
  | .dAuxTemp step round layer => ["dAuxTemp", step.repr, round.repr, layer.repr]
  | .loss step round => ["loss", step.repr, round.repr]
  | .dwEmbed step => ["dW", "embed", step.repr]
  | .dwHead step => ["dW", "head", step.repr]
  | .dw step layer => ["dW", step.repr, layer.repr]

def TaskName.words : TaskName → List String
  | .prologueRound step round => ["prologue", "round", step.repr, round.repr]
  | .embedFwd step round => ["embed", "fwd", step.repr, round.repr]
  | .blockFwd step round layer => ["block", "fwd", step.repr, round.repr, layer.repr]
  | .headLoss step round => ["head", "loss", step.repr, round.repr]
  | .blockRecompute step round layer => ["block", "recompute", step.repr, round.repr, layer.repr]
  | .blockBwd step round layer => ["block", "bwd", step.repr, round.repr, layer.repr]
  | .embedBwd step round => ["embed", "bwd", step.repr, round.repr]
  | .optimizerEmbed step => ["optimizer", "embed", step.repr]
  | .optimizerBlock step layer => ["optimizer", step.repr, layer.repr]
  | .optimizerHead step => ["optimizer", "head", step.repr]

def ObjectName.id (name : ObjectName) : String := joined name.words

def TaskName.id (name : TaskName) : String := joined name.words

example : (ObjectName.a 0 1 12).id = "A_0_1_12" := by decide

/-! ### ids tell names apart -/

theorem joined_injective {words others : List String} (same : joined words = joined others)
    (plain : ∀ word ∈ words, '_' ∉ word.toList) (otherPlain : ∀ word ∈ others, '_' ∉ word.toList)
    (nonempty : words ≠ []) (otherNonempty : others ≠ []) : words = others := by
  have split (list : List String) (clear : ∀ word ∈ list, '_' ∉ word.toList) (some_ : list ≠ []) :
      splitOn '_' (['_'].intercalate (list.map String.toList)) = list.map String.toList := by
    refine splitOn_intercalate '_' (fun letters mem => ?_) (by simpa using some_)
    obtain ⟨word, inList, rfl⟩ := mem_map.mp mem
    exact clear word inList
  have letters := congrArg String.toList same
  rw [joined, joined, String.toList_ofList, String.toList_ofList] at letters
  have lists : words.map String.toList = others.map String.toList := by
    rw [← split words plain nonempty, ← split others otherPlain otherNonempty, letters]
  exact (map_inj_right fun _ _ => String.toList_inj.mp).mp lists

theorem repr_digits {number : Nat} {letter : Char} (mem : letter ∈ number.repr.toList) :
    letter.isDigit = true := by
  rw [Nat.toList_repr] at mem
  exact Nat.isDigit_of_mem_toDigits (by decide) (by decide) mem

@[simp] theorem repr_ne_embed (number : Nat) : number.repr ≠ "embed" := by
  intro same
  have letter : 'e' ∈ number.repr.toList := by rw [same]; decide
  exact absurd (repr_digits letter) (by decide)

@[simp] theorem repr_ne_head (number : Nat) : number.repr ≠ "head" := by
  intro same
  have letter : 'h' ∈ number.repr.toList := by rw [same]; decide
  exact absurd (repr_digits letter) (by decide)

/-- `int` of a word of digits. -/
def number (word : String) : Nat := Nat.ofDigitChars 10 word.toList 0

@[simp] theorem number_repr (value : Nat) : number value.repr = value := by
  rw [number, Nat.toList_repr]
  exact Nat.ofDigitChars_toDigits (by decide) (by decide)

def ObjectName.decode : List String → Option ObjectName
  | ["W", word] => some (
      if word = "embed" then .wEmbed else if word = "head" then .wHead else .w (number word))
  | ["O", word] => some (
      if word = "embed" then .oEmbed else if word = "head" then .oHead else .o (number word))
  | ["Aux", layer] => some (.aux (number layer))
  | ["tokens", step, round] => some (.tokens (number step) (number round))
  | ["targets", step, round] => some (.targets (number step) (number round))
  | ["loss", step, round] => some (.loss (number step) (number round))
  | ["dW", word, last] => some (
      if word = "embed" then .dwEmbed (number last)
      else if word = "head" then .dwHead (number last) else .dw (number word) (number last))
  | ["current", "round", step, round] => some (.currentRound (number step) (number round))
  | ["y", word, middle, last] => some (
      if word = "embed" then .yEmbed (number middle) (number last)
      else .y (number word) (number middle) (number last))
  | ["dy", word, middle, last] => some (
      if word = "embed" then .dyEmbed (number middle) (number last)
      else .dy (number word) (number middle) (number last))
  | ["A", step, round, layer] => some (.a (number step) (number round) (number layer))
  | ["AuxTemp", step, round, layer] => some (.auxTemp (number step) (number round) (number layer))
  | ["dAuxTemp", step, round, layer] => some (.dAuxTemp (number step) (number round) (number layer))
  | _ => none

def TaskName.decode : List String → Option TaskName
  | ["prologue", "round", step, round] => some (.prologueRound (number step) (number round))
  | ["embed", "fwd", step, round] => some (.embedFwd (number step) (number round))
  | ["head", "loss", step, round] => some (.headLoss (number step) (number round))
  | ["embed", "bwd", step, round] => some (.embedBwd (number step) (number round))
  | ["block", "fwd", step, round, layer] => some (.blockFwd (number step) (number round) (number layer))
  | ["block", "recompute", step, round, layer] =>
    some (.blockRecompute (number step) (number round) (number layer))
  | ["block", "bwd", step, round, layer] => some (.blockBwd (number step) (number round) (number layer))
  | ["optimizer", word, last] => some (
      if word = "embed" then .optimizerEmbed (number last)
      else if word = "head" then .optimizerHead (number last)
      else .optimizerBlock (number word) (number last))
  | _ => none

theorem ObjectName.decode_words (name : ObjectName) : decode name.words = some name := by
  cases name <;> simp [ObjectName.words, ObjectName.decode]

theorem TaskName.decode_words (name : TaskName) : decode name.words = some name := by
  cases name <;> simp [TaskName.words, TaskName.decode]

theorem ObjectName.words_plain (name : ObjectName) :
    name.words ≠ [] ∧ ∀ word ∈ name.words, '_' ∉ word.toList := by
  cases name <;> simp [ObjectName.words]

theorem TaskName.words_plain (name : TaskName) :
    name.words ≠ [] ∧ ∀ word ∈ name.words, '_' ∉ word.toList := by
  cases name <;> simp [TaskName.words]

theorem ObjectName.id_injective : Function.Injective ObjectName.id := by
  intro name other same
  have words := joined_injective same name.words_plain.2 other.words_plain.2 name.words_plain.1
    other.words_plain.1
  have decoded := congrArg decode words
  rw [decode_words, decode_words] at decoded
  exact Option.some.inj decoded

theorem TaskName.id_injective : Function.Injective TaskName.id := by
  intro name other same
  have words := joined_injective same name.words_plain.2 other.words_plain.2 name.words_plain.1
    other.words_plain.1
  have decoded := congrArg decode words
  rw [decode_words, decode_words] at decoded
  exact Option.some.inj decoded

end Dataflow.Lowering
