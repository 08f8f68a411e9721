import Mathlib.Data.Char
import Mathlib.Data.List.Lex
import Mathlib.Data.List.Sort
import Mathlib.Data.Nat.Digits.Lemmas

/-!
Retention of checkpoints. A step directory is named after its step, padded to six digits, and
both pruning and `resume=auto` order the directories by name. So the newest steps are kept as
long as the names of the saved steps are of one length, as they are below step 1000000.
-/

namespace Dataflow.Checkpointing

open List

/-- A step directory and the step its record holds. -/
structure Checkpoint where
  dir : List Char
  step : Nat
  deriving DecidableEq

def stepDir (step : Nat) : List Char :=
  ['s', 't', 'e', 'p', '_'] ++ (Nat.digitsAppend 10 6 step).reverse.map Nat.digitChar

def named (step : Nat) : Checkpoint := ⟨stepDir step, step⟩

/-- The complete checkpoints of a directory, as `sorted(glob(...))` lists them. -/
def complete (directory : List Checkpoint) : List Checkpoint :=
  directory.insertionSort fun first second => first.dir ≤ second.dir

def compose (directory : List Checkpoint) (step : Nat) : List Checkpoint :=
  directory.filter (·.dir ≠ stepDir step) ++ [named step]

def prune (keep : Nat) (directory : List Checkpoint) : List Checkpoint :=
  let old := (complete directory).take ((complete directory).length - keep)
  directory.filter (·.dir ∉ old.map Checkpoint.dir)

def saveCheckpoint (keep : Nat) (directory : List Checkpoint) (step : Nat) : List Checkpoint :=
  if 0 < keep then prune keep (compose directory step) else compose directory step

def resolveResume (directory : List Checkpoint) : Except String Checkpoint :=
  match (complete directory).getLast? with
  | some newest => .ok newest
  | none => .error "resume=auto found no complete checkpoint"

/-- The greatest `keep` of an increasing list of steps, or all of them. -/
def newest (keep : Nat) (saved : List Nat) : List Nat := saved.drop (saved.length - keep)

/-- After each save the newest checkpoints remain, and a resume finds the newest one. -/
def KeepsNewest (keep : Nat) (saves : List Nat) : Prop :=
  ∀ earlier step, earlier ++ [step] <+: saves →
    let directory := (earlier ++ [step]).foldl (saveCheckpoint keep) []
    directory.map Checkpoint.step ~ newest keep (earlier ++ [step]) ∧
      (resolveResume directory).map Checkpoint.step = .ok step

/-! ### names -/

theorem digit_char_lt : ∀ less < 10, ∀ more < 10, less < more →
    Nat.digitChar less < Nat.digitChar more := by
  decide

theorem digit_chars_lt {less more : List Nat} (width : less.length = more.length)
    (small : ∀ digit ∈ less, digit < 10) (large : ∀ digit ∈ more, digit < 10)
    (lower : Nat.ofDigits 10 less.reverse < Nat.ofDigits 10 more.reverse) :
    less.map Nat.digitChar < more.map Nat.digitChar := by
  induction less generalizing more with
  | nil => simp [length_eq_zero_iff.mp width.symm] at lower
  | cons first rest ih =>
    obtain _ | ⟨other, others⟩ := more
    · cases width
    simp only [length_cons, Nat.succ.injEq, forall_mem_cons, reverse_cons, Nat.ofDigits_append,
      length_reverse, Nat.ofDigits_singleton] at width small large lower
    rw [map_cons, map_cons, cons_lt_cons_iff]
    rcases Nat.lt_trichotomy first other with below | rfl | above
    · exact .inl (digit_char_lt first small.1 other large.1 below)
    · rw [width] at lower
      exact .inr ⟨rfl, ih width small.2 large.2 (Nat.lt_of_add_lt_add_right lower)⟩
    · have bound : Nat.ofDigits 10 others.reverse < 10 ^ others.reverse.length :=
        Nat.ofDigits_lt_base_pow_length (by decide) (by simpa using large.2)
      have step := Nat.mul_le_mul_left (10 ^ others.length) above
      rw [length_reverse] at bound
      rw [width] at lower
      rw [Nat.mul_succ] at step
      omega

theorem step_dir_lt {less more : Nat} (width : (stepDir less).length = (stepDir more).length)
    (lower : less < more) : stepDir less < stepDir more := by
  have value : ∀ step, Nat.ofDigits 10 (Nat.digitsAppend 10 6 step) = step := by
    intro step
    rw [Nat.digitsAppend, Nat.ofDigits_append_replicate_zero, Nat.ofDigits_digits]
  have digits : ∀ step, ∀ digit ∈ (Nat.digitsAppend 10 6 step).reverse, digit < 10 := by
    intro step digit mem
    exact Nat.lt_of_mem_digitsAppend (by decide) 6 digit (mem_reverse.mp mem)
  simp only [stepDir, length_append, length_map, Nat.add_left_cancel_iff] at width
  have chars := digit_chars_lt width (digits less) (digits more) (by simpa [value])
  simpa [stepDir, cons_lt_cons_iff] using chars

/-! ### one save -/

section Save

variable {keep step : Nat} {directory : List Checkpoint} {saves : List Nat}

theorem complete_sorted (ordered : directory.Pairwise fun first second => first.dir < second.dir) :
    complete directory = directory :=
  (ordered.imp le_of_lt).insertionSort_eq

theorem prune_sorted (ordered : directory.Pairwise fun first second => first.dir < second.dir) :
    prune keep directory = directory.drop (directory.length - keep) := by
  unfold prune
  simp only [complete_sorted ordered]
  generalize directory.length - keep = count
  rw [← take_append_drop count directory, pairwise_append] at ordered
  have stay : ∀ entry ∈ directory.drop count,
      entry.dir ∉ (directory.take count).map Checkpoint.dir := by
    intro entry later old
    obtain ⟨other, earlier, same⟩ := mem_map.mp old
    exact (ordered.2.2 other earlier entry later).ne same
  have leave : ∀ entry ∈ directory.take count,
      entry.dir ∈ (directory.take count).map Checkpoint.dir := fun entry => mem_map_of_mem
  refine (congrArg (filter _) (take_append_drop count directory)).symm.trans ?_
  rw [filter_append, filter_eq_nil_iff.mpr (by simpa using leave),
    filter_eq_self.mpr (by simpa using stay), nil_append]

/-! ### a run of saves -/

theorem newest_append (kept : 0 < keep) : newest keep (saves ++ [step]) =
    (newest keep saves ++ [step]).drop ((newest keep saves ++ [step]).length - keep) := by
  unfold newest
  by_cases few : saves.length < keep
  · simp [show saves.length - keep = 0 by omega, show saves.length + 1 - keep = 0 by omega]
  · have start : (saves ++ [step]).length - keep = saves.length - keep + 1 := by
      simp
      omega
    have one : (saves.drop (saves.length - keep) ++ [step]).length - keep = 1 := by
      simp
      omega
    rw [start, one, ← drop_append_of_le_length (Nat.sub_le _ _), drop_drop]

theorem saves_named (kept : 0 < keep)
    (ordered : saves.Pairwise fun first second => stepDir first < stepDir second) :
    saves.foldl (saveCheckpoint keep) [] = (newest keep saves).map named := by
  induction saves using reverseRecOn with
  | nil => simp [newest]
  | append_singleton earlier step ih =>
    rw [pairwise_append] at ordered
    have recent : ∀ old ∈ newest keep earlier, stepDir old < stepDir step := fun old mem =>
      ordered.2.2 old (mem_of_mem_drop mem) step mem_cons_self
    have composed : compose ((newest keep earlier).map named) step =
        (newest keep earlier ++ [step]).map named := by
      unfold compose
      rw [map_append, filter_eq_self.mpr]
      · rfl
      · simpa [named] using fun old mem => (recent old mem).ne
    have sorted : ((newest keep earlier ++ [step]).map named).Pairwise
        fun first second => first.dir < second.dir := by
      rw [pairwise_map, pairwise_append]
      refine ⟨ordered.1.sublist (drop_sublist _ _), pairwise_singleton _ _, fun old mem last same => ?_⟩
      rw [mem_singleton.mp same]
      exact recent old mem
    rw [foldl_append, ih ordered.1, foldl_cons, foldl_nil, saveCheckpoint, if_pos kept, composed,
      prune_sorted sorted, newest_append kept, map_drop, length_map]

theorem retention_keeps_newest (kept : 0 < keep) (increasing : saves.Pairwise (· < ·))
    (width : ∀ less ∈ saves, ∀ more ∈ saves, (stepDir less).length = (stepDir more).length) :
    KeepsNewest keep saves := by
  have ordered := increasing.imp_of_mem fun less more => step_dir_lt (width _ less _ more)
  intro earlier step listed directory
  have sorted := ordered.sublist listed.sublist
  have reached : directory = (newest keep (earlier ++ [step])).map named := saves_named kept sorted
  have tidy : complete directory = directory := by
    apply complete_sorted
    rw [reached, pairwise_map]
    exact sorted.sublist (drop_sublist _ _)
  have last : directory.getLast? = some (named step) := by
    have some_left : ¬(earlier ++ [step]).length ≤ (earlier ++ [step]).length - keep := by
      simp
      omega
    rw [reached, getLast?_map, newest, getLast?_drop, if_neg some_left, getLast?_concat]
    rfl
  refine ⟨.of_eq ?_, ?_⟩
  · simp [reached, Function.comp_def, named]
  · simp [resolveResume, tidy, last, Except.map, named]

theorem retention_keeps_two_of_three : KeepsNewest 2 [1, 20, 300000] :=
  retention_keeps_newest (by decide) (by decide) (by decide +kernel)

-- with a seventh digit the new directory sorts before the old one, and its own save prunes it
theorem seventh_digit_pruned : ¬KeepsNewest 1 [999999, 1000000] := by
  intro keeps
  have resumed := (keeps [999999] 1000000 prefix_rfl).2
  revert resumed
  decide +kernel

end Save

end Dataflow.Checkpointing
