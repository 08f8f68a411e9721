import Dataflow.Packer

/-!
Resuming a packer. A packer reads its feed only through `next_sequence`, `requeue`
and `cursor`, so two packers whose feeds hand out the same make the same steps. A
feed made from a stored cursor hands out what the running feed hands out, as long
as the requeued sequences come back from JSON as they were; the extras of a
sequence come back with the dtype that numpy infers.
-/

namespace Dataflow.Data

open Lockstep

variable {Item Cursor : Type} {numpy : Numpy Item} {packing : Packing}

/-! ### one program, two feeds -/

/-- What a step packs: its rounds, or why there are none, and what it puts back. -/
def packed (numpy : Numpy Item) (packing : Packing) :
    Pull Item Cursor (Except Fault (List (PackedRound Item)) × List (Sequence Item)) :=
  match packing.policy with
  | .greedy => do
      let (rounds, carry) ← greedyRounds numpy packing packing.gaRounds none
      pure (.ok rounds, carry.toList)
  | .ffd => do
      let window ← pullWindow
        (packing.lookaheadMult * (packing.gaRounds * packing.tokensPerRound)) []
      let filled := fillBins packing window
      pure (filled.bins.mapM fun bin =>
        let placed := bin.filterMap fun index => window[index]?
        concatRound numpy placed packing.tokensPerRound (placed.map Sequence.length),
        leftover window filled.placed)

theorem next_step_eq : nextStep numpy packing = (do
    let made ← packed numpy packing
    requeue made.2
    let rounds ← StateT.lift made.1
    let after ← cursor
    pure ⟨rounds, after⟩ : Pull Item Cursor (PackedStep Item Cursor)) := by
  unfold nextStep packed
  cases packing.policy with
  | ffd => simp only [bind_assoc, pure_bind]; rfl
  | greedy =>
    simp only [bind_assoc, pure_bind]
    refine congrArg _ (funext fun made => ?_)
    obtain ⟨rounds, carry⟩ := made
    cases carry with
    | none => rfl
    | some sequence => rfl

section Programs

variable {Other : Type} (congruence : Congruence (Feed Item Cursor) (Feed Item Other) Fault)
  (next : congruence.rel nextSequence nextSequence)
include next

theorem fill_round_congr (room : Nat) (filled : Filled Item) :
    congruence.rel (fillRound packing room filled) (fillRound packing room filled) := by
  induction room using Nat.strongRecOn generalizing filled with
  | ind room ih =>
    unfold fillRound
    split
    · exact congruence.pure filled
    next open_ =>
    have drawn : congruence.rel (draw filled.carry) (draw filled.carry) := by
      cases filled.carry with
      | some sequence => exact congruence.pure sequence
      | none => exact next
    refine congruence.bind drawn fun sequence => ?_
    have positive : 0 < sequence.length := sequence.nonempty
    split
    · dsimp only
      split
      · exact ih _ (by omega) _
      · exact congruence.lift _
    split
    · exact congruence.lift _
    · split
      · exact congruence.pure _
      · exact ih _ (by omega) _

theorem greedy_rounds_congr (count : Nat) (carry : Option (Sequence Item)) : congruence.rel
    (greedyRounds numpy packing count carry) (greedyRounds numpy packing count carry) := by
  induction count generalizing carry with
  | zero => exact congruence.pure _
  | succ count ih =>
    refine congruence.bind (fill_round_congr congruence next _ _) fun filled => ?_
    refine congruence.bind (congruence.lift _) fun round => ?_
    exact congruence.bind (ih filled.carry) fun rest => congruence.pure _

theorem pull_window_congr (wanted : Nat) (window : List (Sequence Item)) :
    congruence.rel (pullWindow wanted window) (pullWindow wanted window) := by
  induction wanted using Nat.strongRecOn generalizing window with
  | ind wanted ih =>
    unfold pullWindow
    split
    · exact congruence.pure window
    · refine congruence.bind next fun sequence => ?_
      have positive : 0 < sequence.length := sequence.nonempty
      exact ih _ (by omega) _

theorem packed_congr : congruence.rel (packed numpy packing) (packed numpy packing) := by
  unfold packed
  split
  · exact congruence.bind (greedy_rounds_congr congruence next _ none) fun _ => congruence.pure _
  · exact congruence.bind (pull_window_congr congruence next _ []) fun _ => congruence.pure _

end Programs

theorem take_steps_agrees {relation : Feed Item Cursor → Feed Item Cursor → Prop}
    (numpy : Numpy Item) (packing : Packing) (next : Agrees relation nextSequence nextSequence)
    (requeues : ∀ sequences, Agrees relation (requeue sequences) (requeue sequences))
    (cursors : Agrees relation cursor cursor) (count : Nat) :
    Agrees relation (takeSteps numpy packing count) (takeSteps numpy packing count) := by
  have packs : Agrees relation (packed numpy packing) (packed numpy packing) :=
    packed_congr (agreement relation) next
  induction count with
  | zero => exact agrees_pure []
  | succ count ih =>
    unfold takeSteps
    rw [next_step_eq]
    refine Agrees.bind (packs.bind fun made => (requeues made.2).bind fun _ => ?_) fun step => ?_
    · exact (agrees_lift _).bind fun rounds => cursors.bind fun after => agrees_pure _
    · exact ih.bind fun rest => agrees_pure (step :: rest)

/-! ### resuming -/

theorem step_cursor {feed later : Feed Item Cursor} {step : PackedStep Item Cursor}
    (ran : nextStep numpy packing feed = .ok (step, later)) : step.cursorAfter = later.cursor := by
  rw [next_step_eq] at ran
  obtain ⟨made, packs, _, ran⟩ := bind_ok ran
  obtain ⟨_, requeued, _, ran⟩ := bind_ok ran
  obtain ⟨rounds, lifted, _, ran⟩ := bind_ok ran
  cases ran
  rfl

theorem last_cursor {feed later : Feed Item Cursor} {count : Nat}
    {steps : List (PackedStep Item Cursor)}
    (ran : takeSteps numpy packing count feed = .ok (steps, later)) :
    ∀ last ∈ steps.getLast?, last.cursorAfter = later.cursor := by
  induction count generalizing feed steps with
  | zero =>
    cases ran
    intro last none_taken
    cases none_taken
  | succ count ih =>
    obtain ⟨step, middle, stepped, ran⟩ := bind_ok ran
    obtain ⟨rest, _, taken, ran⟩ := bind_ok ran
    cases ran
    intro last isLast
    cases rest with
    | nil =>
      -- nothing after this step, so it leaves the feed as it is at the end
      obtain rfl := Option.some.inj isLast
      cases count with
      | zero =>
        cases taken
        exact step_cursor stepped
      | succ count =>
        obtain ⟨_, _, _, taken⟩ := bind_ok taken
        obtain ⟨_, _, _, taken⟩ := bind_ok taken
        cases taken
    | cons second rest =>
      exact ih taken last isLast

/-- A packer made from the stored cursor of a step goes on exactly as the running one: the
same rounds, valid rows and cursors, and the same exception at the same place. -/
theorem resume_equivalent (numpy : Numpy Item) (source : Source Item Cursor)
    (contract : source.Resumable) (packing : Packing) (start : Option (StoredCursor Item Cursor))
    (clean : ∀ stored ∈ start, stored.source.map source.reload = stored.source)
    (depth depthAgain : Nat) (schedule scheduleAgain : Nat → Nat) (count : Nat)
    (steps : List (PackedStep Item Cursor)) (feed : Feed Item Cursor)
    (ran : takeSteps numpy packing count (Feed.make numpy source depth schedule start) =
      .ok (steps, feed)) (last : PackedStep Item Cursor) (isLast : last ∈ steps.getLast?)
    (reloadable : ∀ sequence ∈ last.cursorAfter.requeued, sequence.Reloadable numpy)
    (further : Nat) : outcome (takeSteps numpy packing further) feed =
      outcome (takeSteps numpy packing further) (Feed.make numpy source depthAgain scheduleAgain
        (some ((cursorToJson last.cursorAfter).reloaded source))) := by
  have tracked := take_steps_agrees numpy packing (next_sequence_tracked contract)
    (requeue_tracked source) (cursor_tracked source) count
    _ _ ⟨rfl, Feed.make_tracks numpy source depth schedule start clean⟩
  rw [ran] at tracked
  obtain ⟨-, -, tracks⟩ := tracked
  have after := last_cursor ran last isLast
  rw [after] at reloadable ⊢
  have alike : Agrees Feed.Matches (takeSteps numpy packing further : Pull Item Cursor _)
      (takeSteps numpy packing further) :=
    take_steps_agrees numpy packing next_sequence_agrees requeue_agrees cursor_agrees further
  exact alike.outcome (Feed.resumed_matches tracks reloadable depthAgain scheduleAgain)

/-! ### small streams -/

/-- numpy on Python integers, for arrays of one dtype. -/
def integers : Numpy Int where
  asarray := fun rows => ⟨.int 64, rows⟩
  concatenate := fun parts =>
    ⟨(parts.head?.map NdArray.dtype).getD (.float 64), parts.flatMap NdArray.rows⟩

variable (dtype : DType)

/-- Three tokens with an extra of the given dtype. -/
def weighted : Sequence Int where
  tokens := [1, 2, 3]
  targets := [2, 3, -1]
  extras := [("weight", ⟨dtype, [7, 8, 9]⟩)]
  nonempty := by decide
  aligned := rfl

/-- The same record again and again; the cursor counts records. -/
def repeating : Source Int Nat where
  sequences := fun start count => .ok (weighted dtype, start.getD 0 + count + 1)
  reload := id

theorem repeating_resumable : (repeating dtype).Resumable := by
  refine ⟨fun start count sequence cursor yielded later => ?_, fun _ _ _ _ _ => rfl⟩
  obtain ⟨rfl, rfl⟩ := Prod.mk.inj (Except.ok.inj yielded)
  simp only [repeating, Option.getD_some]
  congr 2
  omega

/-- Every step pulls two sequences and has room for one. -/
def tight : Packing where
  tokensPerRound := 4
  gaRounds := 1
  maxSeqlen := 4
  lookaheadMult := 1
  splits := by decide
  packs := by decide

instance [DecidableEq Item] (numpy : Numpy Item) (sequence : Sequence Item) :
    Decidable (sequence.Reloadable numpy) :=
  inferInstanceAs (Decidable (∀ extra ∈ sequence.extras, _))

/-- The first step of a packer whose worker reads two sequences ahead. -/
def firstStep : Except Fault (List (PackedStep Int Nat) × Feed Int Nat) :=
  takeSteps integers tight 1 (Feed.make integers (repeating dtype) 2 id none)

/-- A feed made from the stored cursor of a step, with no worker. -/
def resumedFeed (step : PackedStep Int Nat) : Feed Int Nat :=
  Feed.make integers (repeating dtype) 0 id
    (some ((cursorToJson step.cursorAfter).reloaded (repeating dtype)))

theorem ran_of_check (run : Except Fault (List (PackedStep Int Nat) × Feed Int Nat))
    (check : List (PackedStep Int Nat) → Feed Int Nat → Bool)
    (checked : (match run with
      | .ok (steps, feed) => check steps feed
      | .error _ => false) = true) :
    ∃ steps feed, run = .ok (steps, feed) ∧ check steps feed = true := by
  split at checked
  · next steps feed => exact ⟨steps, feed, rfl, checked⟩
  · cases checked

theorem resume_equivalent_integers :
    ∃ steps feed step, firstStep (.int 64) = .ok (steps, feed) ∧ step ∈ steps.getLast? ∧
      step.cursorAfter.requeued = [weighted (.int 64)] ∧
      ∀ further, outcome (takeSteps integers tight further) feed =
        outcome (takeSteps integers tight further) (resumedFeed (.int 64) step) := by
  obtain ⟨steps, feed, ran, checked⟩ := ran_of_check (firstStep (.int 64)) (fun steps _ =>
    steps.getLast?.any fun step => step.cursorAfter.requeued = [weighted (.int 64)])
    (by decide +kernel)
  obtain ⟨step, isLast, holds⟩ := (Option.any_eq_true ..).mp checked
  have requeued := of_decide_eq_true holds
  refine ⟨steps, feed, step, ran, isLast, requeued, fun further => ?_⟩
  refine resume_equivalent integers (repeating (.int 64)) (repeating_resumable _) tight none
    (fun _ none_stored => by cases none_stored) 2 0 id id 1 steps feed ran step isLast ?_ further
  rw [requeued]
  decide

/-- An int32 extra of a requeued sequence comes back as int64, and the next round holds it. -/
theorem resumed_extra_changes_dtype : (repeating (.int 32)).Resumable ∧
    ∃ steps feed step, firstStep (.int 32) = .ok (steps, feed) ∧ step ∈ steps.getLast? ∧
      outcome (takeSteps integers tight 1) feed ≠
        outcome (takeSteps integers tight 1) (resumedFeed (.int 32) step) := by
  obtain ⟨steps, feed, ran, checked⟩ := ran_of_check (firstStep (.int 32)) (fun steps feed =>
    steps.getLast?.any fun step => outcome (takeSteps integers tight 1) feed ≠
      outcome (takeSteps integers tight 1) (resumedFeed (.int 32) step)) (by decide +kernel)
  obtain ⟨step, isLast, holds⟩ := (Option.any_eq_true ..).mp checked
  exact ⟨repeating_resumable _, steps, feed, step, ran, isLast, of_decide_eq_true holds⟩

end Dataflow.Data
