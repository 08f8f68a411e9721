import Mathlib.Data.List.Sort
import Dataflow.PackerResume

/-!
Replaying a capture. A feed writes every sequence it hands out into its capture, and a
`CaptureSource` yields the records one after the other. A sequence that a step puts back
is handed out again and written again, while the replaying packer, which puts it back too,
is handed its own copy and then finds the second record. So a replay is the captured run
as long as no step before the last one puts anything back.
-/

namespace Dataflow.Data

open Lockstep List

variable {Item Cursor : Type} {numpy : Numpy Item} {packing : Packing}

/-- What `read_capture` gives for a record, with one-dimensional extras. They are written by
name, and one of a dtype that has no code raises. -/
def recorded (sequence : Sequence Item) : Option (Sequence Item) :=
  if ∀ extra ∈ sequence.extras, extra.2.dtype = .int 32 ∨ extra.2.dtype = .float 32 then
    some { sequence with
      extras := sequence.extras.insertionSort fun first second => first.1 ≤ second.1 }
  else none

def captureSource (records : List (Sequence Item)) : Source Item Nat where
  sequences := fun start count =>
    match records[start.getD 0 + count]? with
    | some sequence => .ok (sequence, start.getD 0 + count + 1)
    | none => .error .stop
  reload := id

/-! ### one program, a run and its replay -/

/-- The replaying feed is about to pull the record that is written next. -/
structure Replays (records : List (Sequence Item)) (feed : Feed Item Cursor)
    (again : Feed Item Nat) : Prop where
  faithful : again.Faithful
  drained : again.pending = []
  reads : again.source = captureSource records ∧ again.start = none
  handed : again.handed = feed.captured.length

/-- The program only adds records, and with those in the capture its replay says the same. -/
def Follows (records : List (Sequence Item)) {Value : Type} (run : Pull Item Cursor Value)
    (replay : Pull Item Nat Value) : Prop :=
  ∀ feed value later, feed.Faithful → run feed = .ok (value, later) →
    later.Faithful ∧ feed.captured <+: later.captured ∧ (later.captured <+: records →
      ∀ again, Replays records feed again →
        ∃ final, replay again = .ok (value, final) ∧ Replays records later final)

variable {records : List (Sequence Item)}

theorem Follows.bind {Value Result : Type} {run : Pull Item Cursor Value}
    {replay : Pull Item Nat Value} {next : Value → Pull Item Cursor Result}
    {after : Value → Pull Item Nat Result} (first : Follows records run replay)
    (rest : ∀ value, Follows records (next value) (after value)) :
    Follows records (run >>= next) (replay >>= after) := by
  intro feed result last faithful ran
  obtain ⟨value, middle, begun, ran⟩ := bind_ok ran
  obtain ⟨still, grown, replayed⟩ := first feed value middle faithful begun
  obtain ⟨ends, more, replayedRest⟩ := rest value middle result last still ran
  refine ⟨ends, grown.trans more, fun reaches again replays => ?_⟩
  obtain ⟨between, answer, replays⟩ := replayed (more.trans reaches) again replays
  obtain ⟨final, finish, replays⟩ := replayedRest reaches between replays
  refine ⟨final, ?_, replays⟩
  show Except.bind (replay again) (fun pair => after pair.1 pair.2) = _
  rw [answer]
  exact finish

def replaying (records : List (Sequence Item)) :
    Congruence (Feed Item Cursor) (Feed Item Nat) Fault where
  rel := Follows records
  pure value feed _ _ faithful ran := by
    cases ran
    exact ⟨faithful, prefix_rfl, fun _ again replays => ⟨again, rfl, replays⟩⟩
  lift run feed value later faithful ran := by
    obtain ⟨rfl, rfl⟩ := lift_ok ran
    exact ⟨faithful, prefix_rfl, fun _ again replays => ⟨again, rfl, replays⟩⟩
  bind := Follows.bind

/-- A sequence from the pending ones and one from the source are written alike. -/
theorem next_sequence_captured {feed later : Feed Item Cursor} {sequence : Sequence Item}
    (faithful : feed.Faithful) (ran : nextSequence feed = .ok (sequence, later)) :
    later.Faithful ∧ later.captured = feed.captured ++ [sequence] := by
  unfold nextSequence at ran
  cases waiting : feed.pending with
  | cons head rest =>
    rw [waiting] at ran
    cases ran
    exact ⟨faithful, rfl⟩
  | nil =>
    obtain ⟨ahead, still, pulled⟩ := Feed.pull_spec faithful
    rw [waiting, pulled] at ran
    cases next : feed.stream 0 with
    | error fault =>
      rw [next] at ran
      cases ran
    | ok item =>
      rw [next] at ran
      cases ran
      exact ⟨still, rfl⟩

theorem next_sequence_follows :
    Follows records (nextSequence : Pull Item Cursor (Sequence Item)) nextSequence := by
  intro feed sequence later faithful ran
  obtain ⟨still, written⟩ := next_sequence_captured faithful ran
  rw [written]
  refine ⟨still, prefix_append .., fun reaches again replays => ?_⟩
  have record : records[feed.captured.length]? = some sequence := by
    obtain ⟨rest, rfl⟩ := reaches
    simp
  obtain ⟨ahead, followed, pulled⟩ := Feed.pull_spec replays.faithful
  have first : again.stream 0 = .ok (sequence, feed.captured.length + 1) := by
    simp [Feed.stream, replays.reads.1, replays.reads.2, replays.handed, captureSource, record]
  have stepped : nextSequence again = .ok (sequence, { again with
      ahead := ahead, handed := again.handed + 1, sourceCursor := some (feed.captured.length + 1)
      captured := again.captured ++ [sequence] }) := by
    simp only [nextSequence, replays.drained, pulled, first]
    rfl
  refine ⟨_, stepped, followed, replays.drained, replays.reads, ?_⟩
  simp [replays.handed, written]

/-! ### whole runs -/

theorem next_step_replays {feed later : Feed Item Cursor} {step : PackedStep Item Cursor}
    (faithful : feed.Faithful) (ran : nextStep numpy packing feed = .ok (step, later)) :
    later.Faithful ∧ feed.captured <+: later.captured ∧ (later.captured <+: records →
      ∀ again, Replays records feed again → ∃ replayed final,
        nextStep numpy packing again = .ok (replayed, final) ∧ replayed.rounds = step.rounds ∧
        (later.pending = [] → Replays records later final)) := by
  rw [next_step_eq] at ran
  obtain ⟨⟨rounds, left⟩, middle, packs, ran⟩ := bind_ok ran
  obtain ⟨_, _, requeued, ran⟩ := bind_ok ran
  cases requeued
  obtain ⟨rounds, _, lifted, ran⟩ := bind_ok ran
  obtain ⟨rfl, rfl⟩ := lift_ok lifted
  cases ran
  obtain ⟨still, grown, replayed⟩ := packed_congr (replaying records) next_sequence_follows
    feed _ middle faithful packs
  refine ⟨still, grown, fun reaches again replays => ?_⟩
  obtain ⟨final, answer, replays⟩ := replayed reaches again replays
  refine ⟨⟨rounds, final.sourceCursor, left ++ final.pending⟩,
    { final with pending := left ++ final.pending }, ?_, rfl, fun empty => ?_⟩
  · rw [next_step_eq]
    show Except.bind (packed numpy packing again) _ = _
    rw [answer]
    rfl
  · obtain ⟨rfl, _⟩ := append_eq_nil_iff.mp empty
    exact { replays with }

theorem take_steps_replay {count : Nat} {feed later : Feed Item Cursor}
    {steps : List (PackedStep Item Cursor)} (faithful : feed.Faithful)
    (ran : takeSteps numpy packing count feed = .ok (steps, later))
    (clear : ∀ step ∈ steps.dropLast, step.cursorAfter.requeued = []) :
    feed.captured <+: later.captured ∧ (later.captured <+: records →
      ∀ again, (0 < count → Replays records feed again) → ∃ replayed final,
        takeSteps numpy packing count again = .ok (replayed, final) ∧
        replayed.map PackedStep.rounds = steps.map PackedStep.rounds) := by
  induction count generalizing feed steps with
  | zero =>
    cases ran
    exact ⟨prefix_rfl, fun _ again _ => ⟨[], again, rfl, rfl⟩⟩
  | succ count ih =>
    obtain ⟨step, middle, stepped, ran⟩ := bind_ok ran
    obtain ⟨rest, _, taken, ran⟩ := bind_ok ran
    cases ran
    obtain ⟨still, grown, replayed⟩ := next_step_replays faithful stepped
    -- a step with another one after it has put nothing back
    have drained : 0 < count → middle.pending = [] := by
      intro more
      obtain ⟨count, rfl⟩ := Nat.exists_eq_succ_of_ne_zero more.ne'
      obtain ⟨second, _, _, taken⟩ := bind_ok taken
      obtain ⟨others, _, _, taken⟩ := bind_ok taken
      cases taken
      have nothing := clear step mem_cons_self
      rwa [step_cursor stepped] at nothing
    have clearRest : ∀ other ∈ rest.dropLast, other.cursorAfter.requeued = [] := by
      intro other mem
      cases rest with
      | nil => cases mem
      | cons second others => exact clear other (mem_cons_of_mem step mem)
    obtain ⟨more, replayedRest⟩ := ih still taken clearRest
    refine ⟨grown.trans more, fun reaches again replays => ?_⟩
    obtain ⟨first, between, answer, same, goes⟩ :=
      replayed (more.trans reaches) again (replays count.succ_pos)
    obtain ⟨others, final, finish, alike⟩ :=
      replayedRest reaches between fun more => goes (drained more)
    refine ⟨first :: others, final, ?_, by rw [map_cons, map_cons, same, alike]⟩
    show Except.bind (nextStep numpy packing again) _ = _
    rw [answer]
    show Except.bind (takeSteps numpy packing count between) _ = _
    rw [finish]
    rfl

/-- A run of which no step but the last puts anything back is what its capture replays. -/
theorem capture_replays (numpy : Numpy Item) (packing : Packing) (source : Source Item Cursor)
    (start : Option (StoredCursor Item Cursor)) (depth depthAgain : Nat)
    (schedule scheduleAgain : Nat → Nat) (count : Nat) (steps : List (PackedStep Item Cursor))
    (feed : Feed Item Cursor) (ran : takeSteps numpy packing count
      (Feed.make numpy source depth schedule start) = .ok (steps, feed))
    (clear : ∀ step ∈ steps.dropLast, step.cursorAfter.requeued = [])
    (later : List (Sequence Item))
    (written : ∀ sequence ∈ feed.captured ++ later, recorded sequence = some sequence) :
    (outcome (takeSteps numpy packing count) (Feed.make numpy
      (captureSource ((feed.captured ++ later).filterMap recorded)) depthAgain scheduleAgain none)).map
        (map PackedStep.rounds) = .ok (steps.map PackedStep.rounds) := by
  rw [(filterMap_congr written).trans filterMap_some]
  have faithful : (Feed.make numpy source depth schedule start).Faithful := by
    intro index item found
    simp [Feed.make] at found
  obtain ⟨-, replays⟩ := take_steps_replay faithful ran clear
  obtain ⟨replayed, final, answer, same⟩ := replays (prefix_append ..)
    (Feed.make numpy (captureSource (feed.captured ++ later)) depthAgain scheduleAgain none)
    fun _ => ⟨fun index item found => by simp [Feed.make] at found, rfl, ⟨rfl, rfl⟩, rfl⟩
  rw [outcome, answer, ← same]
  rfl

/-! ### small captures -/

/-- Three tokens of each record's number. -/
def counting : Source Int Nat where
  sequences := fun start count =>
    let number := Int32.ofNat (start.getD 0 + count)
    .ok ({ tokens := [number, number, number], targets := [-1, -1, -1], nonempty := by simp
           aligned := rfl }, start.getD 0 + count + 1)
  reload := id

/-- The steps of a packer, and what it makes of its capture. -/
def countingRun (packing : Packing) (count : Nat) :
    Except Fault (List (PackedStep Int Nat) × Feed Int Nat) :=
  takeSteps integers packing count (Feed.make integers counting 2 id none)

def countingReplay (packing : Packing) (count : Nat) (feed : Feed Int Nat) :
    Except Fault (List (List (PackedRound Int))) :=
  (outcome (takeSteps integers packing count) (Feed.make integers
    (captureSource ((feed.captured ++ []).filterMap recorded)) 0 id none)).map
      (map PackedStep.rounds)

/-- Every round holds one sequence exactly. -/
def snug : Packing := { tight with tokensPerRound := 3, maxSeqlen := 3, packs := by decide }

theorem capture_replays_snug : ∃ steps feed, countingRun snug 3 = .ok (steps, feed) ∧
    steps.length = 3 ∧ countingReplay snug 3 feed = .ok (steps.map PackedStep.rounds) := by
  obtain ⟨steps, feed, ran, checked⟩ := ran_of_check (countingRun snug 3) (fun steps feed =>
    decide (steps.length = 3 ∧ (∀ step ∈ steps.dropLast, step.cursorAfter.requeued = []) ∧
      ∀ sequence ∈ feed.captured ++ [], recorded sequence = some sequence)) (by decide +kernel)
  obtain ⟨three, clear, written⟩ := of_decide_eq_true checked
  exact ⟨steps, feed, ran, three, capture_replays integers snug counting none 2 0 id id 3 steps feed
    ran clear [] written⟩

/-- Every step puts a sequence back. It is in the capture twice, and the third step of the
replay packs it once more. -/
theorem requeued_record_replayed_twice : ∃ steps feed, countingRun tight 3 = .ok (steps, feed) ∧
    (∀ sequence ∈ feed.captured, recorded sequence = some sequence) ∧
    ∃ replayed, countingReplay tight 3 feed = .ok replayed ∧ replayed ≠ steps.map PackedStep.rounds := by
  obtain ⟨steps, feed, ran, checked⟩ := ran_of_check (countingRun tight 3) (fun steps feed =>
    decide ((∀ sequence ∈ feed.captured, recorded sequence = some sequence) ∧
      (countingReplay tight 3 feed).toOption.any (· ≠ steps.map PackedStep.rounds))) (by decide +kernel)
  obtain ⟨written, differs⟩ := of_decide_eq_true checked
  obtain ⟨replayed, answer, differs⟩ := (Option.any_eq_true ..).mp differs
  refine ⟨steps, feed, ran, written, replayed, ?_, of_decide_eq_true differs⟩
  cases said : countingReplay tight 3 feed with
  | error fault => rw [said] at answer; cases answer
  | ok rounds => rw [said] at answer; cases answer; rfl

end Dataflow.Data
