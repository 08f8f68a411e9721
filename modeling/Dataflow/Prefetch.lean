import Mathlib.Logic.Function.Iterate
import Dataflow.DataFeed

/-!
The ingest worker of `data/feed.py`. A prefetching feed takes its sequences from
a bounded queue that a thread fills from the iterator of the source; an inline
feed drives the iterator itself. The two threads meet in the queue only, so an
interleaving is a list of moves, each a step of the worker or a call of the
consumer. A consumer that waits on an empty queue leaves the worker alone to
move, and one whose worker has returned waits for ever.
-/

namespace Dataflow.Data

open List

variable {Item Cursor Plane : Type}

inductive Call (Item : Type) where
  | nextSequence
  | requeue (sequences : List (Sequence Item))
  | cursor

inductive Reply (Item Cursor : Type) where
  | sequence (sequence : Sequence Item)
  | raised (fault : Fault)
  | requeued
  | cursor (cursor : FeedCursor Item Cursor)
  deriving DecidableEq

inductive Move (Item : Type) where
  | work
  | call (call : Call Item)

/-- What one `next` gives. -/
abbrev Next (Item Cursor : Type) := Except Fault (Sequence Item × Cursor)

/-! ### the consumer -/

/-- The state of `DataFeed`; `plane` is the iterator or the worker. -/
structure Consumer (Item Cursor Plane : Type) where
  pending : List (Sequence Item)
  sourceCursor : Option Cursor
  plane : Plane

def Reply.ofNext : Next Item Cursor → Reply Item Cursor
  | .ok pair => .sequence pair.1
  | .error fault => .raised fault

/-- The cursor of the feed follows the sequences it hands out. -/
def cursorAfter (before : Option Cursor) : Next Item Cursor → Option Cursor
  | .ok pair => some pair.2
  | .error _ => before

namespace Consumer

/-- One call, or nothing if its pull never returns. -/
def serve (pull : Plane → Option (Next Item Cursor × Plane)) (feed : Consumer Item Cursor Plane) :
    Call Item → Option (Reply Item Cursor × Consumer Item Cursor Plane)
  | .requeue sequences => some (.requeued, { feed with pending := sequences ++ feed.pending })
  | .cursor => some (.cursor ⟨feed.sourceCursor, feed.pending⟩, feed)
  | .nextSequence =>
    match feed.pending with
    | sequence :: rest => some (.sequence sequence, { feed with pending := rest })
    | [] =>
      (pull feed.plane).map fun (next, plane) => (.ofNext next,
        { feed with sourceCursor := cursorAfter feed.sourceCursor next, plane := plane })

/-- The replies of a run; nothing comes after a call that never returns. -/
def play (pull : Plane → Option (Next Item Cursor × Plane)) (work : Plane → Plane) :
    List (Move Item) → Consumer Item Cursor Plane →
      List (Option (Reply Item Cursor)) × Consumer Item Cursor Plane
  | [], feed => ([], feed)
  | .work :: rest, feed => play pull work rest { feed with plane := work feed.plane }
  | .call call :: rest, feed =>
    match feed.serve pull call with
    | none => ([none], feed)
    | some (reply, next) =>
      (some reply :: (play pull work rest next).1, (play pull work rest next).2)

end Consumer

/-- The inline feed; its plane is the number of `next` calls made. -/
def inline (source : Source Item Cursor) (start : FeedCursor Item Cursor)
    (moves : List (Move Item)) : List (Option (Reply Item Cursor)) × Consumer Item Cursor Nat :=
  Consumer.play (fun count => some (source.sequences start.source count, count + 1)) id moves
    ⟨start.requeued, start.source, 0⟩

/-! ### the worker -/

/-- An element of the queue: a pair, or `STOP`. -/
abbrev Queued (Item Cursor : Type) := Option (Sequence Item × Cursor)

structure Worker (Item Cursor : Type) where
  /-- `next` calls made. -/
  read : Nat := 0
  /-- What it is about to put. -/
  holding : Option (Queued Item Cursor) := none
  out : List (Queued Item Cursor) := []
  error : Option Fault := none
  returned : Bool := false

namespace Worker

section Steps

variable (iterator : Nat → Next Item Cursor) (depth : Nat)

/-- The exception that the worker parks in `error`; the end of the source is none. -/
def parked : Next Item Cursor → Option Fault
  | .error (.source why) => some (.source why)
  | .error (.value why) => some (.value why)
  | _ => none

/-- One step of `run`: a `next`, or a put, which is tried again while the queue is full. -/
def step (worker : Worker Item Cursor) : Worker Item Cursor :=
  match worker.holding with
  | some item =>
    if worker.out.length < depth then
      { worker with out := worker.out ++ [item], holding := none, returned := item.isNone }
    else worker
  | none =>
    if worker.returned then worker else
    { worker with
      read := worker.read + 1
      holding := some (iterator worker.read).toOption
      error := parked (iterator worker.read) }

/-- The consumer sleeps on an empty queue: a `next` and a put of the worker wake it. -/
def awake (worker : Worker Item Cursor) : Worker Item Cursor :=
  if worker.out = [] then
    let read := worker.step iterator depth
    if read.out = [] then read.step iterator depth else read
  else worker

/-- `pull`. -/
def pull (worker : Worker Item Cursor) : Option (Next Item Cursor × Worker Item Cursor) :=
  let woken := worker.awake iterator depth
  match woken.out with
  | [] => none
  | some pair :: rest => some (.ok pair, { woken with out := rest })
  | none :: rest => some (.error (woken.error.getD .stop), { woken with out := rest })

end Steps

end Worker

def prefetched (source : Source Item Cursor) (start : FeedCursor Item Cursor) (depth : Nat)
    (moves : List (Move Item)) :
    List (Option (Reply Item Cursor)) × Consumer Item Cursor (Worker Item Cursor) :=
  Consumer.play (Worker.pull (source.sequences start.source) depth)
    (Worker.step (source.sequences start.source) depth) moves ⟨start.requeued, start.source, {}⟩

/-! ### how far the worker is -/

section Tracking

variable {iterator : Nat → Next Item Cursor} {depth taken : Nat} {worker : Worker Item Cursor}
  {moves : List (Move Item)}

def Yields (iterator : Nat → Next Item Cursor) (count : Nat) : Prop :=
  ∃ pair, iterator count = .ok pair

/-- The consumer has taken `taken` items; the queue and the hand of the worker hold the next
ones, of which only the last can be `STOP`. -/
structure Tracks (iterator : Nat → Next Item Cursor) (taken : Nat)
    (worker : Worker Item Cursor) : Prop where
  ahead : taken ≤ worker.read
  items : worker.out ++ worker.holding.toList =
    (range' taken (worker.read - taken)).map fun count => (iterator count).toOption
  good : ∀ count, count + 1 < worker.read → Yields iterator count
  reading : worker.holding = none → worker.returned = false →
    ∀ count, count + 1 = worker.read → Yields iterator count
  returned : worker.returned = true → worker.holding = none ∧
    ∃ count, count + 1 = worker.read ∧ ¬ Yields iterator count
  error : ∀ count, count + 1 = worker.read → worker.error = Worker.parked (iterator count)

variable {item : Queued Item Cursor}

theorem Tracks.last (tracks : Tracks iterator taken worker) (held : worker.holding = some item) :
    ∃ count, count + 1 = worker.read ∧ item = (iterator count).toOption := by
  have items := tracks.items
  rw [held] at items
  have some_read : worker.read - taken ≠ 0 := by
    intro none_read
    rw [none_read] at items
    simp at items
  obtain ⟨rest, same⟩ := Nat.exists_eq_succ_of_ne_zero some_read
  rw [same, Nat.succ_eq_add_one, range'_concat] at items
  simp only [map_append, map_cons, map_nil, Option.toList] at items
  refine ⟨taken + rest, by omega, ?_⟩
  simpa using (append_inj' items rfl).2

theorem yields_iff {count : Nat} : Yields iterator count ↔ (iterator count).toOption.isNone = false := by
  unfold Yields
  cases iterator count <;> simp [Except.toOption]

section

variable (tracks : Tracks iterator taken worker)
include tracks

theorem Tracks.put (held : worker.holding = some item) : Tracks iterator taken
      { worker with out := worker.out ++ [item], holding := none, returned := item.isNone } := by
  obtain ⟨last, read, rfl⟩ := tracks.last held
  refine ⟨tracks.ahead, ?_, tracks.good, fun _ running count same => ?_, fun stopped => ⟨rfl, ?_⟩,
    tracks.error⟩
  · have items := tracks.items
    rw [held] at items
    simpa using items
  · obtain rfl : count = last := by
      have same : count + 1 = worker.read := same
      omega
    exact yields_iff.mpr running
  · refine ⟨last, read, fun yields => ?_⟩
    rw [yields_iff] at yields
    exact absurd (yields.symm.trans stopped) nofun

theorem Tracks.fetch (idle : worker.holding = none)
    (running : worker.returned = false) :
    Tracks iterator taken { worker with
      read := worker.read + 1
      holding := some (iterator worker.read).toOption
      error := Worker.parked (iterator worker.read) } := by
  have ahead := tracks.ahead
  refine ⟨Nat.le_succ_of_le ahead, ?_, fun count below => ?_, nofun, fun stopped => ?_,
    fun count same => ?_⟩
  · have items := tracks.items
    rw [idle] at items
    have grown : worker.read + 1 - taken = worker.read - taken + 1 := by omega
    have place : taken + 1 * (worker.read - taken) = worker.read := by omega
    simp only [grown, range'_concat, map_append, ← items, place]
    simp
  · rcases Nat.lt_or_eq_of_le (Nat.le_of_lt_succ below) with earlier | last
    · exact tracks.good count earlier
    · exact tracks.reading idle running count last
  · exact absurd (running.symm.trans stopped) nofun
  · obtain rfl := Nat.succ.inj same
    rfl

theorem Tracks.step : Tracks iterator taken (worker.step iterator depth) := by
  unfold Worker.step
  cases held : worker.holding with
  | some item =>
    by_cases room : worker.out.length < depth
    · simpa only [room, if_true] using tracks.put held
    · simpa only [room, if_false] using tracks
  | none =>
    cases running : worker.returned with
    | true => simpa using tracks
    | false => simpa [running] using tracks.fetch held running

theorem Tracks.take {rest : List (Queued Item Cursor)} (found : worker.out = item :: rest) :
    item = (iterator taken).toOption ∧ Tracks iterator (taken + 1) { worker with out := rest } := by
  have items := tracks.items
  have more : worker.read - taken = worker.read - (taken + 1) + 1 := by
    have some_read : worker.read - taken ≠ 0 := by
      intro none_read
      rw [none_read, found] at items
      simp at items
    omega
  rw [found, more, range'_succ, map_cons, cons_append] at items
  obtain ⟨first, others⟩ := cons.inj items
  have ahead : taken + 1 ≤ worker.read := by omega
  exact ⟨first, { tracks with ahead := ahead, items := others }⟩

theorem Tracks.awake (positive : 0 < depth) : Tracks iterator taken (worker.awake iterator depth) ∧
      ((worker.awake iterator depth).out = [] → (worker.awake iterator depth).returned = true) := by
  unfold Worker.awake
  by_cases empty : worker.out = []
  swap
  · rw [if_neg empty]
    exact ⟨tracks, fun none => absurd none empty⟩
  constructor
  · dsimp only
    split_ifs
    · exact tracks.step.step
    · exact tracks.step
  · cases held : worker.holding with
    | some item => simp [Worker.step, held, empty, positive]
    | none => cases running : worker.returned <;> simp [Worker.step, held, empty, positive, running]

theorem Tracks.pull (positive : 0 < depth) :
    (worker.pull iterator depth = none ∧ ∃ count, count + 1 = taken ∧ ¬ Yields iterator count) ∨
      ((∀ count, count + 1 = taken → Yields iterator count) ∧
        ∃ next, worker.pull iterator depth = some (iterator taken, next) ∧
          Tracks iterator (taken + 1) next) := by
  obtain ⟨woken, asleep⟩ := tracks.awake positive
  unfold Worker.pull
  generalize worker.awake iterator depth = ready at woken asleep
  cases found : ready.out with
  | nil =>
    obtain ⟨idle, count, read, failed⟩ := woken.returned (asleep found)
    have items := congrArg length woken.items
    have ahead := woken.ahead
    rw [found, idle] at items
    simp only [length_map, length_range', length_append, Option.toList, length_nil] at items
    refine .inl ⟨?_, count, by omega, failed⟩
    simp only [found]
  | cons item rest =>
    obtain ⟨rfl, later⟩ := woken.take found
    have ahead : taken + 1 ≤ ready.read := later.ahead
    refine .inr ⟨fun count same => woken.good count (by omega), { ready with out := rest }, ?_, later⟩
    simp only [found]
    cases next : iterator taken with
    | ok pair => rfl
    | error fault =>
      -- nothing was read after the end, so what is parked belongs to it
      have last : taken + 1 = ready.read := by
        by_contra more
        obtain ⟨pair, yielded⟩ := woken.good taken (by omega)
        rw [next] at yielded
        cases yielded
      have error := woken.error taken last
      rw [next] at error
      cases fault <;> simp only [Except.toOption, error, Worker.parked, Option.getD]

theorem Tracks.asleep (positive : 0 < depth)
    (never : worker.pull iterator depth = none) (steps : Nat) :
    ((Worker.step iterator depth)^[steps] (worker.awake iterator depth)).out = [] := by
  obtain ⟨woken, asleep⟩ := tracks.awake positive
  unfold Worker.pull at never
  generalize worker.awake iterator depth = ready at woken asleep never
  have empty : ready.out = [] := by
    cases found : ready.out with
    | nil => rfl
    | cons item rest => cases item <;> simp [found] at never
  have same : ready.step iterator depth = ready := by
    simp [Worker.step, (woken.returned (asleep empty)).1, asleep empty]
  rw [Function.iterate_fixed same]
  exact empty

end

theorem inline_forward (moves : List (Move Item)) (feed : Consumer Item Cursor Nat) :
    feed.plane ≤ (Consumer.play (fun count => some (iterator count, count + 1)) id moves feed).2.plane := by
  induction moves generalizing feed with
  | nil => exact Nat.le_refl _
  | cons move rest ih =>
    cases move with
    | work => exact ih _
    | call call =>
      cases call with
      | requeue sequences => exact ih { feed with pending := sequences ++ feed.pending }
      | cursor => exact ih feed
      | nextSequence =>
        obtain ⟨pending, cursor, count⟩ := feed
        cases pending with
        | cons sequence later => exact ih ⟨later, cursor, count⟩
        | nil => exact Nat.le_of_succ_le (ih ⟨[], cursorAfter cursor (iterator count), count + 1⟩)

theorem play_alike_iff (positive : 0 < depth) (moves : List (Move Item))
    (tracks : Tracks iterator taken worker) (pending : List (Sequence Item))
    (cursor : Option Cursor) :
    (Consumer.play (Worker.pull iterator depth) (Worker.step iterator depth) moves
        ⟨pending, cursor, worker⟩).1 =
      (Consumer.play (fun count => some (iterator count, count + 1)) id moves
        ⟨pending, cursor, taken⟩).1 ↔ ∀ count, taken ≤ count + 1 → count + 1 < (Consumer.play
      (fun count => some (iterator count, count + 1)) id moves ⟨pending, cursor, taken⟩).2.plane →
        Yields iterator count := by
  induction moves generalizing taken worker pending cursor with
  | nil =>
    refine ⟨fun _ count low high => ?_, fun _ => rfl⟩
    exact absurd (Nat.lt_of_le_of_lt low high) (Nat.lt_irrefl taken)
  | cons move rest ih =>
    cases move with
    | work => exact ih tracks.step pending cursor
    | call call =>
      cases call with
      | requeue sequences =>
        simp only [Consumer.play, Consumer.serve, cons.injEq, true_and]
        exact ih tracks (sequences ++ pending) cursor
      | cursor =>
        simp only [Consumer.play, Consumer.serve, cons.injEq, true_and]
        exact ih tracks pending cursor
      | nextSequence =>
        cases pending with
        | cons sequence later =>
          simp only [Consumer.play, Consumer.serve, cons.injEq, true_and]
          exact ih tracks later cursor
        | nil =>
          rcases tracks.pull positive with ⟨never, count, same, failed⟩ | ⟨before, next, pulled, later⟩
          · -- this pull follows one that raised: it never returns
            refine iff_of_false ?_ fun all => failed (all count (Nat.le_of_eq same.symm) ?_)
            · simp [Consumer.play, Consumer.serve, never]
            · rw [same]
              exact inline_forward rest ⟨[], cursorAfter cursor (iterator taken), taken + 1⟩
          have widen : ∀ final, (∀ count, taken + 1 ≤ count + 1 → count + 1 < final →
              Yields iterator count) ↔ ∀ count, taken ≤ count + 1 → count + 1 < final →
              Yields iterator count := by
            refine fun final => ⟨fun all count low high => ?_, fun all count low => all count (by omega)⟩
            rcases Nat.eq_or_lt_of_le low with same | more
            · exact before count same.symm
            · exact all count more high
          simp only [Consumer.play, Consumer.serve, pulled, Option.map_some, cons.injEq, true_and]
          rw [ih later [] (cursorAfter cursor (iterator taken)), widen]

end Tracking

theorem prefetched_equals_inline_iff (source : Source Item Cursor) (start : FeedCursor Item Cursor)
    (depth : Nat) (positive : 0 < depth) (moves : List (Move Item)) :
    (prefetched source start depth moves).1 = (inline source start moves).1 ↔
      ∀ count, count + 1 < (inline source start moves).2.plane →
        ∃ pair, source.sequences start.source count = .ok pair := by
  have begun : Tracks (source.sequences start.source) 0 ({} : Worker Item Cursor) :=
    ⟨Nat.le_refl 0, rfl, nofun, nofun, nofun, nofun⟩
  unfold prefetched inline
  rw [play_alike_iff positive moves begun start.requeued start.source]
  exact forall_congr' fun count => ⟨fun all => all (Nat.zero_le _), fun all _ => all⟩

/-- A source that yields nothing. -/
def dry : Source Unit Unit where
  sequences _ _ := .error .stop
  reload := id

theorem prefetched_equals_inline_once :
    (prefetched dry ⟨none, []⟩ 1 [.work, .call .nextSequence, .call .cursor]).1 =
      (inline dry ⟨none, []⟩ [.work, .call .nextSequence, .call .cursor]).1 :=
  (prefetched_equals_inline_iff dry ⟨none, []⟩ 1 (by decide) _).mpr (by
    intro count below
    exact absurd below (by simp [inline, Consumer.play, Consumer.serve, dry]))

/-- The second pull after the end raises on the inline feed and never returns on the other. -/
theorem pull_after_end_hangs :
    (inline dry ⟨none, []⟩ [.call .nextSequence, .call .nextSequence]).1 =
        [some (.raised .stop), some (.raised .stop)] ∧
      (prefetched dry ⟨none, []⟩ 1 [.call .nextSequence, .call .nextSequence]).1 =
        [some (.raised .stop), none] := by
  decide

end Dataflow.Data
