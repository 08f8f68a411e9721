import Mathlib.Data.List.Basic
import Mathlib.Tactic.Common
import Dataflow.Lockstep

/-!
The feed of the data plane. A source is read as a function from a cursor to what
its iterator yields; a feed hands sequences out in source order, with requeued
sequences first. A worker may have read ahead of the hand-out by any number of
sequences up to its depth. A cursor holds the source cursor after the last
hand-out and the requeued sequences themselves.

Of a source that has raised only the first exception is seen.
-/

namespace Dataflow.Data

open Lockstep List

inductive DType where
  | bool
  | int (bits : Nat)
  | uint (bits : Nat)
  | float (bits : Nat)
  deriving DecidableEq

/-- An array with one row for each token; a row is the Python value that
`tolist` gives for it. -/
structure NdArray (Item : Type) where
  dtype : DType
  rows : List Item
  deriving DecidableEq

/-- What the data plane takes from numpy. -/
structure Numpy (Item : Type) where
  asarray : List Item → NdArray Item
  concatenate : List (NdArray Item) → NdArray Item

/-- A sequence that passes `validate_sequence`. -/
structure Sequence (Item : Type) where
  tokens : List Int32
  targets : List Int32
  extras : List (String × NdArray Item) := []
  nonempty : 0 < tokens.length
  aligned : targets.length = tokens.length
  deriving DecidableEq

structure SequenceJson (Item : Type) where
  tokens : List Int
  targets : List Int
  extras : List (String × List Item)
  nonempty : 0 < tokens.length
  aligned : targets.length = tokens.length

inductive Fault where
  /-- `StopIteration`. -/
  | stop
  | source (why : String)
  | value (why : String)
  deriving DecidableEq

/-- `sequences start count` is what the iterator from `start` yields after `count` other
sequences, with the cursor after it; `reload` is a cursor as a checkpoint gives it back. -/
structure Source (Item Cursor : Type) where
  sequences : Option Cursor → Nat → Except Fault (Sequence Item × Cursor)
  reload : Cursor → Cursor

structure FeedCursor (Item Cursor : Type) where
  source : Option Cursor
  requeued : List (Sequence Item)
  deriving DecidableEq

/-- The form a checkpoint stores. -/
structure StoredCursor (Item Cursor : Type) where
  source : Option Cursor
  requeued : List (SequenceJson Item)

variable {Item Cursor : Type}

def Sequence.length (sequence : Sequence Item) : Nat := sequence.tokens.length

/-- The contract of a source: a yielded cursor resumes exactly after its sequence, and it is
JSON-clean. -/
structure Source.Resumable (source : Source Item Cursor) : Prop where
  exact : ∀ start count sequence cursor, source.sequences start count = .ok (sequence, cursor) →
    ∀ later, source.sequences (some cursor) later = source.sequences start (count + 1 + later)
  clean : ∀ start count sequence cursor,
    source.sequences start count = .ok (sequence, cursor) → source.reload cursor = cursor

/-! ### the stored form -/

def sequenceToJson (sequence : Sequence Item) : SequenceJson Item where
  tokens := sequence.tokens.map Int32.toInt
  targets := sequence.targets.map Int32.toInt
  extras := sequence.extras.map fun extra => (extra.1, extra.2.rows)
  nonempty := by simpa using sequence.nonempty
  aligned := by simpa using sequence.aligned

def sequenceFromJson (numpy : Numpy Item) (stored : SequenceJson Item) : Sequence Item where
  tokens := stored.tokens.map Int32.ofInt
  targets := stored.targets.map Int32.ofInt
  extras := stored.extras.map fun extra => (extra.1, numpy.asarray extra.2)
  nonempty := by simpa using stored.nonempty
  aligned := by simpa using stored.aligned

def cursorToJson (cursor : FeedCursor Item Cursor) : StoredCursor Item Cursor where
  source := cursor.source
  requeued := cursor.requeued.map sequenceToJson

def StoredCursor.reloaded (source : Source Item Cursor) (stored : StoredCursor Item Cursor) :
    StoredCursor Item Cursor :=
  { stored with source := stored.source.map source.reload }

/-! ### the feed -/

structure Feed (Item Cursor : Type) where
  source : Source Item Cursor
  /-- `prefetch_sequences`. -/
  depth : Nat
  /-- How much the worker reads before a hand-out. -/
  schedule : Nat → Nat
  start : Option Cursor
  pending : List (Sequence Item)
  sourceCursor : Option Cursor
  /-- What the feed has taken from the iterator. -/
  handed : Nat := 0
  /-- In the queue of the worker. -/
  ahead : List (Except Fault (Sequence Item × Cursor)) := []
  /-- What the feed has handed out: the records of a capture. -/
  captured : List (Sequence Item) := []

abbrev Pull (Item Cursor : Type) := StateT (Feed Item Cursor) (Except Fault)

namespace Feed

def make (numpy : Numpy Item) (source : Source Item Cursor) (depth : Nat) (schedule : Nat → Nat)
    (start : Option (StoredCursor Item Cursor)) : Feed Item Cursor where
  source := source
  depth := depth
  schedule := schedule
  start := start.bind StoredCursor.source
  pending := (start.map fun stored => stored.requeued.map (sequenceFromJson numpy)).getD []
  sourceCursor := start.bind StoredCursor.source

def cursor (feed : Feed Item Cursor) : FeedCursor Item Cursor :=
  ⟨feed.sourceCursor, feed.pending⟩

/-- The worker puts sequences into its queue as long as there is room. -/
def ingest : Nat → Feed Item Cursor → Feed Item Cursor
  | 0, feed => feed
  | count + 1, feed => ingest count (
      if feed.ahead.length < feed.depth then
        { feed with
          ahead := feed.ahead ++ [feed.source.sequences feed.start (feed.handed + feed.ahead.length)] }
      else feed)

/-- The consumer waits for an item, or drives the iterator itself. -/
def pull (feed : Feed Item Cursor) : Except Fault ((Sequence Item × Cursor) × Feed Item Cursor) :=
  let fed := feed.ingest (feed.schedule feed.handed)
  match fed.ahead with
  | item :: rest => item.map fun value => (value, { fed with ahead := rest, handed := fed.handed + 1 })
  | [] => (fed.source.sequences fed.start fed.handed).map fun value =>
    (value, { fed with handed := fed.handed + 1 })

end Feed

def nextSequence : Pull Item Cursor (Sequence Item) := fun feed =>
  match feed.pending with
  | sequence :: rest =>
    .ok (sequence, { feed with pending := rest, captured := feed.captured ++ [sequence] })
  | [] => feed.pull.map fun pulled => (pulled.1.1, { pulled.2 with
      sourceCursor := some pulled.1.2, captured := pulled.2.captured ++ [pulled.1.1] })

def requeue (sequences : List (Sequence Item)) : Pull Item Cursor Unit := fun feed =>
  .ok ((), { feed with pending := sequences ++ feed.pending })

def cursor : Pull Item Cursor (FeedCursor Item Cursor) := fun feed => .ok (feed.cursor, feed)

/-! ### hand-out order -/

namespace Feed

variable {feed other : Feed Item Cursor}

/-- What the feed will still take from its source. -/
def stream (feed : Feed Item Cursor) (later : Nat) : Except Fault (Sequence Item × Cursor) :=
  feed.source.sequences feed.start (feed.handed + later)

/-- The queue of the worker holds the next items of the source. -/
def Faithful (feed : Feed Item Cursor) : Prop :=
  ∀ (index : Nat) (item : Except Fault (Sequence Item × Cursor)),
    feed.ahead[index]? = some item → item = feed.stream index

theorem ingest_keeps (count : Nat) (faithful : feed.Faithful) : (feed.ingest count).Faithful ∧
      ∃ ahead, feed.ingest count = { feed with ahead := ahead } := by
  induction count generalizing feed with
  | zero => exact ⟨faithful, feed.ahead, rfl⟩
  | succ count ih =>
    unfold ingest
    split
    · have longer : Faithful { feed with ahead := feed.ahead ++
          [feed.source.sequences feed.start (feed.handed + feed.ahead.length)] } := by
        intro index item found
        by_cases inside : index < feed.ahead.length
        · rw [getElem?_append_left inside] at found
          exact faithful index item found
        -- the new item is the last one
        obtain rfl : index = feed.ahead.length := by
          have bound := (List.getElem?_eq_some_iff.mp found).1
          simp only [length_append, length_singleton] at bound
          omega
        simpa [stream] using found.symm
      obtain ⟨kept, ahead, same⟩ := ih longer
      exact ⟨kept, ahead, same⟩
    · exact ih faithful

theorem pull_spec (faithful : feed.Faithful) :
    ∃ ahead, Faithful { feed with ahead := ahead, handed := feed.handed + 1 } ∧
      feed.pull = (feed.stream 0).map fun value =>
        (value, { feed with ahead := ahead, handed := feed.handed + 1 }) := by
  obtain ⟨kept, ahead, same⟩ := ingest_keeps (feed.schedule feed.handed) faithful
  unfold pull
  rw [same] at kept ⊢
  cases ahead with
  | nil =>
    refine ⟨[], fun index item found => ?_, rfl⟩
    simp at found
  | cons item rest =>
    have first : item = feed.stream 0 := kept 0 item rfl
    refine ⟨rest, fun index later found => ?_, by rw [← first]⟩
    have next := kept (index + 1) later found
    rw [next]
    simp only [stream]
    congr 1
    omega

/-- Two feeds that hand out the same from here on. -/
structure Matches (feed other : Feed Item Cursor) : Prop where
  pending : feed.pending = other.pending
  sourceCursor : feed.sourceCursor = other.sourceCursor
  stream : ∀ later, feed.stream later = other.stream later
  faithful : feed.Faithful
  otherFaithful : other.Faithful

end Feed

theorem next_sequence_agrees :
    Agrees Feed.Matches (nextSequence : Pull Item Cursor (Sequence Item)) nextSequence := by
  intro feed other matched
  have pending := matched.pending
  unfold nextSequence
  cases waiting : feed.pending with
  | cons sequence rest =>
    rw [waiting] at pending
    rw [← pending]
    exact ⟨rfl, { matched with pending := rfl }⟩
  | nil =>
    rw [waiting] at pending
    rw [← pending]
    obtain ⟨ahead, faithful, pulled⟩ := Feed.pull_spec matched.faithful
    obtain ⟨otherAhead, otherFaithful, otherPulled⟩ := Feed.pull_spec matched.otherFaithful
    simp only [pulled, otherPulled, ← matched.stream 0]
    cases next : feed.stream 0 with
    | error fault => rfl
    | ok item =>
      refine ⟨rfl, ?_, rfl, fun later => ?_, faithful, otherFaithful⟩
      · exact waiting.trans pending
      · have shifted := matched.stream (later + 1)
        simp only [Feed.stream] at shifted ⊢
        have arithmetic (handed : Nat) : handed + 1 + later = handed + (later + 1) := by omega
        rw [arithmetic, arithmetic, shifted]

theorem requeue_agrees (sequences : List (Sequence Item)) :
    Agrees Feed.Matches (requeue sequences : Pull Item Cursor Unit) (requeue sequences) :=
  fun _ _ matched => ⟨rfl, { matched with pending := congrArg (sequences ++ ·) matched.pending }⟩

theorem cursor_agrees :
    Agrees Feed.Matches (cursor : Pull Item Cursor (FeedCursor Item Cursor)) cursor := by
  intro feed other matched
  refine ⟨?_, matched⟩
  rw [Feed.cursor, Feed.cursor, matched.sourceCursor, matched.pending]

/-! ### resuming -/

/-- `np.asarray` gives back the very arrays that `tolist` was taken of. -/
def Sequence.Reloadable (numpy : Numpy Item) (sequence : Sequence Item) : Prop :=
  ∀ extra ∈ sequence.extras, numpy.asarray extra.2.rows = extra.2

theorem reload_sequence {numpy : Numpy Item} {sequence : Sequence Item}
    (reloadable : sequence.Reloadable numpy) :
    sequenceFromJson numpy (sequenceToJson sequence) = sequence := by
  have words (values : List Int32) : (values.map Int32.toInt).map Int32.ofInt = values := by
    simp [Function.comp_def]
  have extras : (sequence.extras.map fun extra => (extra.1, extra.2.rows)).map
      (fun extra => (extra.1, numpy.asarray extra.2)) = sequence.extras := by
    rw [map_map]
    refine (map_congr_left fun extra mem => ?_).trans (map_id _)
    exact Prod.ext rfl (reloadable extra mem)
  obtain ⟨tokens, targets, extra, nonempty, aligned⟩ := sequence
  simp only [sequenceFromJson, sequenceToJson, Sequence.mk.injEq]
  exact ⟨words tokens, words targets, extras⟩

namespace Feed

variable {feed other : Feed Item Cursor} {source : Source Item Cursor}

/-- The source cursor resumes where the hand-out is. -/
structure Tracks (source : Source Item Cursor) (feed : Feed Item Cursor) : Prop where
  drives : feed.source = source
  faithful : feed.Faithful
  resumes : ∀ later, source.sequences feed.sourceCursor later = feed.stream later
  clean : feed.sourceCursor.map source.reload = feed.sourceCursor

theorem make_tracks (numpy : Numpy Item) (source : Source Item Cursor) (depth : Nat)
    (schedule : Nat → Nat) (start : Option (StoredCursor Item Cursor))
    (clean : ∀ stored ∈ start, stored.source.map source.reload = stored.source) :
    Tracks source (make numpy source depth schedule start) := by
  refine ⟨rfl, fun index item found => ?_, fun later => ?_, ?_⟩
  · simp [make] at found
  · simp [make, stream]
  · cases start with
    | none => rfl
    | some stored => exact clean stored rfl

theorem resumed_matches {numpy : Numpy Item} (tracks : Tracks source feed)
    (reloadable : ∀ sequence ∈ feed.pending, sequence.Reloadable numpy) (depth : Nat)
    (schedule : Nat → Nat) : feed.Matches (make numpy source depth schedule
      (some ((cursorToJson feed.cursor).reloaded source))) := by
  refine ⟨?_, tracks.clean.symm, fun later => ?_, tracks.faithful, fun index item found => ?_⟩
  · have reloaded : (feed.pending.map sequenceToJson).map (sequenceFromJson numpy) =
        feed.pending := by
      rw [map_map]
      exact (map_congr_left fun sequence mem =>
        reload_sequence (reloadable sequence mem)).trans (map_id _)
    exact reloaded.symm
  · rw [← tracks.resumes later]
    simp only [stream, make, Nat.zero_add]
    change _ = source.sequences (feed.sourceCursor.map source.reload) later
    rw [tracks.clean]
  · simp [make] at found

end Feed

/-- The relation of a feed that tracks its source to itself. -/
def Tracked (source : Source Item Cursor) (feed other : Feed Item Cursor) : Prop :=
  feed = other ∧ feed.Tracks source

theorem next_sequence_tracked {source : Source Item Cursor} (contract : source.Resumable) :
    Agrees (Tracked source) (nextSequence : Pull Item Cursor (Sequence Item)) nextSequence := by
  rintro feed _ ⟨rfl, tracks⟩
  unfold nextSequence
  cases waiting : feed.pending with
  | cons sequence rest =>
    exact ⟨rfl, rfl, { tracks with }⟩
  | nil =>
    obtain ⟨ahead, faithful, pulled⟩ := Feed.pull_spec tracks.faithful
    rw [pulled]
    cases next : feed.stream 0 with
    | error fault => rfl
    | ok item =>
      obtain ⟨sequence, after⟩ := item
      have yielded : source.sequences feed.start feed.handed = .ok (sequence, after) := by
        rw [← tracks.drives]
        exact next
      refine ⟨rfl, rfl, tracks.drives, faithful, fun later => ?_, ?_⟩
      · rw [contract.exact _ _ _ _ yielded later, ← tracks.drives]
        rfl
      · exact congrArg some (contract.clean _ _ _ _ yielded)

theorem requeue_tracked (source : Source Item Cursor) (sequences : List (Sequence Item)) :
    Agrees (Tracked source) (requeue sequences : Pull Item Cursor Unit) (requeue sequences) := by
  rintro feed _ ⟨rfl, tracks⟩
  exact ⟨rfl, rfl, { tracks with }⟩

theorem cursor_tracked (source : Source Item Cursor) :
    Agrees (Tracked source) (cursor : Pull Item Cursor (FeedCursor Item Cursor)) cursor := by
  rintro feed _ ⟨rfl, tracks⟩
  exact ⟨rfl, rfl, tracks⟩

end Dataflow.Data
