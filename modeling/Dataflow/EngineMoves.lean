import Dataflow.Standing

/-!
What each move of the engine does to the invariant of a run. Every move rewrites
one record and the jobs of one object: `Rewrites` says that the ledger, the pool
and its calls follow the record, and `Rewrites.moves` reduces the rest to the new
standing of that object.
-/

namespace Dataflow

open StatefulOutcome RunState KeyedTable ObjectRecord

variable {Pool : Type} {memory after : Memory} {frontier : Frontier}
  {state next : RunState Pool} {object : String} {record : ObjectRecord}
  {change : ObjectRecord → ObjectRecord} {location : Location} {buffer : Buffer}

/-! ### buffers of a record -/

def ObjectRecord.bufferAt (record : ObjectRecord) (location : Location) : Option Buffer :=
  (record.slot location).map (·.buffer)

@[simp] theorem buffer_at_set_slot (record : ObjectRecord) (location target : Location)
    (slot : Option Slot) : (record.setSlot target slot).bufferAt location =
      if location = target then slot.map (·.buffer) else record.bufferAt location := by
  cases location <;> cases target <;> rfl

theorem buffer_at_fast (record : ObjectRecord) :
    record.bufferAt .fast = record.fast.map (·.buffer) := rfl

theorem buffer_at_backing (record : ObjectRecord) :
    record.bufferAt .backing = record.backing.map (·.buffer) := rfl

def bufferWeight (handle : Nat) (buffer : Option Buffer) : Int :=
  if buffer.map (·.handle) = some handle then 1 else 0

theorem occupied_buffer (location : Location) (record : ObjectRecord) : occupied location record =
    if (record.bufferAt location).isSome then record.sizeBytes else 0 := by
  simp [occupied, bufferAt]

theorem holds_buffer (handle : Nat) (record : ObjectRecord) : holds handle record =
    bufferWeight handle (record.bufferAt .fast) +
      bufferWeight handle (record.bufferAt .backing) := by
  unfold holds
  rw [buffer_at_fast, buffer_at_backing]
  cases record.fast <;> cases record.backing <;> simp [slotHolds, bufferWeight]

/-- A rewrite leaves every buffer but the one at the location in its slot. -/
def KeepsElsewhere (location : Location) (record changed : ObjectRecord) : Prop :=
  ∀ other, other ≠ location → changed.bufferAt other = record.bufferAt other

theorem KeepsElsewhere.holds {changed : ObjectRecord}
    (keeps : KeepsElsewhere location record changed) (handle : Nat) :
    holds handle changed = holds handle record - bufferWeight handle (record.bufferAt location) +
      bufferWeight handle (changed.bufferAt location) := by
  rw [holds_buffer, holds_buffer]
  cases location with
  | fast =>
    rw [keeps .backing (by decide)]
    omega
  | backing =>
    rw [keeps .fast (by decide)]
    omega

theorem keeps_elsewhere_set (record : ObjectRecord) (location : Location) (slot : Option Slot) :
    KeepsElsewhere location record (record.setSlot location slot) := by
  intro other ne
  rw [buffer_at_set_slot, if_neg ne]

/-! ### the general move -/

theorem modify_mem {table : ObjectTable} (distinct : (table.map (·.id)).Nodup)
    (found : table.get object = some record) {entry : ObjectRecord}
    (mem : entry ∈ table.modify object change) : entry ∈ table ∨ entry = change record := by
  obtain ⟨old, before, same⟩ := List.mem_map.mp mem
  by_cases hit : old.id = object
  · right
    have single : table.get old.id = some old := lookup_of_mem distinct before
    rw [hit, found] at single
    cases single
    simpa [hit] using same.symm
  · left
    rw [if_neg hit] at same
    exact same ▸ before

/-- Neither bytes nor buffers moved. -/
structure SameBooks (state next : RunState Pool) : Prop where
  ledger : next.ledger = state.ledger
  pool : next.pool = state.pool
  calls : next.poolCalls = state.poolCalls
  provided : next.providedHandles = state.providedHandles

/-- The part of the state only the dispatch loop itself writes. -/
def control (state : RunState Pool) : Phase × Nat × Option String × Option TaskDone × List Launch :=
  (state.phase, state.cursor, state.currentTaskId, state.outstanding, state.launches)

/-- The part of the state the invariant of a run reads. -/
def view (state : RunState Pool) :=
  (state.table, state.ledger, state.pool, state.poolCalls, state.providedHandles,
    state.h2d.queue, state.h2d.inflight, state.d2h.queue, state.d2h.inflight, state.deferred)

def lanesOf (state : RunState Pool) (object : String) : Place :=
  { placeOf state object with record := none }

theorem lanes_of_place (here : placeOf state object = { record := some record }) :
    lanesOf state object = {} := by
  rw [lanesOf, here]

/-- Objects whose fast copy is live and must stay so. -/
def Live (held : List String) (state : RunState Pool) : Prop :=
  ∀ object ∈ held, state.table.fastState object = some .live

theorem live_nil (state : RunState Pool) : Live [] state :=
  List.forall_mem_nil _

variable [PoolOps Pool] {setting : Setting Pool}

theorem Untouched.extend (untouched : Untouched setting state)
    (provided : next.providedHandles = state.providedHandles)
    (calls : ∀ call ∈ next.poolCalls, call ∈ state.poolCalls ∨ call.handle ∉ setting.watched) :
    Untouched setting next := by
  constructor
  · exact provided.trans untouched.caller
  intro handle watched
  constructor
  · rw [provided]
    exact (untouched.watched handle watched).1
  intro call mem
  rcases calls call mem with old | new
  · exact (untouched.watched handle watched).2 call old
  · intro same
    exact new (same ▸ watched)

theorem call_appended {calls : List PoolCall} {call : PoolCall} (last : PoolCall)
    (outside : last.handle ∉ setting.watched) (mem : call ∈ calls ++ [last]) :
    call ∈ calls ∨ call.handle ∉ setting.watched := by
  rw [List.mem_append, List.mem_singleton] at mem
  rcases mem with old | new
  · exact Or.inl old
  · exact Or.inr (new ▸ outside)

/-- The invariant of a run without the standings of its objects. -/
structure Books (setting : Setting Pool) (state : RunState Pool) : Prop where
  distinct : (state.table.map (·.id)).Nodup
  positive : ∀ record ∈ state.table, 0 < record.sizeBytes
  accounted : ∀ location, state.ledger.used location = total (occupied location) state.table
  capped : state.ledger.Capped
  balanced : Balanced state
  untouched : Untouched setting state
  custody : Custody setting state

theorem Tracks.books (tracks : Tracks setting memory frontier state) : Books setting state :=
  { tracks with }

theorem Books.halts {fault : EngineError} (books : Books setting state)
    (kind : ∀ location, fault ≠ .ledger location) : Halts setting fault state :=
  { books with notLedger := kind }

/-- A move rewrites the record of one object; the ledger, the pool and its calls follow. -/
structure Rewrites (setting : Setting Pool) (state next : RunState Pool) (object : String)
    (record : ObjectRecord) (change : ObjectRecord → ObjectRecord) : Prop where
  found : state.table.get object = some record
  keepsId : ∀ entry, (change entry).id = entry.id
  keepsSize : (change record).sizeBytes = record.sizeBytes
  table : next.table = state.table.modify object change
  books : ∀ location, next.ledger.used location =
    state.ledger.used location - occupied location record + occupied location (change record)
  capped : next.ledger.Capped
  provided : next.providedHandles = state.providedHandles
  buffers : ∀ handle, handle ∉ state.providedHandles → balance handle next.poolCalls =
    balance handle state.poolCalls - holds handle record + holds handle (change record)
  calls : ∀ call ∈ next.poolCalls, call ∈ state.poolCalls ∨ call.handle ∉ setting.watched
  foreign : ∀ handle ∈ setting.watched, setting.foreign next.pool handle
  fast : ∀ buffer, (change record).bufferAt .fast = some buffer → buffer.handle ∉ setting.watched

theorem Books.rewrite (kept : Books setting state)
    (move : Rewrites setting state next object record change) : Books setting next where
  distinct := by
    rw [move.table]
    exact (keys_update move.keepsId).symm ▸ kept.distinct
  positive := by
    intro entry mem
    rw [move.table] at mem
    rcases modify_mem kept.distinct move.found mem with old | new
    · exact kept.positive entry old
    · rw [new, move.keepsSize]
      exact kept.positive record (lookup_mem move.found)
  accounted := by
    intro location
    have moved : total (occupied location) (state.table.modify object change) =
        total (occupied location) state.table - occupied location record +
          occupied location (change record) :=
      total_update kept.distinct move.found
    rw [move.table, moved, move.books, kept.accounted]
  capped := move.capped
  balanced := by
    intro handle outside
    rw [move.provided] at outside
    have moved : total (holds handle) (state.table.modify object change) =
        total (holds handle) state.table - holds handle record + holds handle (change record) :=
      total_update kept.distinct move.found
    rw [move.table, moved, move.buffers handle outside, kept.balanced handle outside]
  untouched := kept.untouched.extend move.provided move.calls
  custody := by
    intro handle watched
    constructor
    · exact move.foreign handle watched
    intro entry mem slot inFast
    rw [move.table] at mem
    rcases modify_mem kept.distinct move.found mem with old | new
    · exact (kept.custody handle watched).2 entry old slot inFast
    · rw [new] at inFast
      intro same
      exact move.fast slot.buffer (by rw [buffer_at_fast, inFast]; rfl) (same ▸ watched)

theorem Tracks.foreign (tracks : Tracks setting memory frontier state) :
    ∀ handle ∈ setting.watched, setting.foreign state.pool handle :=
  fun handle watched => (tracks.custody handle watched).1

theorem Books.fast_unwatched (kept : Books setting state)
    (found : state.table.get object = some record) (inFast : record.bufferAt .fast = some buffer) :
    buffer.handle ∉ setting.watched := by
  intro watched
  obtain ⟨slot, stored, same⟩ := Option.map_eq_some_iff.mp inFast
  exact (kept.custody _ watched).2 record (lookup_mem found) slot stored (by rw [same])

theorem Tracks.size_pos (tracks : Tracks setting memory frontier state)
    (found : state.table.get object = some record) : 0 < record.sizeBytes :=
  tracks.positive record (lookup_mem found)

theorem Tracks.covered (tracks : Tracks setting memory frontier state)
    (found : state.table.get object = some record) (location : Location)
    (held : (record.slot location).isSome) : record.sizeBytes ≤ state.ledger.used location := by
  have nonneg : ∀ entry ∈ state.table, 0 ≤ occupied location entry := by
    intro entry mem
    have positive := tracks.positive entry mem
    unfold occupied
    split <;> omega
  have part := weight_le_total nonneg (lookup_mem found)
  rw [tracks.accounted location]
  simpa [occupied, held] using part

/-- A move that keeps every buffer in its slot: only states, versions, events and
queues change. -/
theorem Books.settles (kept : Books setting state) (found : state.table.get object = some record)
    (keepsId : ∀ entry, (change entry).id = entry.id)
    (keepsSize : (change record).sizeBytes = record.sizeBytes)
    (same : ∀ location, (change record).bufferAt location = record.bufferAt location)
    (table : next.table = state.table.modify object change) (quiet : SameBooks state next) :
    Rewrites setting state next object record change where
  found := found
  keepsId := keepsId
  keepsSize := keepsSize
  table := table
  books := by
    intro location
    rw [quiet.ledger, occupied_buffer, occupied_buffer, same, keepsSize]
    omega
  capped := quiet.ledger ▸ kept.capped
  provided := quiet.provided
  buffers := by
    intro handle _
    rw [quiet.calls, holds_buffer, holds_buffer, same, same]
    omega
  calls := fun call mem => Or.inl (quiet.calls ▸ mem)
  foreign := fun handle watched => quiet.pool ▸ (kept.custody handle watched).1
  fast := fun buffer inFast => kept.fast_unwatched found ((same .fast).symm.trans inFast)

theorem Books.notes (kept : Books setting state) (found : state.table.get object = some record)
    (table : next.table = state.table) (quiet : SameBooks state next) :
    Rewrites setting state next object record (fun entry => entry) :=
  kept.settles found (fun _ => rfl) rfl (fun _ => rfl) (table.trans ObjectTable.modify_id.symm)
    quiet

/-- A move that empties one slot of an object: its buffer goes back to the pool, or it
was the caller's own. -/
theorem Books.gives (kept : Books setting state) (found : state.table.get object = some record)
    (stored : record.bufferAt location = some buffer)
    (keepsId : ∀ entry, (change entry).id = entry.id)
    (keepsSize : (change record).sizeBytes = record.sizeBytes)
    (gone : (change record).bufferAt location = none)
    (elsewhere : KeepsElsewhere location record (change record))
    (table : next.table = state.table.modify object change)
    (ledger : next.ledger = state.ledger.subtract location record.sizeBytes)
    (provided : next.providedHandles = state.providedHandles)
    (put : (buffer.handle ∉ setting.watched ∧
        next.poolCalls = state.poolCalls ++ [.returned buffer] ∧
        next.pool = PoolOps.put state.pool buffer) ∨
      (buffer.handle ∈ state.providedHandles ∧ next.poolCalls = state.poolCalls ∧
        next.pool = state.pool)) : Rewrites setting state next object record change where
  found := found
  keepsId := keepsId
  keepsSize := keepsSize
  table := table
  books := by
    intro place
    rw [ledger, Ledger.used_subtract (kept.positive record (lookup_mem found)), occupied_buffer,
      occupied_buffer, keepsSize]
    by_cases here : place = location
    · simp [here, stored, gone]
    · rw [elsewhere place here, if_neg here]
      omega
  capped := by
    rw [ledger]
    exact Ledger.capped_subtract kept.capped (kept.positive record (lookup_mem found))
  provided := provided
  buffers := by
    intro handle outside
    rw [elsewhere.holds, stored, gone]
    rcases put with ⟨_, calls, _⟩ | ⟨own, calls, _⟩
    · rw [calls]
      simp only [balance, total_append, total_cons, total_nil, callWeight, bufferWeight,
        Option.map_some, Option.map_none, Option.some.injEq]
      split <;> simp
      omega
    · have apart : buffer.handle ≠ handle := fun same => outside (same ▸ own)
      simp [calls, bufferWeight, apart]
  calls := by
    intro call mem
    rcases put with ⟨outside, calls, _⟩ | ⟨_, calls, _⟩
    · exact call_appended (.returned buffer) outside (calls ▸ mem)
    · exact Or.inl (calls ▸ mem)
  foreign := by
    intro handle watched
    have before := (kept.custody handle watched).1
    rcases put with ⟨outside, _, pool⟩ | ⟨_, _, pool⟩
    · rw [pool]
      exact setting.keeps.put before fun same => outside (same ▸ watched)
    · exact pool ▸ before
  fast := by
    intro other inFast
    by_cases here : Location.fast = location
    · rw [here, gone] at inFast
      cases inFast
    · exact kept.fast_unwatched found ((elsewhere .fast here).symm.trans inFast)

/-! ### taking buffers -/

/-- What the source of a buffer may be: the caller, or the pool. -/
structure Obtained (setting : Setting Pool) (state : RunState Pool) (location : Location)
    (buffer : Buffer) (taken : RunState Pool) : Prop where
  same : taken = { state with pool := taken.pool, poolCalls := taken.poolCalls }
  balance : ∀ handle, handle ∉ state.providedHandles →
    balance handle taken.poolCalls =
      Dataflow.balance handle state.poolCalls + if buffer.handle = handle then 1 else 0
  calls : ∀ call ∈ taken.poolCalls, call ∈ state.poolCalls ∨ call.handle ∉ setting.watched
  foreign : ∀ handle ∈ setting.watched, setting.foreign taken.pool handle
  fast : location = .fast → buffer.handle ∉ setting.watched

theorem Obtained.rewrites {charged taken : RunState Pool} {sizeBytes : Int}
    (got : Obtained setting charged location buffer taken) (kept : Books setting state)
    (found : state.table.get object = some record) (vacant : record.bufferAt location = none)
    (sized : sizeBytes = record.sizeBytes)
    (admits : state.ledger.canReserve location sizeBytes = true)
    (keepsId : ∀ entry, (change entry).id = entry.id)
    (keepsSize : (change record).sizeBytes = record.sizeBytes)
    (filled : (change record).bufferAt location = some buffer)
    (elsewhere : KeepsElsewhere location record (change record))
    (before : charged.poolCalls = state.poolCalls)
    (owned : charged.providedHandles = state.providedHandles)
    (table : next.table = state.table.modify object change)
    (ledger : next.ledger = state.ledger.add location sizeBytes)
    (pool : next.pool = taken.pool) (calls : next.poolCalls = taken.poolCalls)
    (provided : next.providedHandles = state.providedHandles) :
    Rewrites setting state next object record change where
  found := found
  keepsId := keepsId
  keepsSize := keepsSize
  table := table
  books := by
    intro place
    rw [ledger, Ledger.used_add, occupied_buffer, occupied_buffer, keepsSize, sized]
    by_cases here : place = location
    · simp [here, vacant, filled]
    · rw [elsewhere place here, if_neg here]
      omega
  capped := by
    rw [ledger]
    exact Ledger.capped_add kept.capped (sized ▸ kept.positive record (lookup_mem found)) admits
  provided := provided
  buffers := by
    intro handle outside
    rw [elsewhere.holds, vacant, filled, calls, got.balance handle (owned ▸ outside), before]
    simp only [bufferWeight, Option.map_some, Option.map_none, Option.some.injEq]
    simp
    omega
  calls := by
    intro call mem
    exact before ▸ got.calls call (calls ▸ mem)
  foreign := fun handle watched => pool ▸ got.foreign handle watched
  fast := by
    intro other inFast
    by_cases here : Location.fast = location
    · rw [here, filled, Option.some.injEq] at inFast
      exact inFast ▸ got.fast here.symm
    · exact kept.fast_unwatched found ((elsewhere .fast here).symm.trans inFast)

theorem Halts.of_same {fault : EngineError} (tracks : Tracks setting memory frontier state)
    (kind : ∀ location, fault ≠ .ledger location) (capped : next.ledger.Capped)
    (table : next.table = state.table) (calls : next.poolCalls = state.poolCalls)
    (provided : next.providedHandles = state.providedHandles) : Halts setting fault next where
  notLedger := kind
  capped := capped
  balanced := by
    intro handle outside
    rw [provided] at outside
    rw [calls, table]
    exact tracks.balanced handle outside
  untouched := tracks.untouched.extend provided fun call mem => Or.inl (calls ▸ mem)

theorem halts_charged {tag : String} {sizeBytes : Int}
    (tracks : Tracks setting memory frontier state) (positive : 0 < sizeBytes)
    (admits : state.ledger.canReserve location sizeBytes = true)
    (ledger : next.ledger = state.ledger.add location sizeBytes)
    (table : next.table = state.table) (calls : next.poolCalls = state.poolCalls)
    (provided : next.providedHandles = state.providedHandles) : Halts setting (.pool tag) next :=
  Halts.of_same tracks (by simp) (ledger ▸ Ledger.capped_add tracks.capped positive admits) table
    calls provided

theorem take_buffer {charged : RunState Pool} {stopped : EngineError → RunState Pool → Prop}
    (foreign : ∀ handle ∈ setting.watched, setting.foreign charged.pool handle)
    (halts : ∀ tag, stopped (.pool tag) charged) (location : Location)
    (sizeBytes : Int) (tag : Option String) (escape : Bool) :
    Ensures (charged.takeBuffer location sizeBytes tag escape)
      (fun got => ∃ pool calls, got.2 = { charged with pool := pool, poolCalls := calls } ∧
        Obtained setting charged location got.1 got.2) stopped := by
  have took : ∀ buffer pool, (∀ handle, setting.foreign charged.pool handle →
      buffer.handle ≠ handle ∧ setting.foreign pool handle) →
      Obtained setting charged location buffer
        { charged with pool := pool, poolCalls := charged.poolCalls ++ [.took buffer] } := by
    intro buffer after outside
    have unwatched : buffer.handle ∉ setting.watched :=
      fun watched => (outside _ (foreign _ watched)).1 rfl
    refine ⟨rfl, ?_, ?_, fun handle watched => (outside handle (foreign handle watched)).2,
      fun _ => unwatched⟩
    · intro handle _
      simp [balance, callWeight]
    · exact fun call mem => call_appended (.took buffer) unwatched mem
  unfold takeBuffer
  cases escape with
  | false =>
    cases got : PoolOps.get charged.pool location sizeBytes tag with
    | none => exact halts _
    | some pair =>
      exact ⟨_, _, rfl, took pair.1 pair.2 fun _ foreign => setting.keeps.get foreign got⟩
  | true =>
    cases tag with
    | none =>
      cases got : PoolOps.get charged.pool location sizeBytes none with
      | none => exact halts _
      | some pair =>
        exact ⟨_, _, rfl, took pair.1 pair.2 fun _ foreign => setting.keeps.get foreign got⟩
    | some tag =>
      cases got : PoolOps.getEscaped charged.pool location sizeBytes tag with
      | none => simpa [got] using halts tag
      | some pair =>
        simp only [got]
        exact ⟨_, _, rfl, took pair.1 pair.2 fun _ foreign => setting.keeps.getEscaped foreign got⟩

/-! ### results of a move -/

theorem Tracks.shift {later : Frontier} (tracks : Tracks setting memory frontier state)
    (carries : ∀ object, Standing setting.program frontier object (memory object)
        (placeOf state object) →
      Standing setting.program later object (memory object) (placeOf state object)) :
    Tracks setting memory later state :=
  { tracks with standing := fun object => carries object (tracks.standing object) }

theorem Tracks.of_view (tracks : Tracks setting memory frontier state)
    (same : view next = view state) : Tracks setting memory frontier next := by
  simp only [view, Prod.mk.injEq] at same
  obtain ⟨table, ledger, pool, calls, provided, inQueue, inFlight, outQueue, outFlight,
    waiting⟩ := same
  have places : ∀ object, placeOf next object = placeOf state object := by
    intro object
    simp only [placeOf, table, inQueue, inFlight, outQueue, outFlight, waiting]
  constructor
  · exact table ▸ tracks.distinct
  · exact table ▸ tracks.positive
  · exact fun object => places object ▸ tracks.standing object
  · rw [table, ledger]
    exact tracks.accounted
  · exact ledger ▸ tracks.capped
  · intro handle outside
    rw [provided] at outside
    rw [table, calls]
    exact tracks.balanced handle outside
  · exact tracks.untouched.extend provided fun call mem => Or.inl (calls ▸ mem)
  · intro handle watched
    rw [table, pool]
    exact tracks.custody handle watched

structure Moves (setting : Setting Pool) (memory : Memory) (frontier : Frontier)
    (held : List String) (state next : RunState Pool) : Prop where
  tracks : Tracks setting memory frontier next
  live : Live held next
  control : control next = control state

variable {held : List String}

theorem Moves.trans {middle : RunState Pool}
    (first : Moves setting memory frontier held state middle)
    (second : Moves setting after frontier held middle next) :
    Moves setting after frontier held state next :=
  ⟨second.tracks, second.live, second.control.trans first.control⟩

section

variable (move : Rewrites setting state next object record change)
include move

theorem Rewrites.place_of :
    placeOf next object = { lanesOf next object with record := some (change record) } := by
  simp only [placeOf, lanesOf, move.table, ObjectTable.get_modify_self move.keepsId, move.found,
    Option.map_some]

theorem Rewrites.get_other {other : String} (ne : other ≠ object) :
    next.table.get other = state.table.get other := by
  rw [move.table, ObjectTable.get_modify_other move.keepsId ne]

theorem Rewrites.tracks (kept : Books setting state)
    (others : ∀ other, other ≠ object → Standing setting.program frontier other (after other)
      { lanesOf next other with record := state.table.get other })
    (stands : Standing setting.program frontier object (after object)
      { lanesOf next object with record := some (change record) }) :
    Tracks setting after frontier next := by
  refine { kept.rewrite move with standing := ?_ }
  intro other
  by_cases moved : other = object
  · subst moved
    rw [move.place_of]
    exact stands
  · have place : placeOf next other =
        { lanesOf next other with record := next.table.get other } := rfl
    rw [place, move.get_other moved]
    exact others other moved

/-- The held objects stay live unless the rewritten one is held, was live and is not
any more. -/
theorem Rewrites.live (live : Live held state)
    (harmless : object ∈ held → record.fast.map (·.state) ≠ some .live ∨
      (change record).fast.map (·.state) = some .live) : Live held next := by
  intro other mem
  have before := live other mem
  unfold ObjectTable.fastState at before ⊢
  by_cases moved : other = object
  · subst moved
    have here : next.table.get other = some (change record) := congrArg Place.record move.place_of
    rw [move.found] at before
    rw [here]
    rcases harmless mem with dead | alive
    · exact absurd before dead
    · exact alive
  · rw [move.get_other moved]
    exact before

theorem Rewrites.moves (tracks : Tracks setting memory frontier state) (live : Live held state)
    (lanes : ∀ other, other ≠ object → lanesOf next other = lanesOf state other)
    (reading : ∀ other, other ≠ object → after other = memory other)
    (stands : Standing setting.program frontier object (after object)
      { lanesOf next object with record := some (change record) })
    (harmless : object ∈ held → record.fast.map (·.state) ≠ some .live ∨
      (change record).fast.map (·.state) = some .live)
    (same : control next = control state) : Moves setting after frontier held state next := by
  refine ⟨move.tracks tracks.books ?_ stands, move.live live harmless, same⟩
  intro other ne
  rw [lanes other ne, reading other ne]
  exact tracks.standing other

theorem Rewrites.stays (tracks : Tracks setting memory frontier state) (live : Live held state)
    (here : placeOf state object = { record := some record })
    (lanes : ∀ other, lanesOf next other = lanesOf state other)
    (reading : ∀ other, other ≠ object → after other = memory other)
    (stands : Standing setting.program frontier object (after object)
      { record := some (change record) })
    (harmless : object ∈ held → record.fast.map (·.state) ≠ some .live ∨
      (change record).fast.map (·.state) = some .live)
    (same : control next = control state) : Moves setting after frontier held state next := by
  refine move.moves tracks live (fun other _ => lanes other) reading ?_ harmless same
  rw [lanes, lanes_of_place here]
  exact stands

end

/-! ### inversions of a standing -/

section Inversions

variable {program : Program} {cell : Option Cell} {place : Place} {job : TransferJob}

section

variable (standing : Standing program frontier object cell place)
include standing

theorem Standing.carry {later : Frontier} (onward : frontier.retired ≤ later.retired)
    (reserving : cell = none → ∀ output ∈ frontier.reserving, output.id = object →
      output ∈ later.reserving) (due : ReloadDue program frontier object → place.queued ≠ [] →
      ReloadDue program later object) : Standing program later object cell place := by
  cases standing with
  | unknown unseen here => exact .unknown unseen here
  | absent record gone rest seen here => exact .absent record gone rest seen here
  | resident record slot held live rest seen here =>
    exact .resident record slot held live rest seen here
  | arriving record slot source job held inbound stored live same seen here =>
    exact .arriving record slot source job held inbound stored live same seen here
  | reserved output slot listed named pending first unseen here =>
    exact .reserved output slot (reserving unseen output listed named) named pending first unseen
      here
  | returning record source job gone stored live sized cause seen here =>
    apply Standing.returning record source job gone stored live sized _ seen here
    rcases cause with fired | reload
    · exact Or.inl (fired.carry onward)
    · exact Or.inr (due reload (by simp [here]))
  | leaving record slot job again held outgoing rest sized fired seen here =>
    refine .leaving record slot job again held outgoing rest sized ?_ seen here
    exact fun late waits => ⟨(fired late waits).1, (fired late waits).2.carry onward⟩
  | departing record slot target job again held outbound stored inward same sized fired seen
      here =>
      refine .departing record slot target job again held outbound stored inward same sized ?_
        seen here
      exact fun late waits => ⟨(fired late waits).1, (fired late waits).2.carry onward⟩

/-- A job towards fast memory that has not started was fired by a directive or by
the valve, and the reading has the object in fast memory already. -/
theorem Standing.of_awaited (awaited : job ∈ place.queued ++ place.waiting) :
    (Fired program frontier job ∨ ReloadDue program frontier object) ∧
    ∃ known, cell = some known ∧ known.fast ≠ none := by
  cases standing with
  | returning record source only gone stored live sized due seen here =>
    obtain rfl : job = only := by simpa [here] using awaited
    exact ⟨due, _, seen, by simp⟩
  | leaving record slot only again held outgoing rest sized fired seen here
  | departing record slot target only again held outbound stored inward same sized fired seen
      here =>
      obtain rfl : again = some job := by simpa [here] using awaited
      exact ⟨Or.inl (fired job rfl).2, _, seen, by simp⟩
  | _ =>
    rename_i here
    simp [here] at awaited

theorem Standing.of_no_jobs
    (written : frontier.reserving = []) (jobless : place = { record := place.record }) :
    (cell = none ∧ place.record = none) ∨
    ∃ record, place.record = some record ∧ AtRest record.fast ∧ AtRest record.backing ∧
      cell = some { version := record.version, fast := versionOf record.fast
                    backing := versionOf record.backing } := by
  cases standing with
  | unknown unseen here => exact Or.inl ⟨unseen, by rw [here]⟩
  | reserved output slot listed =>
    rw [written] at listed
    cases listed
  | absent record gone rest seen here =>
    right
    refine ⟨record, by rw [here], ?_, rest, by simp [seen, gone, versionOf]⟩
    intro slot impossible
    rw [gone] at impossible
    cases impossible
  | resident record slot held live rest seen here =>
    right
    refine ⟨record, by rw [here], ?_, rest, by simp [seen, held, versionOf]⟩
    intro other same
    rw [held, Option.some.injEq] at same
    exact same ▸ live
  | _ =>
    rename_i here
    simp [here] at jobless

omit standing in
theorem Standing.of_rest {record : ObjectRecord} (fast : AtRest record.fast)
    (backing : AtRest record.backing)
    (seen : cell = some { version := record.version, fast := versionOf record.fast
                          backing := versionOf record.backing })
    (here : place = { record := some record }) : Standing program frontier object cell place := by
  cases inFast : record.fast with
  | none => exact .absent record inFast backing (by simp [seen, inFast, versionOf]) here
  | some slot =>
    exact .resident record slot inFast (fast slot inFast) backing
      (by simp [seen, inFast, versionOf]) here

theorem Standing.of_queued (queued : job ∈ place.queued) :
    ∃ record source, record.fast = none ∧ record.backing = some source ∧
      source.state = .live ∧ job.sizeBytes = record.sizeBytes ∧
      (Fired program frontier job ∨ ReloadDue program frontier object) ∧
      cell = some { version := record.version, fast := some source.version
                    backing := some source.version } ∧
      place = { record := some record, queued := [job] } := by
  cases standing with
  | returning record source only gone stored live sized due seen here =>
    obtain rfl : job = only := by simpa [here] using queued
    exact ⟨record, source, gone, stored, live, sized, due, seen, here⟩
  | _ =>
    rename_i here
    simp [here] at queued

theorem Standing.of_leaving (queued : job ∈ place.leaving) :
    ∃ record slot again, record.fast = some slot ∧ slot.state = .pendingOutbound ∧
      AtRest record.backing ∧ job.sizeBytes = record.sizeBytes ∧
      (∀ late, again = some late → late.sizeBytes = record.sizeBytes ∧ Fired program frontier late) ∧
      cell = some { version := record.version, fast := again.map fun _ => slot.version
                    backing := some slot.version } ∧
      place = { record := some record, leaving := [job], waiting := again.toList } := by
  cases standing with
  | leaving record slot only again held outgoing rest sized fired seen here =>
    obtain rfl : job = only := by simpa [here] using queued
    exact ⟨record, slot, again, held, outgoing, rest, sized, fired, seen, here⟩
  | _ =>
    rename_i here
    simp [here] at queued

theorem Standing.of_arriving (inflight : place.arriving = some job) :
    ∃ record slot source, record.fast = some slot ∧ slot.state = .inbound ∧
      record.backing = some source ∧ source.state = .live ∧ slot.version = source.version ∧
      cell = some { version := record.version, fast := some source.version
                    backing := some source.version } ∧
      place = { record := some record, arriving := some job } := by
  cases standing with
  | arriving record slot source only held inbound stored live same seen here =>
    obtain rfl : job = only := by simpa [here] using inflight.symm
    exact ⟨record, slot, source, held, inbound, stored, live, same, seen, here⟩
  | _ =>
    rename_i here
    simp [here] at inflight

theorem Standing.of_departing (inflight : place.departing = some job) :
    ∃ record slot target again, record.fast = some slot ∧ slot.state = .outbound ∧
      record.backing = some target ∧ target.state = .inbound ∧ target.version = slot.version ∧
      job.sizeBytes = record.sizeBytes ∧
      (∀ late, again = some late → late.sizeBytes = record.sizeBytes ∧ Fired program frontier late) ∧
      cell = some { version := record.version, fast := again.map fun _ => slot.version
                    backing := some slot.version } ∧
      place = { record := some record, departing := some job, waiting := again.toList } := by
  cases standing with
  | departing record slot target only again held outbound stored inward same sized fired seen
      here =>
      obtain rfl : job = only := by simpa [here] using inflight.symm
      exact ⟨record, slot, target, again, held, outbound, stored, inward, same, sized, fired, seen,
        here⟩
  | _ =>
    rename_i here
    simp [here] at inflight

theorem Standing.of_live
    (found : place.record = some record) {slot : Slot} (held : record.fast = some slot)
    (live : slot.state = .live) : AtRest record.backing ∧
      cell = some { version := record.version, fast := some slot.version
                    backing := versionOf record.backing } ∧
      place = { record := some record } := by
  cases standing with
  | resident stored kept inFast _ rest seen here =>
    obtain rfl : stored = record := by simpa [here] using found
    obtain rfl : kept = slot := by simpa [inFast] using held
    exact ⟨rest, seen, here⟩
  | unknown _ here => simp [here] at found
  | reserved output kept listed named pending _ _ here =>
    obtain rfl : reservedRecord output kept = record := by simpa [here] using found
    have alike := reserved_record_fast held
    simp [alike, pending] at live
  | absent stored gone _ _ here | returning stored _ _ gone _ _ _ _ _ here =>
    obtain rfl : stored = record := by simpa [here] using found
    simp [gone] at held
  | arriving stored kept _ _ inFast moving _ _ _ _ here
  | leaving stored kept _ _ inFast moving _ _ _ _ here
  | departing stored kept _ _ _ inFast moving _ _ _ _ _ _ here =>
    obtain rfl : stored = record := by simpa [here] using found
    have alike : kept = slot := by simpa [inFast] using held
    simp [← alike, moving] at live

end

end Inversions

end Dataflow
