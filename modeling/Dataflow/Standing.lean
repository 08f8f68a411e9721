import Dataflow.Sequential

/-!
Where one object stands in a run. A `Place` collects everything the run holds
about one object: its record, its queued and deferred jobs and its share of the
two transfers in flight. `Standing` lists the shapes a place can have while no
prefetch is repeated, each tied to the object's cell in the sequential reading.
`Tracks` is the invariant of a run: every object stands somewhere, the ledger
counts exactly the slots, and every buffer taken from the pool sits in a slot.
-/

namespace Dataflow

open StatefulOutcome RunState KeyedTable List

variable {Pool : Type}

/-! ### table and ledger facts -/

namespace ObjectRecord

section

variable (record : ObjectRecord)
include record

@[simp] theorem set_slot_id (location : Location) (slot : Option Slot) :
    (record.setSlot location slot).id = record.id := by
  cases location <;> rfl

@[simp] theorem set_slot_size (location : Location) (slot : Option Slot) :
    (record.setSlot location slot).sizeBytes = record.sizeBytes := by
  cases location <;> rfl

@[simp] theorem set_slot_version (location : Location)
    (slot : Option Slot) : (record.setSlot location slot).version = record.version := by
  cases location <;> rfl

@[simp] theorem set_fast_fast (slot : Option Slot) : (record.setSlot .fast slot).fast = slot := rfl

@[simp] theorem set_fast_backing (slot : Option Slot) :
    (record.setSlot .fast slot).backing = record.backing := rfl

@[simp] theorem set_backing_fast (slot : Option Slot) :
    (record.setSlot .backing slot).fast = record.fast := rfl

@[simp] theorem set_backing_backing (slot : Option Slot) :
    (record.setSlot .backing slot).backing = slot := rfl

end

def occupied (location : Location) (record : ObjectRecord) : Int :=
  if (record.slot location).isSome then record.sizeBytes else 0

end ObjectRecord

open ObjectRecord

def slotHolds (handle : Nat) : Option Slot → Int
  | some slot => if slot.buffer.handle = handle then 1 else 0
  | none => 0

def holds (handle : Nat) (record : ObjectRecord) : Int :=
  slotHolds handle record.fast + slotHolds handle record.backing

namespace ObjectTable

variable {table : ObjectTable} {object other : String} {change : ObjectRecord → ObjectRecord}

section

variable (keeps : ∀ record, (change record).id = record.id)
include keeps

theorem get_modify_self : (table.modify object change).get object = (table.get object).map change :=
  lookup_update_self keeps

theorem get_modify_other
    (ne : other ≠ object) : (table.modify object change).get other = table.get other :=
  lookup_update_other keeps ne

theorem modify_modify {again : ObjectRecord → ObjectRecord} :
    (table.modify object change).modify object again =
      table.modify object fun record => again (change record) := by
  unfold modify update
  rw [map_map]
  apply map_congr_left
  intro record _
  by_cases same : record.id = object <;> simp [same, keeps]

end

theorem modify_id : table.modify object id = table := by
  conv_rhs => rw [← map_id table]
  apply map_congr_left
  intro record _
  simp

theorem get_id {record : ObjectRecord} (found : table.get object = some record) :
    record.id = object :=
  lookup_key found

theorem add_new {record : ObjectRecord} (absent : table.get record.id = none) :
    table.add record = table ++ [record] := by
  rw [add, absent]

theorem get_append (added : ObjectRecord) : ObjectTable.get (table ++ [added]) object =
      (table.get object).or (if added.id = object then some added else none) :=
  lookup_append_single added

end ObjectTable

namespace Ledger

variable {ledger : Ledger} {location : Location} {sizeBytes : Int}

def Capped (ledger : Ledger) : Prop :=
  ∀ location capacity, ledger.capacity location = some capacity → ledger.used location ≤ capacity

theorem used_add (location target : Location) : (ledger.add target sizeBytes).used location =
      ledger.used location + if location = target then sizeBytes else 0 := by
  cases location <;> cases target <;> simp [add, used]

theorem used_subtract (positive : 0 < sizeBytes) (location target : Location) :
    (ledger.subtract target sizeBytes).used location =
      ledger.used location - if location = target then sizeBytes else 0 := by
  have kept : ¬ sizeBytes ≤ 0 := by omega
  cases location <;> cases target <;> simp [subtract, used, kept]

theorem capacity_add (location target : Location) :
    (ledger.add target sizeBytes).capacity location = ledger.capacity location := by
  cases location <;> cases target <;> rfl

theorem capacity_subtract (location target : Location) :
    (ledger.subtract target sizeBytes).capacity location = ledger.capacity location := by
  unfold subtract
  split
  · rfl
  · cases location <;> cases target <;> rfl

theorem room_of_can_reserve (positive : 0 < sizeBytes)
    (admits : ledger.canReserve location sizeBytes = true) {capacity : Int}
    (limit : ledger.capacity location = some capacity) :
    ledger.used location + sizeBytes ≤ capacity := by
  have kept : ¬ sizeBytes ≤ 0 := by omega
  simpa [canReserve, kept, limit] using admits

theorem capped_add (capped : ledger.Capped) (positive : 0 < sizeBytes)
    (admits : ledger.canReserve location sizeBytes = true) :
    (ledger.add location sizeBytes).Capped := by
  intro place capacity limit
  rw [capacity_add] at limit
  rw [used_add]
  by_cases same : place = location
  · subst same
    simpa using room_of_can_reserve positive admits limit
  · simpa [same] using capped place capacity limit

theorem capped_subtract (capped : ledger.Capped) (positive : 0 < sizeBytes) :
    (ledger.subtract location sizeBytes).Capped := by
  intro place capacity limit
  rw [capacity_subtract] at limit
  rw [used_subtract positive]
  have below := capped place capacity limit
  split <;> omega

end Ledger

namespace RunState

variable {state : RunState Pool} {location : Location} {sizeBytes : Int}

theorem charge_admitted (positive : 0 < sizeBytes)
    (admits : state.ledger.canReserve location sizeBytes = true) : state.charge location sizeBytes =
      .ok { state with ledger := state.ledger.add location sizeBytes } := by
  have kept : ¬ sizeBytes ≤ 0 := by omega
  simp [charge, Ledger.charge, kept, admits]

theorem charge_refused (positive : 0 < sizeBytes)
    (full : ¬ state.ledger.canReserve location sizeBytes = true) :
    state.charge location sizeBytes = .error (.ledger location, state) := by
  have kept : ¬ sizeBytes ≤ 0 := by omega
  simp [charge, Ledger.charge, kept, full]

theorem refund_covered (positive : 0 < sizeBytes) (covered : sizeBytes ≤ state.ledger.used location) :
    state.refund location sizeBytes =
      .ok { state with ledger := state.ledger.subtract location sizeBytes } := by
  have left : ¬ (state.ledger.subtract location sizeBytes).used location < 0 := by
    rw [Ledger.used_subtract positive]
    simpa using covered
  simp [refund, left]

end RunState

/-! ### places -/

structure Place where
  record : Option ObjectRecord := none
  queued : List TransferJob := []
  waiting : List TransferJob := []
  leaving : List TransferJob := []
  arriving : Option TransferJob := none
  departing : Option TransferJob := none
  deriving DecidableEq

def jobsFor (object : String) (jobs : List TransferJob) : List TransferJob :=
  jobs.filter (·.objectId = object)

def inflightFor (object : String) (job : Option TransferJob) : Option TransferJob :=
  job.filter (·.objectId = object)

def placeOf (state : RunState Pool) (object : String) : Place :=
  { record := state.table.get object
    queued := jobsFor object state.h2d.queue
    waiting := jobsFor object state.deferred
    leaving := jobsFor object state.d2h.queue
    arriving := inflightFor object state.h2d.inflight
    departing := inflightFor object state.d2h.inflight }

section Places

variable {object : String} {job : TransferJob} {jobs rest : List TransferJob}

@[simp] theorem jobs_for_append :
    jobsFor object (jobs ++ rest) = jobsFor object jobs ++ jobsFor object rest :=
  filter_append jobs rest

@[simp] theorem jobs_for_nil : jobsFor object [] = [] := rfl

theorem jobs_for_head (same : job.objectId = object) :
    jobsFor object (job :: rest) = job :: jobsFor object rest := by
  simp [jobsFor, same]

theorem jobs_for_skip (other : job.objectId ≠ object) :
    jobsFor object (job :: rest) = jobsFor object rest := by
  simp [jobsFor, other]

theorem jobs_for_idem : jobsFor object (jobsFor object jobs) = jobsFor object jobs := by
  simp [jobsFor]

theorem jobs_for_apart {other : String} (ne : other ≠ object) :
    jobsFor other (jobsFor object jobs) = [] := by
  apply filter_eq_nil_iff.mpr
  intro job mem
  have named : job.objectId = object := by simpa using (mem_filter.mp mem).2
  simpa [named] using ne.symm

theorem jobs_for_drop_self : jobsFor object (jobs.filter (·.objectId ≠ object)) = [] := by
  simp [jobsFor]

theorem jobs_for_drop {other : String} (ne : other ≠ object) :
    jobsFor other (jobs.filter (·.objectId ≠ object)) = jobsFor other jobs := by
  unfold jobsFor
  rw [filter_filter]
  apply filter_congr
  intro job _
  by_cases named : job.objectId = other <;> simp [named, ne]

theorem jobs_for_mem (mem : job ∈ jobsFor object jobs) : job.objectId = object ∧ job ∈ jobs := by
  simpa [jobsFor, and_comm] using mem

@[simp] theorem inflight_for_none : inflightFor object none = none := rfl

theorem inflight_for_some (same : job.objectId = object) :
    inflightFor object (some job) = some job := by
  simp [inflightFor, same]

theorem inflight_for_skip (other : job.objectId ≠ object) :
    inflightFor object (some job) = none := by
  simp [inflightFor, other]

end Places

/-! ### standings -/

/-- How far a run has come: tasks launched, tasks whose directives are all
applied, and the outputs that are reserved but not yet written. -/
structure Frontier where
  launched : Nat
  retired : Nat
  reserving : List OutputSpec
  deriving DecidableEq

/-- The job was fired by a prefetch directive of the program. -/
def Planned (program : Program) (job : TransferJob) : Prop :=
  ∃ task ∈ program.tasks, task.id = job.firedByTask ∧
    job.objectId ∈ task.prefetchAfter.map (·.objectId)

/-- The job was fired by a prefetch directive of a task whose directives are applied. -/
def Fired (program : Program) (frontier : Frontier) (job : TransferJob) : Prop :=
  ∃ index task, index < frontier.retired ∧ program.tasks[index]? = some task ∧
    task.id = job.firedByTask ∧ job.objectId ∈ task.prefetchAfter.map (·.objectId)

theorem Fired.planned {program : Program} {frontier : Frontier} {job : TransferJob}
    (fired : Fired program frontier job) : Planned program job := by
  obtain ⟨_, task, _, there, named, listed⟩ := fired
  exact ⟨task, mem_of_getElem? there, named, listed⟩

theorem Fired.carry {program : Program} {frontier later : Frontier} {job : TransferJob}
    (fired : Fired program frontier job) (onward : frontier.retired ≤ later.retired) :
    Fired program later job := by
  obtain ⟨index, task, early, rest⟩ := fired
  exact ⟨index, task, lt_of_lt_of_le early onward, rest⟩

/-- The reload of an evicted object: a task still to be launched reads it, and
no directive touches it before. -/
def ReloadDue (program : Program) (frontier : Frontier) (object : String) : Prop :=
  ∃ next reader, frontier.launched ≤ next ∧ program.tasks[next]? = some reader ∧
    object ∈ reader.inputs ∧
    ∀ index task, frontier.retired ≤ index → index < next →
      program.tasks[index]? = some task → object ∉ task.directiveObjects

def AtRest (slot : Option Slot) : Prop :=
  ∀ held, slot = some held → held.state = .live

def versionOf (slot : Option Slot) : Option Nat :=
  slot.map (·.version)

def reservedRecord (output : OutputSpec) (slot : Slot) : ObjectRecord :=
  ({ id := output.id, sizeBytes := output.sizeBytes } : ObjectRecord).setSlot
    output.location (some slot)

theorem reserved_record_fast {output : OutputSpec} {slot held : Slot}
    (inFast : (reservedRecord output slot).fast = some held) : held = slot := by
  unfold reservedRecord at inFast
  cases location : output.location with
  | fast => simpa [location] using inFast.symm
  | backing => simp [location] at inFast

/-- The shapes of one object's place, each with the sequential cell it stands for.
A copy on its way out counts as offloaded already, and a queued prefetch counts as
arrived: that is what makes the reading independent of timing. -/
inductive Standing (program : Program) (frontier : Frontier) (object : String)
    (cell : Option Cell) (place : Place) : Prop where
  | unknown (unseen : cell = none) (here : place = {})
  | reserved (output : OutputSpec) (slot : Slot)
      (listed : output ∈ frontier.reserving) (named : output.id = object)
      (pending : slot.state = .reserved) (first : slot.version = 0) (unseen : cell = none)
      (here : place = { record := some (reservedRecord output slot) })
  | absent (record : ObjectRecord) (gone : record.fast = none) (rest : AtRest record.backing)
      (seen : cell = some
        { version := record.version, fast := none, backing := versionOf record.backing })
      (here : place = { record := some record })
  | resident (record : ObjectRecord) (slot : Slot) (held : record.fast = some slot)
      (live : slot.state = .live) (rest : AtRest record.backing)
      (seen : cell = some { version := record.version, fast := some slot.version
                            backing := versionOf record.backing })
      (here : place = { record := some record })
  | returning (record : ObjectRecord) (source : Slot) (job : TransferJob)
      (gone : record.fast = none) (stored : record.backing = some source)
      (live : source.state = .live) (sized : job.sizeBytes = record.sizeBytes)
      (due : Fired program frontier job ∨ ReloadDue program frontier object)
      (seen : cell = some { version := record.version, fast := some source.version
                            backing := some source.version })
      (here : place = { record := some record, queued := [job] })
  | arriving (record : ObjectRecord) (slot source : Slot) (job : TransferJob)
      (held : record.fast = some slot) (inbound : slot.state = .inbound)
      (stored : record.backing = some source) (live : source.state = .live)
      (same : slot.version = source.version)
      (seen : cell = some { version := record.version, fast := some source.version
                            backing := some source.version })
      (here : place = { record := some record, arriving := some job })
  | leaving (record : ObjectRecord) (slot : Slot) (job : TransferJob)
      (again : Option TransferJob) (held : record.fast = some slot)
      (outgoing : slot.state = .pendingOutbound) (rest : AtRest record.backing)
      (sized : job.sizeBytes = record.sizeBytes)
      (fired : ∀ late, again = some late →
        late.sizeBytes = record.sizeBytes ∧ Fired program frontier late)
      (seen : cell = some { version := record.version
                            fast := again.map fun _ => slot.version
                            backing := some slot.version })
      (here : place = { record := some record, leaving := [job], waiting := again.toList })
  | departing (record : ObjectRecord) (slot target : Slot) (job : TransferJob)
      (again : Option TransferJob) (held : record.fast = some slot)
      (outbound : slot.state = .outbound) (stored : record.backing = some target)
      (inward : target.state = .inbound) (same : target.version = slot.version)
      (sized : job.sizeBytes = record.sizeBytes)
      (fired : ∀ late, again = some late →
        late.sizeBytes = record.sizeBytes ∧ Fired program frontier late)
      (seen : cell = some { version := record.version
                            fast := again.map fun _ => slot.version
                            backing := some slot.version })
      (here : place = { record := some record, departing := some job, waiting := again.toList })

/-! ### the invariant of a run -/

def callWeight (handle : Nat) : PoolCall → Int
  | .took buffer => if buffer.handle = handle then 1 else 0
  | .returned buffer => if buffer.handle = handle then -1 else 0

/-- Takes minus returns of one buffer over the pool calls of a run. -/
def balance (handle : Nat) (calls : List PoolCall) : Int :=
  total (callWeight handle) calls

def PoolCall.handle : PoolCall → Nat
  | .took buffer => buffer.handle
  | .returned buffer => buffer.handle

/-- Every buffer of the pool the run has out sits in exactly as many slots. -/
def Balanced (state : RunState Pool) : Prop :=
  ∀ handle, handle ∉ state.providedHandles →
    balance handle state.poolCalls = total (holds handle) state.table

/-- A predicate on pools that says a buffer is none of the pool's: it is never
handed out unless it was put there. -/
structure Keeps [PoolOps Pool] (foreign : Pool → Nat → Prop) : Prop where
  get : ∀ {pool next location sizeBytes tag buffer handle}, foreign pool handle →
    PoolOps.get pool location sizeBytes tag = some (buffer, next) →
    buffer.handle ≠ handle ∧ foreign next handle
  getEscaped : ∀ {pool next location sizeBytes tag buffer handle}, foreign pool handle →
    PoolOps.getEscaped pool location sizeBytes tag = some (buffer, next) →
    buffer.handle ≠ handle ∧ foreign next handle
  put : ∀ {pool buffer handle}, foreign pool handle → buffer.handle ≠ handle →
    foreign (PoolOps.put pool buffer) handle

/-- What stays fixed along a run: the accepted program, the caller's buffers, and
those of them that are watched for never entering the pool. -/
structure Setting (Pool : Type) [PoolOps Pool] where
  program : Program
  admitted : Admitted program
  foreign : Pool → Nat → Prop
  keeps : Keeps foreign
  caller : List Nat
  watched : List Nat

section Invariant

variable [PoolOps Pool]

/-- The caller's buffers are the same throughout, and no pool call has touched a
watched one. -/
structure Untouched (setting : Setting Pool) (state : RunState Pool) : Prop where
  caller : state.providedHandles = setting.caller
  watched : ∀ handle ∈ setting.watched, handle ∈ state.providedHandles ∧
    ∀ call ∈ state.poolCalls, call.handle ≠ handle

/-- Watched buffers are foreign to the pool and never the fast copy of an object. -/
def Custody (setting : Setting Pool) (state : RunState Pool) : Prop :=
  ∀ handle ∈ setting.watched, setting.foreign state.pool handle ∧
    ∀ record ∈ state.table, ∀ slot, record.fast = some slot → slot.buffer.handle ≠ handle

structure Tracks (setting : Setting Pool) (memory : Memory) (frontier : Frontier)
    (state : RunState Pool) : Prop where
  distinct : (state.table.map (·.id)).Nodup
  positive : ∀ record ∈ state.table, 0 < record.sizeBytes
  standing : ∀ object,
    Standing setting.program frontier object (memory object) (placeOf state object)
  accounted : ∀ location, state.ledger.used location = total (occupied location) state.table
  capped : state.ledger.Capped
  balanced : Balanced state
  untouched : Untouched setting state
  custody : Custody setting state

/-- A stopped run: the error is not a ledger error, no capacity is exceeded, and the
buffers are all accounted for. -/
structure Halts (setting : Setting Pool) (fault : EngineError) (state : RunState Pool) : Prop where
  notLedger : ∀ location, fault ≠ .ledger location
  capped : state.ledger.Capped
  balanced : Balanced state
  untouched : Untouched setting state

end Invariant

end Dataflow
