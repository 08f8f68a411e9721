import Dataflow.EngineMoves

/-!
The moves of the two transfer engines: starting the head of a queue, completing
the transfer in flight, and the pressure-eviction valve.
-/

namespace Dataflow

open StatefulOutcome RunState KeyedTable ObjectRecord List

attribute [local simp] lanesOf placeOf lane setLane enqueue modifyRecord RunState.setSlot putBuffer

variable {Pool : Type}

theorem begin_copy {direction : Direction} {job : TransferJob} {ready : Option ℚ}
    {state : RunState Pool} {normal : RunState Pool → Prop}
    {stopped : EngineError → RunState Pool → Prop}
    (unpriced : stopped (.missingBandwidth job.objectId) state)
    (issued : ∀ clock started names, started.objectId = job.objectId →
      started.sizeBytes = job.sizeBytes → normal (state.setLane direction
        { state.lane direction with
          clockUs := clock, inflight := some started, nameSeq := names })) :
    Ensures (beginCopy direction job ready state) normal stopped := by
  cases duration : transferRuntimeUs (state.lane direction).bandwidth job.sizeBytes
      job.runtimeOverride with
  | none =>
    simp only [beginCopy, duration]
    exact unpriced
  | some runtime =>
    simp only [beginCopy, duration]
    apply issued <;> rfl

variable [PoolOps Pool] {setting : Setting Pool} {memory : Memory}
  {frontier : Frontier} {held : List String} {state : RunState Pool} {job : TransferJob}
  {rest : List TransferJob} {record : ObjectRecord}

section

variable (tracks : Tracks setting memory frontier state)
include tracks

section

variable (live : Live held state)
include live

theorem Moves.stay : Moves setting memory frontier held state state :=
  ⟨tracks, live, rfl⟩

/-! ### from slow -/

variable {source : Slot} {placed : RunState Pool} {copy : TransferJob}

theorem issue_from_slow (idle : state.h2d.inflight = none) (queue : state.h2d.queue = job :: rest)
    {arriving : Slot} (stored : record.backing = some source)
    (copied : arriving.version = source.version) (inward : arriving.state = .inbound) (ready : Option ℚ)
    (named : copy.objectId = job.objectId)
    (move : Rewrites setting state placed job.objectId record (·.setSlot .fast (some arriving)))
    (inQueue : placed.h2d.queue = rest)
    (outLane : placed.d2h = state.d2h) (waiting : placed.deferred = state.deferred)
    (same : control placed = control state) : Ensures (beginCopy .fromSlow copy ready placed)
      (Moves setting memory frontier held state) (Halts setting) := by
  have queued : job ∈ (placeOf state job.objectId).queued := by
    simp [queue, jobs_for_head]
  obtain ⟨kept, origin, gone, backed, alive, _, _, seen, here⟩ :=
    (tracks.standing job.objectId).of_queued queued
  simp only [placeOf, move.found, queue, jobs_for_head, Place.mk.injEq, Option.some.injEq,
    cons.injEq, true_and] at here
  obtain ⟨rfl, tail, waits, leaves, _, departs⟩ := here
  obtain rfl : origin = source := by simpa [stored] using backed.symm
  apply begin_copy
  · exact (tracks.books.rewrite move).halts (by simp)
  intro clock started names startedName _
  have goes := startedName.trans named
  refine Rewrites.moves { move with } tracks live ?_ (fun _ _ => rfl) ?_ ?_ same
  · intro other ne
    simp [inQueue, outLane, waiting, queue, idle, jobs_for_skip ne.symm,
      inflight_for_skip (goes ▸ ne.symm)]
  · apply Standing.arriving (record.setSlot .fast (some arriving)) arriving origin started rfl
      inward stored alive copied
    · simpa using seen
    · simp [inQueue, outLane, waiting, tail, waits, leaves, departs, inflight_for_some goes]
  · intro _
    left
    simp [gone]

theorem start_from_slow (idle : state.h2d.inflight = none) (queue : state.h2d.queue = job :: rest)
    (found : state.table.get job.objectId = some record) (escape : Bool) :
    Ensures (startFromSlow escape job rest record state)
      (Moves setting memory frontier held state) (Halts setting) := by
  have queued : job ∈ (placeOf state job.objectId).queued := by
    simp [queue, jobs_for_head]
  obtain ⟨kept, source, gone, stored, _, sized, _, _, here⟩ :=
    (tracks.standing job.objectId).of_queued queued
  obtain rfl : record = kept := by simpa [found] using congrArg Place.record here
  have positive := sized ▸ tracks.size_pos found
  simp only [startFromSlow, stored]
  split
  · exact Moves.stay tracks live
  rename_i admits
  rw [not_not] at admits
  split
  · exact Moves.stay tracks live
  rw [charge_admitted positive, ok_bind]
  swap
  · exact admits
  refine ensures_bind (take_buffer (by exact tracks.foreign)
    (by exact fun _ => halts_charged tracks positive admits rfl rfl rfl rfl) _ _ _ _) ?_
  rintro ⟨buffer, _⟩ ⟨pool, calls, rfl, got⟩
  exact issue_from_slow tracks live idle queue stored (by rfl) (by rfl) _ rfl
    (got.rewrites tracks.books found (by simp [buffer_at_fast, gone]) sized admits
      (fun _ => rfl) rfl (by rfl)
      (keeps_elsewhere_set record .fast _) rfl rfl rfl rfl rfl rfl rfl) rfl rfl rfl rfl

theorem try_start {direction : Direction} {escape : Bool}
    (starts : ∀ job rest record, (state.lane direction).inflight = none →
      (state.lane direction).queue = job :: rest → state.table.get job.objectId = some record →
      Ensures (match direction with
        | .fromSlow => startFromSlow escape job rest record state
        | .toSlow => startToSlow job rest record state)
        (Moves setting memory frontier held state) (Halts setting)) :
    Ensures (tryStart direction escape state)
      (Moves setting memory frontier held state) (Halts setting) := by
  unfold tryStart
  cases inflight : (state.lane direction).inflight with
  | some busy => exact Moves.stay tracks live
  | none =>
    cases queue : (state.lane direction).queue with
    | nil => exact Moves.stay tracks live
    | cons job rest =>
      dsimp only
      unfold requireRecord
      cases found : state.table.get job.objectId with
      | none => exact tracks.books.halts (by simp)
      | some record => exact starts job rest record inflight queue found

theorem try_start_from_slow (escape : Bool) : Ensures (tryStart .fromSlow escape state)
      (Moves setting memory frontier held state) (Halts setting) :=
  try_start tracks live fun _ _ _ inflight queue found =>
    start_from_slow tracks live inflight queue found escape

/-! ### to slow -/

/-- The rewrite of an object's record when its offload starts. -/
def sendOut (target source : Slot) (entry : ObjectRecord) : ObjectRecord :=
  (entry.setSlot .backing (some target)).setSlot .fast (some { source with state := .outbound })

theorem issue_to_slow (idle : state.d2h.inflight = none) (queue : state.d2h.queue = job :: rest)
    {target : Slot} (inFast : record.fast = some source)
    (copied : target.version = source.version) (inward : target.state = .inbound) (ready : Option ℚ)
    (named : copy.objectId = job.objectId) (resized : copy.sizeBytes = job.sizeBytes)
    (move : Rewrites setting state placed job.objectId record (sendOut target source))
    (outQueue : placed.d2h.queue = rest)
    (inLane : placed.h2d = state.h2d) (waiting : placed.deferred = state.deferred)
    (same : control placed = control state) : Ensures (beginCopy .toSlow copy ready placed)
      (Moves setting memory frontier held state) (Halts setting) := by
  have queued : job ∈ (placeOf state job.objectId).leaving := by
    simp [queue, jobs_for_head]
  obtain ⟨kept, slot, again, fastSlot, outgoing, _, sized, fired, seen, here⟩ :=
    (tracks.standing job.objectId).of_leaving queued
  simp only [placeOf, move.found, queue, jobs_for_head, Place.mk.injEq, Option.some.injEq,
    cons.injEq, true_and] at here
  obtain ⟨rfl, queues, waits, tail, arrives, _⟩ := here
  obtain rfl : slot = source := by simpa [inFast] using fastSlot.symm
  apply begin_copy
  · exact (tracks.books.rewrite move).halts (by simp)
  intro clock started names startedName startedSize
  have goes := startedName.trans named
  refine Rewrites.moves { move with } tracks live ?_ (fun _ _ => rfl) ?_ ?_ same
  · intro other ne
    simp [outQueue, inLane, waiting, queue, idle, jobs_for_skip ne.symm,
      inflight_for_skip (goes ▸ ne.symm)]
  · apply Standing.departing (sendOut target slot record) { slot with state := .outbound } target started again rfl rfl rfl
      inward copied (startedSize.trans (resized.trans sized)) fired seen
    simp [outQueue, inLane, waiting, tail, waits, queues, arrives, inflight_for_some goes]
  · intro _
    left
    simp [fastSlot, outgoing]

theorem start_to_slow (idle : state.d2h.inflight = none) (queue : state.d2h.queue = job :: rest)
    (found : state.table.get job.objectId = some record) :
    Ensures (startToSlow job rest record state)
      (Moves setting memory frontier held state) (Halts setting) := by
  have queued : job ∈ (placeOf state job.objectId).leaving := by
    simp [queue, jobs_for_head]
  obtain ⟨kept, source, again, inFast, _, _, sized, _, _, here⟩ :=
    (tracks.standing job.objectId).of_leaving queued
  obtain rfl : record = kept := by simpa [found] using congrArg Place.record here
  have positive := sized ▸ tracks.size_pos found
  have twice : ∀ target : Slot,
      (state.table.modify job.objectId fun entry => entry.setSlot .backing (some target)).modify
        job.objectId (fun entry => entry.setSlot .fast (some { source with state := .outbound })) =
      state.table.modify job.objectId (sendOut target source) :=
    fun target => ObjectTable.modify_modify fun entry => set_slot_id entry .backing _
  cases stored : record.backing with
  | none =>
    simp only [startToSlow, inFast, stored, Option.isSome_none, Bool.false_eq_true, if_false]
    split
    · exact Moves.stay tracks live
    rename_i admits
    rw [not_not] at admits
    rw [charge_admitted positive, ok_bind]
    swap
    · exact admits
    refine ensures_bind (take_buffer (by exact tracks.foreign)
      (by exact fun _ => halts_charged tracks positive admits rfl rfl rfl rfl) _ _ _ _) ?_
    rintro ⟨buffer, _⟩ ⟨pool, calls, rfl, got⟩
    refine issue_to_slow tracks live idle queue inFast (by rfl) (by rfl) _ rfl rfl
      (got.rewrites tracks.books found (by simp [buffer_at_backing, stored]) sized admits
        (fun _ => rfl) rfl (by rfl) ?_ rfl rfl
        (twice { buffer := buffer, state := .inbound, version := source.version })
        rfl rfl rfl rfl) rfl rfl rfl rfl
    intro other ne
    cases other with
    | fast => simp [sendOut, buffer_at_fast, inFast]
    | backing => exact absurd rfl ne
  | some existing =>
    simp only [startToSlow, inFast, stored, Option.isSome_some, if_true]
    split
    · exact Moves.stay tracks live
    refine issue_to_slow tracks live idle queue inFast (by rfl) (by rfl) _ rfl rfl
      (tracks.books.settles found (fun _ => rfl) rfl ?_
        (twice { existing with state := .inbound, version := source.version })
        ⟨rfl, rfl, rfl, rfl⟩) rfl rfl rfl rfl
    intro location
    cases location with
    | fast => simp [sendOut, buffer_at_fast, inFast]
    | backing => simp [sendOut, buffer_at_backing, stored]

theorem try_start_to_slow (escape : Bool) : Ensures (tryStart .toSlow escape state)
      (Moves setting memory frontier held state) (Halts setting) :=
  try_start tracks live fun _ _ _ inflight queue found =>
    start_to_slow tracks live inflight queue found

/-! ### completions -/

theorem complete_from_slow (inflight : state.h2d.inflight = some job) :
    Ensures (complete .fromSlow job state)
      (Moves setting memory frontier held state) (Halts setting) := by
  have flying : (placeOf state job.objectId).arriving = some job := by
    simp [inflight, inflight_for_some]
  obtain ⟨record, slot, source, inFast, inbound, stored, alive, equal, seen, here⟩ :=
    (tracks.standing job.objectId).of_arriving flying
  simp only [placeOf, Place.mk.injEq] at here
  obtain ⟨found, queues, waits, leaves, _, departs⟩ := here
  simp only [complete, requireRecord, found, ok_bind, inFast]
  refine Rewrites.moves (tracks.books.settles found (fun entry => set_slot_id entry .fast _)
    (set_slot_size record .fast _) ?_ rfl ⟨rfl, rfl, rfl, rfl⟩) tracks live ?_ (fun _ _ => rfl) ?_
    (fun _ => Or.inr rfl) rfl
  · intro location
    cases location with
    | fast => simp [buffer_at_fast, inFast]
    | backing => simp
  · intro other ne
    simp [inflight, inflight_for_skip ne.symm]
  · apply Standing.resident (record.setSlot .fast
      (some { slot with state := .live, readyEvent := some job.doneEvent })) _ rfl rfl
    · intro other backed
      rw [set_fast_backing, stored, Option.some.injEq] at backed
      exact backed ▸ alive
    · simp [seen, equal, versionOf, stored]
    · simp [queues, waits, leaves, departs]

/-- The rewrite of an object's record when its offload has completed. -/
def arriveOut (target : Slot) (done : ℚ) (entry : ObjectRecord) : ObjectRecord :=
  (entry.setSlot .fast none).setSlot .backing
    (some { target with state := .live, readyEvent := some done })

theorem complete_to_slow (inflight : state.d2h.inflight = some job) :
    Ensures (complete .toSlow job state) (fun settled => Moves setting memory frontier held state
        (activateDeferred job.objectId settled)) (Halts setting) := by
  have flying : (placeOf state job.objectId).departing = some job := by
    simp [inflight, inflight_for_some]
  obtain ⟨record, slot, target, again, inFast, outbound, inBacking, _, equal, sized, fired, seen,
    here⟩ := (tracks.standing job.objectId).of_departing flying
  simp only [placeOf, Place.mk.injEq] at here
  obtain ⟨found, queues, waits, leaves, arrives, _⟩ := here
  have positive := sized ▸ tracks.size_pos found
  have covered : job.sizeBytes ≤ state.ledger.used .fast := by
    rw [sized]
    exact tracks.covered found .fast (by simp [ObjectRecord.slot, inFast])
  have twice : (state.table.modify job.objectId fun entry => entry.setSlot .fast none).modify
      job.objectId (fun entry => entry.setSlot .backing
        (some { target with state := .live, readyEvent := some job.doneEvent })) =
      state.table.modify job.objectId (arriveOut target job.doneEvent) :=
    ObjectTable.modify_modify fun entry => set_slot_id entry .fast _
  have stored : record.bufferAt .fast = some slot.buffer := by simp [buffer_at_fast, inFast]
  have joined : ∀ other, jobsFor other
      (state.h2d.queue ++ state.deferred.filter (·.objectId = job.objectId)) =
      jobsFor other state.h2d.queue ++ jobsFor other (jobsFor job.objectId state.deferred) :=
    fun _ => jobs_for_append
  have stands : Standing setting.program frontier job.objectId (memory job.objectId)
      { record := some (arriveOut target job.doneEvent record), queued := again.toList } := by
    cases again with
    | none =>
      apply Standing.absent (arriveOut target job.doneEvent record) rfl _ _ rfl
      · intro held backed
        have same : held = { target with state := .live, readyEvent := some job.doneEvent } := by
          simpa [arriveOut] using backed.symm
        rw [same]
      · simp [seen, arriveOut, versionOf, equal]
    | some late =>
      apply Standing.returning (arriveOut target job.doneEvent record)
        { target with state := .live, readyEvent := some job.doneEvent } late rfl rfl rfl
        (fired late rfl).1 (Or.inl (fired late rfl).2) _ rfl
      simp [seen, arriveOut, equal]
  simp only [complete, requireRecord, found, ok_bind, inFast, outbound, if_true,
    refund_covered positive covered, inBacking]
  refine Rewrites.moves (tracks.books.gives found stored (fun _ => by rfl) (by rfl) (by rfl) ?_ twice
    (by rw [← sized]; rfl) rfl (Or.inl ⟨tracks.books.fast_unwatched found stored, rfl, rfl⟩))
    tracks live ?_ (fun _ _ => rfl) ?_ ?_ rfl
  · intro other ne
    cases other with
    | fast => exact absurd rfl ne
    | backing => simp [arriveOut, buffer_at_backing, inBacking]
  · intro other ne
    simp only [lanesOf, placeOf, activateDeferred, setLane, lane, RunState.setSlot, modifyRecord,
      putBuffer, inflight, joined, jobs_for_apart ne, jobs_for_drop ne,
      inflight_for_skip ne.symm, inflight_for_none, append_nil]
  · have own : jobsFor job.objectId again.toList = again.toList := by rw [← waits, jobs_for_idem]
    simpa only [lanesOf, placeOf, activateDeferred, setLane, lane, RunState.setSlot, modifyRecord,
      putBuffer, joined, own, jobs_for_drop_self, queues, waits, leaves, arrives,
      inflight_for_none, nil_append] using stands
  · intro _
    left
    simp [inFast, outbound]

end

end

theorem Moves.andThen {middle : RunState Pool} {outcome : Run Pool (RunState Pool)}
    (first : Moves setting memory frontier held state middle)
    (second : Ensures outcome (Moves setting memory frontier held middle) (Halts setting)) :
    Ensures outcome (Moves setting memory frontier held state) (Halts setting) :=
  ensures_mono second (fun _ moved => first.trans moved) (fun _ _ halted => halted)

theorem on_transfer_done (tracks : Tracks setting memory frontier state) (live : Live held state)
    (direction : Direction) (inflight : (state.lane direction).inflight = some job) :
    Ensures (onTransferDone direction job state)
      (Moves setting memory frontier held state) (Halts setting) := by
  cases direction with
  | fromSlow =>
    apply ensures_bind (complete_from_slow tracks live inflight)
    intro settled moved
    exact moved.andThen (try_start_from_slow moved.tracks moved.live false)
  | toSlow =>
    apply ensures_bind (complete_to_slow tracks live inflight)
    intro settled moved
    apply ensures_bind (moved.andThen (try_start_to_slow moved.tracks moved.live false))
    intro started again
    exact again.andThen (try_start_from_slow again.tracks again.live false)

/-! ### the pressure valve -/

variable {positions : List Nat} {index next : Nat} {program : Program}

theorem bisect_lt (sorted : positions.Pairwise (· ≤ ·)) {low high : Nat}
    (mem : index ∈ positions) (above : low ≤ index) (below : index < high) :
    bisectLeft positions low < bisectLeft positions high := by
  induction positions with
  | nil => cases mem
  | cons head tail ih =>
    rw [pairwise_cons] at sorted
    have headBelow : head < high := by
      rcases mem_cons.mp mem with same | later
      · omega
      · have := sorted.1 index later
        omega
    by_cases early : head < low
    · have later : index ∈ tail := by
        rcases mem_cons.mp mem with same | later
        · omega
        · exact later
      simpa [bisectLeft, takeWhile_cons, early, headBelow] using ih sorted.2 later
    · simp [bisectLeft, early, headBelow]

theorem bisect_get {bound : Nat}
    (found : positions[bisectLeft positions bound]? = some index) :
    bound ≤ index ∧ index ∈ positions := by
  constructor
  · induction positions with
    | nil => simp [bisectLeft] at found
    | cons head tail ih =>
      by_cases early : head < bound
      · apply ih
        simpa [bisectLeft, takeWhile_cons, early] using found
      · have same : head = index := by
          simpa [bisectLeft, takeWhile_cons, early] using found
        omega
  · exact mem_of_getElem? found

theorem positions_sorted (program : Program) (named : TaskSpec → List String) (object : String) :
    ((numbered program).flatMap fun entry =>
      ((named entry.2).filter (· = object)).map fun _ => entry.1).Pairwise (· ≤ ·) := by
  rw [pairwise_flatMap]
  constructor
  · intro entry _
    rw [pairwise_map]
    exact pairwise_iff_forall_sublist.mpr fun _ => le_refl entry.1
  have ordered : ((numbered program).map (·.1)).Pairwise (· < ·) := by
    have firsts : (numbered program).map (·.1) = range program.tasks.length := by
      exact map_fst_zip (by simp)
    rw [firsts]
    exact pairwise_lt_range
  rw [pairwise_map] at ordered
  apply ordered.imp
  intro left right less first inLeft second inRight
  obtain ⟨_, _, rfl⟩ := mem_map.mp inLeft
  obtain ⟨_, _, rfl⟩ := mem_map.mp inRight
  exact le_of_lt less

theorem position_mem {named : TaskSpec → List String} {object : String}
    : (index ∈ (numbered program).flatMap fun entry =>
      ((named entry.2).filter (· = object)).map fun _ => entry.1) ↔
    ∃ task, program.tasks[index]? = some task ∧ object ∈ named task := by
  simp only [mem_flatMap, mem_map, mem_filter, decide_eq_true_eq]
  constructor
  · rintro ⟨entry, mem, other, ⟨inNamed, rfl⟩, rfl⟩
    exact ⟨entry.2, numbered_mem mem, inNamed⟩
  · rintro ⟨task, found, inNamed⟩
    exact ⟨(index, task), mem_of_getElem? (numbered_get found), object, ⟨inNamed, rfl⟩, rfl⟩

variable {exclude : List String}

/-- A candidate of the valve: a clean, unprotected resident whose next use comes
before any directive on it. -/
theorem eviction_use {cursor : Nat}
    (candidate : evictionUse program cursor exclude record = some next) : record.id ∉ exclude ∧
    (∃ slot source, record.fast = some slot ∧ record.backing = some source ∧
      slot.state = .live ∧ source.state = .live ∧ slot.version = record.version ∧
      source.version = record.version) ∧
    ∃ reader, cursor ≤ next ∧ program.tasks[next]? = some reader ∧ record.id ∈ reader.inputs ∧
      ∀ index task, cursor ≤ index → index < next → program.tasks[index]? = some task →
        record.id ∉ task.directiveObjects := by
  unfold evictionUse at candidate
  cases inFast : record.fast with
  | none => simp [inFast] at candidate
  | some slot =>
    cases inBacking : record.backing with
    | none => simp [inFast, inBacking] at candidate
    | some source =>
      simp only [inFast, inBacking] at candidate
      split at candidate
      · cases candidate
      rename_i clean
      simp only [not_or, not_not] at clean
      split at candidate
      · cases candidate
      rename_i use found
      split at candidate
      · cases candidate
      rename_i untouched
      cases candidate
      have uses := bisect_get found
      obtain ⟨reader, position, reads⟩ := position_mem.mp uses.2
      refine ⟨clean.1, ⟨slot, source, rfl, rfl, clean.2.1, clean.2.2.1, clean.2.2.2.1,
        clean.2.2.2.2⟩, reader, uses.1, position, reads, ?_⟩
      intro index task above below there touches
      apply untouched
      exact bisect_lt (positions_sorted program TaskSpec.directiveObjects record.id)
        (position_mem.mpr ⟨task, there, touches⟩) above below

omit [PoolOps Pool] in
theorem eviction_victim
    (chosen : evictionVictim program exclude state = some (next, record)) :
    record ∈ state.table ∧ evictionUse program state.cursor exclude record = some next := by
  -- the scan keeps a best candidate seen so far
  have scan : ∀ (entries : List ObjectRecord) (best : Option (Nat × ObjectRecord)),
      entries.foldl (betterVictim program state.cursor exclude) best = some (next, record) →
      best = some (next, record) ∨
        record ∈ entries ∧ evictionUse program state.cursor exclude record = some next := by
    intro entries
    induction entries with
    | nil => exact fun best kept => Or.inl kept
    | cons entry rest ih =>
      intro best reached
      rcases ih _ reached with picked | ⟨later, candidate⟩
      · unfold betterVictim at picked
        cases use : evictionUse program state.cursor exclude entry with
        | none =>
          simp only [use] at picked
          exact Or.inl picked
        | some position =>
          have here : (position, entry) = (next, record) → record ∈ entry :: rest ∧
              evictionUse program state.cursor exclude record = some next := by
            intro same
            cases same
            exact ⟨mem_cons_self, use⟩
          cases best with
          | none =>
            simp only [use, Option.some.injEq] at picked
            exact Or.inr (here picked)
          | some pair =>
            simp only [use] at picked
            split at picked
            · exact Or.inr (here (Option.some.inj picked))
            · exact Or.inl picked
      · exact Or.inr ⟨mem_cons_of_mem entry later, candidate⟩
  rcases scan state.table none chosen with impossible | picked
  · cases impossible
  · exact picked

section

variable (tracks : Tracks setting memory frontier state)
include tracks

section

variable (live : Live held state)
include live

theorem evict_for_pressure (paused : frontier.launched = state.cursor)
    (settled : frontier.retired = state.cursor) (protects : ∀ object ∈ held, object ∈ exclude) :
    Ensures (evictForPressure setting.program exclude state)
      (fun result => ∀ evicted, result = some evicted →
        Moves setting memory frontier held state evicted) (Halts setting) := by
  unfold evictForPressure
  split
  · intro evicted impossible
    cases impossible
  cases chosen : evictionVictim setting.program exclude state with
  | none =>
    intro evicted impossible
    cases impossible
  | some pair =>
    obtain ⟨next, record⟩ := pair
    obtain ⟨mem, candidate⟩ := eviction_victim chosen
    obtain ⟨outside, ⟨slot, source, inFast, inBacking, resident, alive, latest, stored⟩,
      reader, reach, position, reads, untouched⟩ := eviction_use candidate
    have found : state.table.get record.id = some record := lookup_of_mem tracks.distinct mem
    obtain ⟨rest, seen, here⟩ := (tracks.standing record.id).of_live found inFast resident
    simp only [placeOf, found, Place.mk.injEq, true_and] at here
    obtain ⟨queues, waits, leaves, arrives, departs⟩ := here
    have covered := tracks.covered found .fast (by simp [ObjectRecord.slot, inFast])
    have buffered : record.bufferAt .fast = some slot.buffer := by simp [buffer_at_fast, inFast]
    have due : ReloadDue setting.program frontier record.id := by
      refine ⟨next, reader, paused ▸ reach, position, reads, ?_⟩
      intro index task above
      exact untouched index task (settled ▸ above)
    simp only [inFast, refund_covered (tracks.size_pos found) covered, ok_bind]
    intro evicted same
    cases same
    refine Rewrites.moves (tracks.books.gives found buffered
      (fun entry => set_slot_id entry .fast none) rfl (by rfl)
      (keeps_elsewhere_set record .fast none) rfl rfl rfl
      (Or.inl ⟨tracks.books.fast_unwatched found buffered, rfl, rfl⟩))
      tracks live ?_ (fun _ _ => rfl) ?_
      (fun isHeld => absurd (protects _ isHeld) outside) rfl
    · intro other ne
      have skip : jobsFor other [reloadJob state record] = [] := jobs_for_skip ne.symm
      simp [skip]
    · apply Standing.returning (record.setSlot .fast none) source (reloadJob state record) rfl
        inBacking alive rfl (Or.inr due)
      · simp [seen, latest, stored, versionOf, inBacking]
      · have single : jobsFor record.id [reloadJob state record] = [reloadJob state record] :=
          jobs_for_head rfl
        simp [single, queues, waits, leaves, arrives, departs]

/-! ### quiescence -/

theorem escape_blocked_head : Ensures (escapeBlockedHead state)
      (fun result => Moves setting memory frontier held state result.2) (Halts setting) := by
  unfold escapeBlockedHead
  split
  · split
    · exact Moves.stay tracks live
    split
    · exact Moves.stay tracks live
    · apply ensures_bind (try_start_from_slow tracks live true)
      intro started moved
      exact moved
  · exact Moves.stay tracks live

theorem poke_h2d (wanted : Bool) :
    Ensures (pokeH2d wanted state) (Moves setting memory frontier held state) (Halts setting) := by
  cases wanted with
  | true => exact try_start_from_slow tracks live false
  | false => exact Moves.stay tracks live

theorem recover_moves
    (paused : frontier.launched = state.cursor) (settled : frontier.retired = state.cursor) (protects : ∀ object ∈ held, object ∈ exclude) (pumpH2d : Bool) :
    Ensures (recover setting.program exclude pumpH2d state)
      (Moves setting memory frontier held state) (Halts setting) := by
  apply ensures_bind (poke_h2d tracks live pumpH2d)
  intro pumped moved
  split
  · exact moved
  apply ensures_bind (escape_blocked_head moved.tracks moved.live)
  rintro ⟨started, after⟩ escaped
  have reached := moved.trans escaped
  have cursor := congrArg (·.2.1) reached.control
  dsimp only
  split
  · exact reached
  apply ensures_bind (evict_for_pressure reached.tracks reached.live (paused.trans cursor.symm)
    (settled.trans cursor.symm) protects)
  intro choice evicts
  cases choice with
  | none => exact reached.tracks.books.halts (by simp)
  | some evicted => exact reached.trans (evicts evicted rfl)

end

end

end Dataflow
