import Dataflow.TransferMoves

/-!
The moves of tasks: retiring the launched task (outputs, mutations, releases,
offloads, prefetches, in the order of `_on_task_done`) and reserving and
launching the next one. Each directive moves the run and the sequential reading
by the same step.
-/

namespace Dataflow

open StatefulOutcome RunState KeyedTable ObjectRecord List

attribute [local simp] lanesOf placeOf lane setLane enqueue modifyRecord RunState.setSlot

variable {Pool : Type} [PoolOps Pool] {setting : Setting Pool} {memory : Memory}
  {frontier : Frontier} {held : List String} {state next : RunState Pool} {task : TaskSpec}
  {object : String} {record : ObjectRecord}

/-! ### pending prefetches -/

/-- A prefetch directive of the object has fired and its transfer has not started. -/
def PrefetchPending (program : Program) (state : RunState Pool) (object : String) : Prop :=
  ∃ job ∈ state.h2d.queue ++ state.deferred, job.objectId = object ∧ Planned program job

/-- Retiring the task repeats no pending prefetch. An object the task also offloads
is left out: the offload comes first and is refused while a prefetch is pending. -/
def Calm (program : Program) (task : TaskSpec) (state : RunState Pool) : Prop :=
  ∀ object ∈ task.prefetchAfter.map (·.objectId), object ∉ task.offloadAfter.map (·.objectId) →
    ¬ PrefetchPending program state object

instance (program : Program) (state : RunState Pool) (object : String) :
    Decidable (PrefetchPending program state object) :=
  inferInstanceAs (Decidable (∃ job ∈ state.h2d.queue ++ state.deferred, _ ∧ ∃ task ∈ program.tasks, _))

instance (program : Program) (task : TaskSpec) (state : RunState Pool) :
    Decidable (Calm program task state) :=
  inferInstanceAs (Decidable (∀ object ∈ task.prefetchAfter.map (·.objectId),
    object ∉ task.offloadAfter.map (·.objectId) → ¬ PrefetchPending program state object))

/-- No job towards fast memory waits for one of the objects. -/
def Idle (objects : List String) (state : RunState Pool) : Prop :=
  ∀ job ∈ state.h2d.queue ++ state.deferred, job.objectId ∉ objects

omit [PoolOps Pool] in
theorem Idle.same {objects : List String} (idle : Idle objects state)
    (inQueue : next.h2d = state.h2d) (waiting : next.deferred = state.deferred) :
    Idle objects next := by
  intro job mem
  rw [inQueue, waiting] at mem
  exact idle job mem

omit [PoolOps Pool] in
theorem awaited_at {job : TransferJob} (mem : job ∈ state.h2d.queue ++ state.deferred) :
    job ∈ (placeOf state job.objectId).queued ++ (placeOf state job.objectId).waiting := by
  simpa [jobsFor] using mem

/-! ### retiring -/

/-- A stage of a retirement: the moves so far left the from_slow jobs alone. -/
structure Retiring (setting : Setting Pool) (memory : Memory) (frontier : Frontier)
    (held fresh : List String) (state next : RunState Pool) : Prop extends
    Moves setting memory frontier held state next where
  fresh : Idle fresh next

theorem Standing.of_unseen {program : Program} {cell : Option Cell} {place : Place}
    (standing : Standing program frontier object cell place) (unseen : cell = none) :
    place = {} ∨ ∃ output slot, output ∈ frontier.reserving ∧ output.id = object ∧
      slot.state = .reserved ∧ slot.version = 0 ∧
      place = { record := some (reservedRecord output slot) } := by
  cases standing with
  | unknown _ here => exact Or.inl here
  | reserved output slot listed named pending first _ here =>
    exact Or.inr ⟨output, slot, listed, named, pending, first, here⟩
  | _ =>
    rename_i seen _
    cases unseen.symm.trans seen

theorem eq_of_same_id {outputs : List OutputSpec} (distinct : (outputs.map (·.id)).Nodup)
    {left right : OutputSpec} (inLeft : left ∈ outputs) (inRight : right ∈ outputs)
    (same : left.id = right.id) : left = right :=
  inj_on_of_nodup_map distinct inLeft inRight same

variable {fresh : List String}

theorem output_live {output : OutputSpec} {rest : List OutputSpec} {launched retired : Nat}
    (tracks : Tracks setting memory ⟨launched, retired, output :: rest⟩ state)
    (live : Live held state) (quiet : Idle fresh state)
    (unseen : memory output.id = none) (distinct : ((output :: rest).map (·.id)).Nodup) (done : ℚ) :
    Ensures (outputLive done state output)
      (Retiring setting (memory.create output) ⟨launched, retired, rest⟩ held fresh state)
      (Halts setting) := by
  rcases (tracks.standing output.id).of_unseen unseen with
    empty | ⟨origin, slot, listed, named, pending, first, here⟩
  · have missing : state.table.get output.id = none := congrArg Place.record empty
    simp only [outputLive, requireRecord, missing, error_bind]
    exact tracks.books.halts (by simp)
  obtain rfl := eq_of_same_id distinct listed mem_cons_self named
  have found : state.table.get origin.id = some (reservedRecord origin slot) :=
    congrArg Place.record here
  have stored : (reservedRecord origin slot).slot origin.location = some slot := by
    unfold reservedRecord
    cases origin.location <;> rfl
  simp only [outputLive, requireRecord, found, ok_bind, stored, pending, if_true]
  let alive : Slot := { slot with state := .live, readyEvent := some done }
  have moved : Moves setting (memory.create origin) ⟨launched, retired, origin :: rest⟩ held state
      (state.setSlot origin.id origin.location (some alive)) := by
    refine Rewrites.stays (tracks.books.settles found (fun entry => set_slot_id entry _ _)
      (set_slot_size _ _ _) ?_ rfl ⟨rfl, rfl, rfl, rfl⟩) tracks live here (fun _ => rfl)
      (fun other ne => Function.update_of_ne ne _ _) ?_ ?_ rfl
    · intro location
      cases place : origin.location <;> cases location <;> simp [reservedRecord, place, alive]
    · cases location : origin.location with
      | fast =>
        apply Standing.resident _ alive rfl rfl _ _ rfl
        · intro other backed
          simp [reservedRecord, location] at backed
        · simp [Memory.create, reservedRecord, location, versionOf, first, alive]
      | backing =>
        apply Standing.absent _ _ _ _ rfl
        · simp [reservedRecord, location]
        · intro other backed
          have written : other = alive := by simpa [reservedRecord, location] using backed.symm
          rw [written]
        · simp [Memory.create, reservedRecord, location, versionOf, first, alive]
    · intro _
      left
      cases location : origin.location <;> simp [reservedRecord, location, pending]
  refine ⟨⟨moved.tracks.shift ?_, moved.live, moved.control⟩, quiet.same rfl rfl⟩
  intro other stands
  refine stands.carry (le_refl _) ?_ (fun due _ => due)
  intro absent listed mem same
  rcases mem_cons.mp mem with head | tail
  · simp [Memory.create, ← same, head] at absent
  · exact tail

/-! ### directives on a resident object -/

/-- The rewrite of a record at a mutation: the latest version is the fast copy's. -/
def mutated (slot : Slot) (done : ℚ) (entry : ObjectRecord) : ObjectRecord :=
  { entry with
    version := entry.version + 1
    fast := some { slot with version := entry.version + 1, readyEvent := some done } }

theorem apply_mutation (tracks : Tracks setting memory frontier state)
    (live : Live held state) (quiet : Idle fresh state) (reads : object ∈ held) (done : ℚ) :
    Ensures (applyMutation done state object)
      (Retiring setting (memory.mutate object) frontier held fresh state) (Halts setting) := by
  have alive := live object reads
  unfold ObjectTable.fastState at alive
  cases found : state.table.get object with
  | none => simp [found] at alive
  | some record =>
    rw [found] at alive
    cases inFast : record.fast with
    | none => simp [inFast] at alive
    | some slot =>
      have isLive : slot.state = .live := by simpa [inFast] using alive
      obtain ⟨rest, seen, here⟩ := (tracks.standing object).of_live found inFast isLive
      have move : Rewrites setting state (state.modifyRecord object (mutated slot done)) object
          record (mutated slot done) := by
        refine tracks.books.settles found (fun _ => rfl) rfl ?_ rfl ⟨rfl, rfl, rfl, rfl⟩
        intro location
        cases location <;> simp [mutated, bufferAt, ObjectRecord.slot, inFast]
      simp only [applyMutation, requireRecord, found, ok_bind, inFast]
      refine ⟨move.stays tracks live here (fun _ => rfl) (fun _ ne => Memory.modify_other ne)
        (.resident (mutated slot done record) _ rfl isLive rest ?_ rfl) (fun _ => Or.inr ?_) rfl,
        quiet.same rfl rfl⟩
      · rw [Memory.mutate, Memory.modify_self, seen]
        rfl
      · simp [mutated, isLive]

section Releases

variable {program : Program}

theorem Memory.release_alive (alive : deadEverywhere program task.id object = false) :
    memory.release program task object =
      memory.modify object fun cell => { cell with fast := none } := by
  simp [Memory.release, alive]

theorem Memory.release_dead (dead : deadEverywhere program task.id object = true) :
    memory.release program task object =
      (memory.modify object fun cell => { cell with fast := none }).modify object fun cell =>
        { cell with backing := none } := by
  unfold Memory.release Memory.modify
  simp [dead, Function.comp_def]

theorem Memory.release_unbacked {cell : Cell} (seen : memory object = some cell)
    (unbacked : cell.backing = none) : memory.release program task object =
      memory.modify object fun cell => { cell with fast := none } := by
  unfold Memory.release Memory.modify
  simp [seen, unbacked]

end Releases

/-- A release returns the fast copy to the pool. An object dead everywhere loses its
backing copy too; the caller's own buffers are dropped from the slot and not put there. -/
theorem apply_release (tracks : Tracks setting memory frontier state)
    (quiet : Idle fresh state) : Ensures (applyRelease setting.program task state object)
      (Retiring setting (memory.release setting.program task object) frontier [] fresh state)
      (Halts setting) := by
  unfold applyRelease requireRecord
  cases found : state.table.get object with
  | none => exact tracks.books.halts (by simp)
  | some record =>
    rw [ok_bind]
    cases inFast : record.fast with
    | none => exact tracks.books.halts (by simp)
    | some slot =>
      by_cases alive : slot.state = .live
      · have covered := tracks.covered found .fast (by simp [ObjectRecord.slot, inFast])
        simp only [alive, if_true, refund_covered (tracks.size_pos found) covered, ok_bind]
        obtain ⟨rest, seen, here⟩ := (tracks.standing object).of_live found inFast alive
        let emptied : RunState Pool :=
          ({ state with ledger := state.ledger.subtract .fast record.sizeBytes }.putBuffer
            slot.buffer).setSlot object .fast none
        have buffered : record.bufferAt .fast = some slot.buffer := by
          simp [buffer_at_fast, inFast]
        have vacates : Rewrites setting state emptied object record (·.setSlot .fast none) :=
          tracks.books.gives found buffered (fun _ => rfl) rfl (by rfl)
            (keeps_elsewhere_set record .fast none)
            rfl rfl rfl (Or.inl ⟨tracks.books.fast_unwatched found buffered, rfl, rfl⟩)
        have placed : placeOf emptied object = { record := some (record.setSlot .fast none) } := by
          have empty := lanes_of_place here
          rw [vacates.place_of, show lanesOf emptied object = {} from empty]
        have moved : Moves setting (memory.modify object fun cell => { cell with fast := none })
            frontier [] state emptied := by
          refine vacates.stays tracks (live_nil _) here (fun _ => rfl)
            (fun _ ne => Memory.modify_other ne)
            (.absent (record.setSlot .fast none) rfl rest ?_ rfl) (by rintro ⟨⟩) rfl
          rw [Memory.modify_self, seen]
          rfl
        have calm := quiet.same rfl rfl
        cases inBacking : record.backing with
        | none =>
          rw [Memory.release_unbacked seen (by simp [versionOf, inBacking])]
          exact ⟨moved, calm⟩
        | some backing =>
          dsimp only
          cases dead : deadEverywhere setting.program task.id object with
          | false =>
            rw [Memory.release_alive dead, if_neg (by simp)]
            exact ⟨moved, calm⟩
          | true =>
            have covers := moved.tracks.covered (congrArg Place.record placed) .backing
                (by simp [ObjectRecord.slot, inBacking])
            have refunds := refund_covered (tracks.size_pos found) covers
            rw [Memory.release_dead dead, if_pos ⟨rfl, rest backing inBacking⟩, refunds, ok_bind]
            have backed : (record.setSlot .fast none).bufferAt .backing = some backing.buffer := by
              simp [buffer_at_backing, inBacking]
            refine ⟨moved.trans (Rewrites.stays (moved.tracks.books.gives
              (congrArg Place.record placed) backed (fun entry => set_slot_id entry .backing none) rfl (by rfl)
              (keeps_elsewhere_set _ .backing none)
              (by split <;> rfl) (by split <;> rfl) (by split <;> rfl) ?_) moved.tracks
              (live_nil _) placed
              (fun _ => by split <;> rfl) (fun _ ne => Memory.modify_other ne)
              (.absent _ rfl (fun _ none => by cases none) ?_ rfl) (by rintro ⟨⟩) (by split <;> rfl)), ?_⟩
            · by_cases own : backing.buffer.handle ∈ state.providedHandles
              · rw [if_pos own]
                exact Or.inr ⟨own, rfl, rfl⟩
              · rw [if_neg own]
                refine Or.inl ⟨fun watched => own ?_, rfl, rfl⟩
                exact (tracks.untouched.watched _ watched).1
            · rw [Memory.modify_self, Memory.modify_self, seen]
              rfl
            · exact calm.same (by split <;> rfl) (by split <;> rfl)
      · simp only [alive, if_false]
        exact tracks.books.halts (by simp)

/-! ### offloads and prefetches -/

theorem apply_offload (tracks : Tracks setting memory frontier state)
    (quiet : Idle fresh state) (done : ℚ) (trigger : TransferDirective) :
    Ensures (applyOffload task done state trigger)
      (Retiring setting (memory.offload trigger) frontier [] fresh state) (Halts setting) := by
  unfold applyOffload requireRecord
  cases found : state.table.get trigger.objectId with
  | none => exact tracks.books.halts (by simp)
  | some record =>
    rw [ok_bind]
    cases inFast : record.fast with
    | none => exact tracks.books.halts (by simp)
    | some slot =>
      by_cases alive : slot.state = .live
      · have sent : Retiring setting (memory.offload trigger) frontier [] fresh state
            (applyOffload.queueOffload task done trigger record slot state) := by
          obtain ⟨rest, seen, here⟩ := (tracks.standing trigger.objectId).of_live found inFast alive
          simp only [placeOf, found, Place.mk.injEq, true_and] at here
          obtain ⟨queues, waits, leaves, arrives, departs⟩ := here
          refine ⟨Rewrites.moves (tracks.books.settles found
            (fun entry => set_slot_id entry .fast _) (set_slot_size record .fast _) ?_ rfl
            ⟨rfl, rfl, rfl, rfl⟩) tracks (live_nil _) ?_
            (fun _ ne => Memory.modify_other ne) ?_ (by rintro ⟨⟩) rfl, quiet.same rfl rfl⟩
          · intro location
            cases location <;> simp [buffer_at_fast, inFast]
          · intro other ne
            have skip : jobsFor other [directiveJob task done trigger record] = [] :=
              jobs_for_skip ne.symm
            simp [applyOffload.queueOffload, skip]
          · have single : jobsFor trigger.objectId [directiveJob task done trigger record] =
                [directiveJob task done trigger record] := jobs_for_head rfl
            apply Standing.leaving (record.setSlot .fast (some { slot with
              state := .pendingOutbound })) { slot with state := .pendingOutbound }
              (directiveJob task done trigger record) none rfl rfl rest rfl (by rintro _ ⟨⟩)
            · rw [Memory.offload, Memory.modify_self, seen]
              rfl
            · simp [applyOffload.queueOffload, single, queues, waits, leaves, arrives, departs]
        simp only [alive, if_true]
        cases inBacking : record.backing with
        | none => exact sent
        | some existing =>
          dsimp only
          split
          · exact tracks.books.halts (by simp)
          · split
            · exact tracks.books.halts (by simp)
            · exact sent
      · simp only [alive, if_false]
        exact tracks.books.halts (by simp)

omit [PoolOps Pool] in
theorem Idle.other {objects : List String} (idle : Idle objects state) (job : TransferJob)
    (apart : job.objectId ∉ objects)
    (fired : next.h2d.queue = state.h2d.queue ++ [job] ∧ next.deferred = state.deferred ∨
      next.h2d.queue = state.h2d.queue ∧ next.deferred = state.deferred ++ [job]) :
    Idle objects next := by
  intro pending listed
  have cases : pending ∈ state.h2d.queue ++ state.deferred ∨ pending = job := by
    rcases fired with ⟨queue, waiting⟩ | ⟨queue, waiting⟩ <;>
      simpa [queue, waiting, or_assoc, or_comm, or_left_comm] using listed
  rcases cases with old | new
  · exact idle pending old
  · exact new ▸ apart

variable {position : Nat}

theorem apply_prefetch {trigger : TransferDirective}
    (tracks : Tracks setting memory frontier state) (written : frontier.reserving = [])
    (there : setting.program.tasks[position]? = some task) (applied : position < frontier.retired)
    (listed : trigger ∈ task.prefetchAfter)
    (idle : Idle (trigger.objectId :: fresh) state) (apart : trigger.objectId ∉ fresh) (done : ℚ) :
    Ensures (applyPrefetch task done state trigger)
      (Retiring setting (memory.prefetch trigger) frontier [] fresh state) (Halts setting) := by
  have fired : ∀ record, Fired setting.program frontier (directiveJob task done trigger record) :=
    fun record => ⟨position, task, applied, there, rfl, mem_map_of_mem listed⟩
  have quiet : Idle fresh state := fun job mem inside => idle job mem (mem_cons_of_mem _ inside)
  have unasked : ∀ job ∈ state.h2d.queue ++ state.deferred, job.objectId ≠ trigger.objectId :=
    fun job mem same => idle job mem (same ▸ mem_cons_self)
  have skip : ∀ record other, other ≠ trigger.objectId →
      jobsFor other [directiveJob task done trigger record] = [] :=
    fun record other ne => jobs_for_skip ne.symm
  have single : ∀ record, jobsFor trigger.objectId [directiveJob task done trigger record] =
      [directiveJob task done trigger record] :=
    fun record => jobs_for_head rfl
  -- the prefetch of an object that is on its way out waits for the offload
  have postpones : ∀ {record} {again : Option TransferJob},
      state.table.get trigger.objectId = some record → fastArriving record = false →
      offloadInFlight record = true → jobsFor trigger.objectId state.deferred = again.toList →
      (again = none → Standing setting.program frontier trigger.objectId
        (memory.prefetch trigger trigger.objectId)
        { placeOf state trigger.objectId with
          waiting := [directiveJob task done trigger record] }) →
      Ensures (applyPrefetch task done state trigger)
        (Retiring setting (memory.prefetch trigger) frontier [] fresh state) (Halts setting) := by
    intro record again found away busy waits stands
    cases again with
    | some late =>
      have inside : late.objectId = trigger.objectId ∧ late ∈ state.deferred :=
        jobs_for_mem (by simp [waits])
      exact absurd inside.1 (unasked late (mem_append_right _ inside.2))
    | none =>
      simp only [applyPrefetch, requireRecord, found, ok_bind, away, busy, if_true,
        Bool.false_eq_true, if_false]
      refine ⟨Rewrites.moves (tracks.books.notes found rfl ⟨rfl, rfl, rfl, rfl⟩) tracks
        (live_nil _) ?_ (fun _ ne => Memory.modify_other ne) ?_ (by rintro ⟨⟩) rfl,
        quiet.other (directiveJob task done trigger record) apart (Or.inr ⟨rfl, rfl⟩)⟩
      · intro other ne
        have none := skip record other ne
        simp [none]
      · have only := single record
        simpa [waits, only, found] using stands rfl
  cases standing : tracks.standing trigger.objectId with
  | unknown unseen here =>
    have missing : state.table.get trigger.objectId = none := congrArg Place.record here
    simp only [applyPrefetch, requireRecord, missing, error_bind]
    exact tracks.books.halts (by simp)
  | reserved output slot listed =>
    rw [written] at listed
    cases listed
  | resident record slot inFast there _ _ here
  | arriving record slot _ _ inFast there _ _ _ _ here =>
    have found : state.table.get trigger.objectId = some record := congrArg Place.record here
    have arrives : fastArriving record = true := by simp [fastArriving, inFast, there]
    simp only [applyPrefetch, requireRecord, found, ok_bind, arrives, if_true]
    exact tracks.books.halts (by simp)
  | returning record source job gone stored alive sized due seen here =>
    have queues : jobsFor trigger.objectId state.h2d.queue = [job] := congrArg Place.queued here
    have inside := jobs_for_mem (queues ▸ mem_cons_self)
    exact absurd inside.1 (unasked job (mem_append_left _ inside.2))
  | absent record gone rest seen here =>
    simp only [placeOf, Place.mk.injEq] at here
    obtain ⟨found, queues, waits, leaves, arrives, departs⟩ := here
    unfold applyPrefetch requireRecord
    rw [found, ok_bind, if_neg (by simp [fastArriving, gone])]
    cases inBacking : record.backing with
    | none =>
      rw [if_neg (by simp [offloadInFlight, gone, inBacking])]
      exact Halts.of_same tracks (by simp) tracks.capped rfl rfl rfl
    | some source =>
      have alive := rest source inBacking
      rw [if_neg (by simp [offloadInFlight, gone, inBacking, alive])]
      simp only [alive, if_true]
      refine ⟨Rewrites.moves (tracks.books.notes found rfl ⟨rfl, rfl, rfl, rfl⟩) tracks
        (live_nil _) ?_ (fun _ ne => Memory.modify_other ne) ?_ (by rintro ⟨⟩) rfl,
        quiet.other (directiveJob task done trigger record) apart (Or.inl ⟨rfl, rfl⟩)⟩
      · intro other ne
        have none := skip record other ne
        simp [none]
      · apply Standing.returning record source (directiveJob task done trigger record) gone
          inBacking alive rfl (Or.inl (fired record))
        · rw [Memory.prefetch, Memory.modify_self, seen]
          simp [versionOf, inBacking]
        · have only := single record
          simp [queues, waits, leaves, arrives, departs, only]
  | leaving record slot moving again inFast outgoing rest sized _ seen here =>
    refine postpones (congrArg Place.record here) (by simp [fastArriving, inFast, outgoing])
      (by simp [offloadInFlight, inFast, outgoing]) (congrArg Place.waiting here) ?_
    rintro rfl
    rw [here]
    refine .leaving record slot moving (some (directiveJob task done trigger record)) inFast
      outgoing rest sized ?_ ?_ rfl
    · rintro late ⟨⟩
      exact ⟨rfl, fired record⟩
    · rw [Memory.prefetch, Memory.modify_self, seen]
      rfl
  | departing record slot target moving again inFast outbound stored inward same sized _ seen
      here =>
    refine postpones (congrArg Place.record here) (by simp [fastArriving, inFast, outbound])
      (by simp [offloadInFlight, inFast, outbound]) (congrArg Place.waiting here) ?_
    rintro rfl
    rw [here]
    refine .departing record slot target moving (some (directiveJob task done trigger record))
      inFast outbound stored inward same sized ?_ ?_ rfl
    · rintro late ⟨⟩
      exact ⟨rfl, fired record⟩
    · rw [Memory.prefetch, Memory.modify_self, seen]
      rfl

/-! ### the whole retirement -/

theorem Retiring.trans {middle : RunState Pool} {after : Memory}
    {later : Frontier} (first : Retiring setting memory frontier held fresh state middle)
    (second : Retiring setting after later held fresh middle next) :
    Retiring setting after later held fresh state next :=
  ⟨⟨second.tracks, second.live, second.control.trans first.control⟩, second.fresh⟩

theorem retire_loop {Item : Type}
    (body : RunState Pool → Item → Run Pool (RunState Pool)) (apply : Memory → Item → Memory)
    (items : List Item) (one : ∀ item ∈ items, ∀ memory state,
      Tracks setting memory frontier state → Live held state → Idle fresh state →
      Ensures (body state item) (Retiring setting (apply memory item) frontier held fresh state)
        (Halts setting)) {memory : Memory} {start state : RunState Pool}
    (begun : Retiring setting memory frontier held fresh start state) :
    Ensures (items.foldlM body state)
      (Retiring setting (items.foldl apply memory) frontier held fresh start) (Halts setting) := by
  induction items generalizing memory state with
  | nil => exact begun
  | cons item rest ih =>
    apply ensures_bind (one item mem_cons_self memory state begun.tracks begun.live begun.fresh)
    intro next moved
    exact ih (forall_mem_cons.mp one).2 (begun.trans moved)

variable {start : RunState Pool}

theorem outputs_live {launched retired : Nat} (outputs : List OutputSpec)
    (begun : Retiring setting memory ⟨launched, retired, outputs⟩ held fresh start state)
    (unseen : ∀ output ∈ outputs, memory output.id = none)
    (distinct : (outputs.map (·.id)).Nodup) (done : ℚ) :
    Ensures (outputs.foldlM (outputLive done) state)
      (Retiring setting (outputs.foldl Memory.create memory) ⟨launched, retired, []⟩ held fresh
        start) (Halts setting) := by
  induction outputs generalizing memory state with
  | nil => exact begun
  | cons output rest ih =>
    apply ensures_bind (output_live begun.tracks begun.live begun.fresh
      (unseen output mem_cons_self) distinct done)
    intro next moved
    rw [map_cons, nodup_cons] at distinct
    apply ih (begun.trans moved) _ distinct.2
    intro later mem
    have apart : later.id ≠ output.id := by
      intro same
      exact distinct.1 (same ▸ mem_map_of_mem mem)
    rw [Memory.create, Function.update_of_ne apart]
    exact unseen later (mem_cons_of_mem output mem)

theorem prefetches_fired (triggers : List TransferDirective)
    (begun : Retiring setting memory frontier [] (triggers.map (·.objectId)) start state)
    (written : frontier.reserving = [])
    (there : setting.program.tasks[position]? = some task) (applied : position < frontier.retired)
    (listed : ∀ trigger ∈ triggers, trigger ∈ task.prefetchAfter)
    (distinct : (triggers.map (·.objectId)).Nodup) (done : ℚ) :
    Ensures (triggers.foldlM (applyPrefetch task done) state)
      (Moves setting (triggers.foldl Memory.prefetch memory) frontier [] start)
      (Halts setting) := by
  induction triggers generalizing memory state with
  | nil => exact begun.toMoves
  | cons trigger rest ih =>
    rw [map_cons, nodup_cons] at distinct
    apply ensures_bind (apply_prefetch begun.tracks written there applied
      (listed trigger mem_cons_self) begun.fresh distinct.1 done)
    intro next moved
    refine ih ⟨begun.toMoves.trans moved.toMoves, moved.fresh⟩ ?_ distinct.2
    exact (forall_mem_cons.mp listed).2

/-- A calm task finds no job waiting for what it prefetches and does not offload:
a reload would have to be undisturbed until its reader. -/
theorem Calm.idle {outputs : List OutputSpec} (calm : Calm setting.program task state)
    (tracks : Tracks setting memory ⟨position + 1, position, outputs⟩ state)
    (there : setting.program.tasks[position]? = some task) :
    Idle ((task.prefetchAfter.map (·.objectId)).filter
      (· ∉ task.offloadAfter.map (·.objectId))) state := by
  intro job mem listed
  rw [mem_filter, decide_eq_true_eq] at listed
  rcases ((tracks.standing job.objectId).of_awaited (awaited_at mem)).1 with
    fired | ⟨next, reader, reach, _, _, untouched⟩
  · exact calm job.objectId listed.1 listed.2 ⟨job, mem, rfl, fired.planned⟩
  · exact untouched position task (le_refl _) reach there (mem_append_right _ listed.1)

theorem idle_after_offloads {before : Memory}
    (tracks : Tracks setting (task.offloadAfter.foldl Memory.offload before) frontier state)
    (idle : Idle ((task.prefetchAfter.map (·.objectId)).filter
      (· ∉ task.offloadAfter.map (·.objectId))) state) :
    Idle (task.prefetchAfter.map (·.objectId)) state := by
  intro job mem listed
  by_cases offloaded : job.objectId ∈ task.offloadAfter.map (·.objectId)
  · obtain ⟨_, cell, seen, inFast⟩ := (tracks.standing job.objectId).of_awaited (awaited_at mem)
    exact inFast (Memory.out_after_offloads _ before (Or.inl offloaded) cell seen)
  · exact idle job mem (mem_filter.mpr ⟨listed, by simpa using offloaded⟩)

theorem Retiring.passed {before : Memory}
    (retiring : Retiring setting (task.offloadAfter.foldl Memory.offload before)
      ⟨position + 1, position, []⟩ [] ((task.prefetchAfter.map (·.objectId)).filter
        (· ∉ task.offloadAfter.map (·.objectId))) start state) :
    Retiring setting (task.offloadAfter.foldl Memory.offload before)
      ⟨position + 1, position + 1, []⟩ [] (task.prefetchAfter.map (·.objectId)) start state := by
  refine ⟨⟨retiring.tracks.shift ?_, retiring.live, retiring.control⟩,
    idle_after_offloads retiring.tracks retiring.fresh⟩
  intro object stands
  apply stands.carry (Nat.le_succ position)
  · exact fun _ => nofun
  · rintro ⟨next, reader, reach, found, reads, untouched⟩ _
    refine ⟨next, reader, reach, found, reads, ?_⟩
    intro index task above
    exact untouched index task (Nat.le_of_succ_le above)

theorem on_task_done {token : TaskDone}
    (tracks : Tracks setting memory ⟨position + 1, position, token.task.outputs⟩ state)
    (there : setting.program.tasks[position]? = some token.task)
    (live : Live token.task.inputs state)
    (unseen : ∀ output ∈ token.task.outputs, memory output.id = none)
    (calm : Calm setting.program token.task state) :
    Ensures (onTaskDone setting.program token state)
      (Moves setting (memory.retire setting.program token.task) ⟨position + 1, position + 1, []⟩ []
        { state with outstanding := none }) (Halts setting) := by
  have listed := mem_of_getElem? there
  have admitted := setting.admitted.tasks token.task listed
  have distinct := (nodup_flatMap.mp setting.admitted.outputsDistinct).1 token.task listed
  have begun : Retiring setting memory ⟨position + 1, position, token.task.outputs⟩
      token.task.inputs ((token.task.prefetchAfter.map (·.objectId)).filter
        (· ∉ token.task.offloadAfter.map (·.objectId)))
      { state with outstanding := none } { state with outstanding := none } :=
    ⟨⟨tracks.of_view rfl, live, rfl⟩,
      (calm.idle tracks there).same rfl rfl⟩
  apply ensures_bind (outputs_live _ begun unseen distinct _)
  intro written outputsDone
  apply ensures_bind (retire_loop (applyMutation token.doneEvent) Memory.mutate token.task.mutates
    (fun object mem memory state tracks live quiet =>
      apply_mutation tracks live quiet (admitted.mutatesInputs object mem) token.doneEvent)
    outputsDone)
  intro mutated mutationsDone
  -- from here on no input has to stay live
  have noted : ∀ interval, Retiring setting _ ⟨position + 1, position, []⟩ []
      ((token.task.prefetchAfter.map (·.objectId)).filter
        (· ∉ token.task.offloadAfter.map (·.objectId))) { state with outstanding := none }
      { mutated with pendingIntervals := mutated.pendingIntervals ++ [interval] } := fun interval =>
    ⟨⟨mutationsDone.tracks.of_view rfl,
      forall_mem_nil _, mutationsDone.control⟩,
      mutationsDone.fresh.same rfl rfl⟩
  apply ensures_bind (retire_loop (applyRelease setting.program token.task)
    (Memory.release setting.program token.task) token.task.releasesAfter
    (fun object mem memory state tracks live quiet => apply_release tracks quiet)
    (noted _))
  intro released releasesDone
  apply ensures_bind (retire_loop (applyOffload token.task token.doneEvent) Memory.offload
    token.task.offloadAfter
    (fun trigger mem memory state tracks live quiet =>
      apply_offload tracks quiet token.doneEvent trigger) releasesDone)
  intro offloaded offloadsDone
  apply ensures_bind (prefetches_fired token.task.prefetchAfter offloadsDone.passed rfl there
    (Nat.lt_succ_self position) (fun trigger mem => mem) admitted.prefetchesDistinct
    token.doneEvent)
  intro prefetched retired
  apply ensures_bind (retired.andThen (try_start_from_slow retired.tracks retired.live false))
  intro started begun
  exact begun.andThen (try_start_to_slow begun.tracks begun.live false)

end Dataflow
