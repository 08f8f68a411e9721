import Dataflow.TaskMoves

/-!
The moves that create records: reserving the outputs of the next task, and
loading the initial objects. A reservation is admitted for all fast outputs at
once and charged one by one; `Room` carries the admission through the loop.
-/

namespace Dataflow

open StatefulOutcome RunState KeyedTable ObjectRecord List

variable {Pool : Type} [PoolOps Pool] {setting : Setting Pool} {memory : Memory}
  {held : List String} {state : RunState Pool} {task : TaskSpec}

/-! ### new records -/

section Added

variable {table : ObjectTable} {blank entry : ObjectRecord}

theorem get_add (object : String) : (table.add blank).get object =
    (table.get object).or (if blank.id = object then some blank else none) := by
  cases known : table.get blank.id with
  | none => rw [ObjectTable.add_new known, ObjectTable.get_append]
  | some record =>
    by_cases same : blank.id = object
    · subst same
      simp [ObjectTable.add, known]
    · simp [ObjectTable.add, known, same]

theorem mem_add (mem : entry ∈ table.add blank) : entry ∈ table ∨ entry = blank := by
  unfold ObjectTable.add at mem
  split at mem
  · exact Or.inl mem
  · simpa using mem

theorem Books.added (kept : Books setting state) (sized : 0 < blank.sizeBytes)
    (noFast : blank.fast = none) (noBacking : blank.backing = none) :
    Books setting { state with table := state.table.add blank } := by
  cases known : state.table.get blank.id with
  | some record =>
    have same : state.table.add blank = state.table := by simp [ObjectTable.add, known]
    rw [same]
    exact kept
  | none =>
    rw [ObjectTable.add_new known]
    have weightless : ∀ handle, holds handle blank = 0 := by
      simp [holds, slotHolds, noFast, noBacking]
    refine { kept with distinct := ?_, positive := ?_, accounted := ?_, balanced := ?_,
                       untouched := ⟨kept.untouched.caller, kept.untouched.watched⟩
                       custody := ?_ }
    · exact keys_append_nodup kept.distinct (lookup_none.mp known)
    · intro record mem
      rw [mem_append, mem_singleton] at mem
      rcases mem with old | new
      · exact kept.positive record old
      · exact new ▸ sized
    · intro location
      rw [total_append, total_cons, total_nil, kept.accounted]
      cases location <;> simp [occupied, ObjectRecord.slot, noFast, noBacking]
    · intro handle outside
      rw [total_append, total_cons, total_nil, weightless]
      exact (kept.balanced handle outside).trans (by simp)
    · intro handle watched
      refine ⟨(kept.custody handle watched).1, ?_⟩
      intro record mem slot inFast
      rw [mem_append, mem_singleton] at mem
      rcases mem with old | new
      · exact (kept.custody handle watched).2 record old slot inFast
      · rw [new, noFast] at inFast
        cases inFast

end Added

/-! ### room for the outputs -/

def Room (ledger : Ledger) (outputs : List OutputSpec) : Prop :=
  ∀ location capacity, ledger.capacity location = some capacity →
    ledger.used location + bytesAt location outputs ≤ capacity

theorem bytes_at_cons (location : Location) (output : OutputSpec) (rest : List OutputSpec) :
    bytesAt location (output :: rest) =
      (if location = output.location then output.sizeBytes else 0) + bytesAt location rest := by
  by_cases same : location = output.location
  · simp [bytesAt, same]
  · simp [bytesAt, same, Ne.symm same]

variable {outputs rest earlier : List OutputSpec} {ledger : Ledger} {position : Nat}
  {escaped : List String}

theorem bytes_at_nonneg (location : Location)
    (positive : ∀ output ∈ outputs, 1 ≤ output.sizeBytes) : 0 ≤ bytesAt location outputs := by
  induction outputs with
  | nil => simp [bytesAt]
  | cons output rest ih =>
    have first := positive output mem_cons_self
    have others := ih (forall_mem_cons.mp positive).2
    rw [bytes_at_cons]
    split <;> omega

theorem room_of_admitted (capped : ledger.Capped)
    (admits : ∀ location, ledger.canReserve location (bytesAt location outputs) = true) :
    Room ledger outputs := by
  intro location capacity limit
  by_cases some : 0 < bytesAt location outputs
  · exact Ledger.room_of_can_reserve some (admits location) limit
  · have below := capped location capacity limit
    omega

variable {output : OutputSpec}

theorem Room.admits (room : Room ledger (output :: rest))
    (positive : ∀ later ∈ output :: rest, 1 ≤ later.sizeBytes) :
    ledger.canReserve output.location output.sizeBytes = true := by
  have first := positive output mem_cons_self
  have others := bytes_at_nonneg output.location
    (forall_mem_cons.mp positive).2
  unfold Ledger.canReserve
  rw [if_neg (by omega)]
  cases limit : ledger.capacity output.location with
  | none => rfl
  | some capacity =>
    have bound := room output.location capacity limit
    rw [bytes_at_cons, if_pos rfl] at bound
    simp only [decide_eq_true_eq]
    omega

theorem Room.charged
    (room : Room ledger (output :: rest)) :
    Room (ledger.add output.location output.sizeBytes) rest := by
  intro location capacity limit
  rw [Ledger.capacity_add] at limit
  have bound := room location capacity limit
  rw [bytes_at_cons] at bound
  rw [Ledger.used_add]
  omega

/-! ### reserving -/

theorem reserve_output
    (tracks : Tracks setting memory ⟨position, position, earlier⟩ state) (live : Live held state)
    (unseen : memory output.id = none) (apart : output.id ∉ earlier.map (·.id))
    (positive : 1 ≤ output.sizeBytes)
    (admits : state.ledger.canReserve output.location output.sizeBytes = true) :
    Ensures (reserveOutput task escaped state output)
      (fun next => Moves setting memory ⟨position, position, earlier ++ [output]⟩ held state next ∧
        next.ledger = state.ledger.add output.location output.sizeBytes) (Halts setting) := by
  have here : placeOf state output.id = {} := by
    rcases (tracks.standing output.id).of_unseen unseen with empty | ⟨origin, _, listed, named, _⟩
    · exact empty
    · exact absurd (named ▸ mem_map_of_mem listed) apart
  have absent : state.table.get output.id = none := congrArg Place.record here
  let blank : ObjectRecord := { id := output.id, sizeBytes := output.sizeBytes }
  have found : (state.table.add blank).get output.id = some blank := by
    rw [get_add, absent]
    simp [blank]
  have vacant : blank.slot output.location = none := by
    cases output.location <;> rfl
  unfold reserveOutput
  rw [charge_admitted (by omega) admits, ok_bind]
  refine ensures_bind (take_buffer (by exact tracks.foreign)
    (by exact fun _ => halts_charged tracks (by omega) admits rfl rfl rfl rfl) _ _ _ _) ?_
  rintro ⟨buffer, _⟩ ⟨pool, calls, rfl, got⟩
  dsimp only [requireRecord]
  rw [found, ok_bind, vacant]
  let slot : Slot := { buffer := buffer, state := .reserved, version := 0 }
  let grown : RunState Pool := { state with table := state.table.add blank }
  let next : RunState Pool := RunState.setSlot { state with
    table := state.table.add blank
    ledger := state.ledger.add output.location output.sizeBytes
    pool := pool
    poolCalls := calls } output.id output.location (some slot)
  have move : Rewrites setting grown next output.id blank (·.setSlot output.location (some slot)) :=
    got.rewrites (tracks.books.added (by exact positive) rfl rfl) found
      (by simp [bufferAt, vacant]) rfl admits (fun entry => set_slot_id entry _ _)
      (set_slot_size _ _ _) (by simp [slot]) (keeps_elsewhere_set _ _ _) rfl rfl rfl rfl rfl rfl rfl
  refine ⟨⟨move.tracks (tracks.books.added (by exact positive) rfl rfl) ?_ ?_,
    move.live ?_ fun _ => Or.inl (by simp [blank]), rfl⟩, rfl⟩
  · intro other ne
    have same : grown.table.get other = state.table.get other := by
      rw [get_add, if_neg ne.symm, Option.or_none]
    rw [same]
    exact (tracks.standing other).carry (by exact le_refl _)
      (fun _ listed mem _ => mem_append_left _ mem) (fun due _ => due)
  · apply Standing.reserved output slot (mem_append_right _ mem_cons_self) rfl rfl rfl unseen
    have empty : lanesOf next output.id = {} := by
      change { placeOf state output.id with record := none } = _
      rw [here]
    rw [empty]
    rfl
  · -- a held object is known, so it is not the new one
    intro other mem
    have before := live other mem
    unfold ObjectTable.fastState at before ⊢
    cases known : state.table.get other with
    | none => simp [known] at before
    | some record =>
      rw [known] at before
      rw [get_add, known]
      exact before

theorem reserve_outputs (outputs : List OutputSpec)
    {start : RunState Pool}
    (begun : Moves setting memory ⟨position, position, earlier⟩ held start state)
    (unseen : ∀ output ∈ outputs, memory output.id = none)
    (distinct : ((earlier ++ outputs).map (·.id)).Nodup)
    (positive : ∀ output ∈ outputs, 1 ≤ output.sizeBytes) (room : Room state.ledger outputs) :
    Ensures (outputs.foldlM (reserveOutput task escaped) state)
      (Moves setting memory ⟨position, position, earlier ++ outputs⟩ held start)
      (Halts setting) := by
  induction outputs generalizing earlier state with
  | nil =>
    rw [append_nil]
    exact begun
  | cons output rest ih =>
    have apart : output.id ∉ earlier.map (·.id) := by
      rw [map_append, map_cons, nodup_append] at distinct
      intro mem
      exact distinct.2.2 _ mem _ mem_cons_self rfl
    apply ensures_bind (reserve_output begun.tracks begun.live
      (unseen output mem_cons_self) apart (positive output mem_cons_self)
      (room.admits positive))
    rintro next ⟨moved, charged⟩
    have regrouped : earlier ++ output :: rest = earlier ++ [output] ++ rest := by simp
    rw [regrouped]
    rw [regrouped] at distinct
    refine ih ⟨moved.tracks, moved.live, moved.control.trans begun.control⟩ ?_ distinct ?_ ?_
    · exact (forall_mem_cons.mp unseen).2
    · exact (forall_mem_cons.mp positive).2
    · rw [charged]
      exact room.charged

/-! ### the initial load -/

/-- No watched buffer is handed in as the fast copy of an object. -/
def KeptOffFast (setting : Setting Pool) (provided : List (String × Buffer)) : Prop :=
  ∀ spec ∈ setting.program.initialObjects, spec.location = .fast → ∀ buffer,
    provided.lookup spec.id = some buffer → buffer.location = .fast →
    buffer.handle ∉ setting.watched

theorem initial_buffer {provided : List (String × Buffer)} {spec : ObjectSpec}
    (listed : spec ∈ setting.program.initialObjects) (off : KeptOffFast setting provided)
    (caller : state.providedHandles = provided.map (·.2.handle))
    (foreign : ∀ handle ∈ setting.watched, setting.foreign state.pool handle) :
    Ensures (initialBuffer provided spec state)
      (fun got => ∃ pool calls, got.2 = { state with pool := pool, poolCalls := calls } ∧
        Obtained setting state spec.location got.1 got.2) (fun _ _ => True) := by
  unfold initialBuffer
  cases found : provided.lookup spec.id with
  | none => exact take_buffer foreign (fun _ => trivial) _ _ _ _
  | some buffer =>
    dsimp only
    split
    · trivial
    split
    · rename_i placed
      have handed : buffer.handle ∈ state.providedHandles := by
        rw [caller]
        obtain ⟨before, rest, split, _⟩ := lookup_eq_some_iff.mp found
        simp [split]
      refine ⟨_, _, rfl, rfl, ?_, fun call mem => Or.inl mem, foreign, ?_⟩
      · intro handle outside
        have apart : buffer.handle ≠ handle := fun same => outside (same ▸ handed)
        simp [apart]
      · intro inFast
        exact off spec listed inFast buffer found (placed.trans inFast)
    · exact take_buffer foreign (fun _ => trivial) _ _ _ _

/-- A run that is still loading: nothing is in flight and every record is an initial object's. -/
structure Loading (setting : Setting Pool) (provided : List (String × Buffer)) (pool : Pool)
    (memory : Memory) (state : RunState Pool) : Prop where
  tracks : Tracks setting memory ⟨0, 0, []⟩ state
  inLane : state.h2d = (initialState setting.program provided pool).h2d
  outLane : state.d2h = (initialState setting.program provided pool).d2h
  waiting : state.deferred = []
  caller : state.providedHandles = provided.map (·.2.handle)
  control : control state = control (initialState setting.program provided pool)
  sizes : ∀ record ∈ state.table, ∃ spec ∈ setting.program.initialObjects,
    spec.id = record.id ∧ spec.sizeBytes = record.sizeBytes

section Load

variable {provided : List (String × Buffer)} {pool : Pool} {spec : ObjectSpec}

theorem Loading.place_of (loading : Loading setting provided pool memory state)
    (object : String) : placeOf state object = { record := state.table.get object } := by
  simp [placeOf, loading.inLane, loading.outLane, loading.waiting, initialState]

theorem Memory.place_self {record : ObjectRecord} {slot : Slot} (first : slot.version = 0)
    (seen : (memory spec.id).getD { version := 0, fast := none, backing := none } =
      { version := record.version, fast := versionOf record.fast
        backing := versionOf record.backing }) :
    memory.place spec spec.id = some
      { version := (record.setSlot spec.location (some slot)).version
        fast := versionOf (record.setSlot spec.location (some slot)).fast
        backing := versionOf (record.setSlot spec.location (some slot)).backing } := by
  unfold Memory.place
  rw [Function.update_self, seen]
  cases spec.location <;> simp [versionOf, first]

theorem at_rest_set {record : ObjectRecord} {location : Location} {slot : Slot}
    (fast : AtRest record.fast) (backing : AtRest record.backing) (live : slot.state = .live) :
    AtRest (record.setSlot location (some slot)).fast ∧
      AtRest (record.setSlot location (some slot)).backing := by
  have placed : AtRest (some slot) := by
    intro held same
    exact Option.some.inj same ▸ live
  cases location with
  | fast => exact ⟨placed, backing⟩
  | backing => exact ⟨fast, placed⟩

theorem load_initial (loading : Loading setting provided pool memory state)
    (listed : spec ∈ setting.program.initialObjects) (off : KeptOffFast setting provided) :
    Ensures (loadInitial provided state spec)
      (Loading setting provided pool (memory.place spec)) (fun _ _ => True) := by
  have positive := setting.admitted.initialPositive spec listed
  let blank : ObjectRecord := { id := spec.id, sizeBytes := spec.sizeBytes }
  obtain ⟨record, found, sized, fast, backing, seen⟩ : ∃ record,
      (state.table.add blank).get spec.id = some record ∧ record.sizeBytes = spec.sizeBytes ∧
      AtRest record.fast ∧ AtRest record.backing ∧
      (memory spec.id).getD { version := 0, fast := none, backing := none } =
        { version := record.version, fast := versionOf record.fast
          backing := versionOf record.backing } := by
    have place : (placeOf state spec.id).record = state.table.get spec.id := rfl
    rcases (loading.tracks.standing spec.id).of_no_jobs rfl (by rw [loading.place_of]) with
      ⟨unseen, missing⟩ | ⟨known, same, fast, backing, seen⟩
    · refine ⟨blank, ?_, rfl, nofun, nofun, by rw [unseen]; rfl⟩
      rw [get_add, ← place, missing]
      simp [blank]
    · rw [place] at same
      obtain ⟨origin, mem, sameId, sameSize⟩ := loading.sizes known (lookup_mem same)
      refine ⟨known, by rw [get_add, same]; rfl, ?_, fast, backing, by rw [seen]; rfl⟩
      rw [← sameSize]
      exact setting.admitted.initialSizes origin mem spec listed
        (sameId.trans (ObjectTable.get_id same))
  have kept : Books setting { state with table := state.table.add blank } :=
    loading.tracks.books.added (by exact positive) rfl rfl
  unfold loadInitial
  dsimp only [requireRecord]
  rw [found, ok_bind]
  cases vacant : record.slot spec.location with
  | some slot => trivial
  | none =>
    by_cases admits : state.ledger.canReserve spec.location spec.sizeBytes = true
    · rw [charge_admitted (by omega), ok_bind]
      swap
      · exact admits
      refine ensures_bind (initial_buffer listed off (by exact loading.caller)
        (by exact loading.tracks.foreign)) ?_
      rintro ⟨buffer, _⟩ ⟨pool, calls, rfl, got⟩
      let slot : Slot := { buffer := buffer, state := .live, version := 0 }
      let next : RunState Pool := RunState.setSlot { state with
        table := state.table.add blank
        ledger := state.ledger.add spec.location spec.sizeBytes
        pool := pool
        poolCalls := calls } spec.id spec.location (some slot)
      have move : Rewrites setting { state with table := state.table.add blank } next spec.id record
          (·.setSlot spec.location (some slot)) :=
        got.rewrites kept found (by simp [bufferAt, vacant]) sized.symm admits
          (fun entry => set_slot_id entry _ _) (set_slot_size _ _ _) (by simp [slot])
          (keeps_elsewhere_set _ _ _) rfl rfl rfl rfl rfl rfl rfl
      refine { loading with tracks := move.tracks kept ?_ ?_, sizes := ?_ }
      · intro other ne
        have same : (state.table.add blank).get other = state.table.get other := by
          rw [get_add, if_neg ne.symm, Option.or_none]
        rw [same, Memory.place, Function.update_of_ne ne]
        exact loading.tracks.standing other
      · have rest : AtRest (record.setSlot spec.location (some slot)).fast ∧
            AtRest (record.setSlot spec.location (some slot)).backing :=
          at_rest_set fast backing rfl
        apply Standing.of_rest rest.1 rest.2 (Memory.place_self rfl seen)
        have empty : lanesOf next spec.id = {} := by
          change { placeOf state spec.id with record := none } = _
          rw [loading.place_of]
        rw [empty]
      · intro entry mem
        rcases modify_mem kept.distinct found mem with old | new
        · rcases mem_add old with known | fresh
          · exact loading.sizes entry known
          · exact ⟨spec, listed, by rw [fresh], by rw [fresh]⟩
        · refine ⟨spec, listed, ?_, ?_⟩
          · rw [new, set_slot_id, ObjectTable.get_id found]
          · rw [new, set_slot_size, sized]
    · rw [charge_refused (by omega)]
      · trivial
      · exact admits

theorem Loading.begin (own : setting.caller = provided.map (·.2.handle))
    (listed : ∀ handle ∈ setting.watched, handle ∈ provided.map (·.2.handle))
    (foreign : ∀ handle ∈ setting.watched, setting.foreign pool handle) :
    Loading setting provided pool (fun _ => none) (initialState setting.program provided pool) := by
  refine ⟨?_, rfl, rfl, rfl, rfl, rfl, ?_⟩
  · constructor
    · exact nodup_nil
    · intro record mem
      cases mem
    · intro object
      exact .unknown rfl rfl
    · intro location
      cases location <;> rfl
    · intro location capacity limit
      have admitted := setting.admitted
      cases location with
      | fast => exact (admitted.fastCapacity capacity limit).le
      | backing => exact (admitted.backingCapacity capacity limit).le
    · intro handle _
      rfl
    · refine ⟨own.symm, ?_⟩
      intro handle mem
      refine ⟨listed handle mem, ?_⟩
      intro call early
      cases early
    · intro handle mem
      refine ⟨foreign handle mem, ?_⟩
      intro record early
      cases early
  · intro record mem
    cases mem

theorem load_tracks (own : setting.caller = provided.map (·.2.handle))
    (listed : ∀ handle ∈ setting.watched, handle ∈ provided.map (·.2.handle))
    (foreign : ∀ handle ∈ setting.watched, setting.foreign pool handle)
    (off : KeptOffFast setting provided) (loaded : load setting.program provided pool = .ok state) :
    Loading setting provided pool (initialMemory setting.program) state := by
  have every : ∀ (specs : List ObjectSpec) (memory : Memory) (begun : RunState Pool),
      (∀ spec ∈ specs, spec ∈ setting.program.initialObjects) →
      Loading setting provided pool memory begun →
      Ensures (specs.foldlM (loadInitial provided) begun)
        (Loading setting provided pool (specs.foldl Memory.place memory)) (fun _ _ => True) := by
    intro specs
    induction specs with
    | nil => exact fun memory begun _ loading => loading
    | cons spec rest ih =>
      intro memory begun members loading
      apply ensures_bind (load_initial loading (members spec mem_cons_self) off)
      intro next placed
      exact ih _ next (forall_mem_cons.mp members).2 placed
  exact ensures_of_ok loaded (every _ _ _ (fun _ mem => mem) (Loading.begin own listed foreign))

end Load

end Dataflow
