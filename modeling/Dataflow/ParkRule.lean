import Dataflow.VerbFootprint

/-!
The dispatcher parks a call whose handler raises LEASED and later runs it again
from scratch, so the error has to come before any change. Most verbs look at the
leases first. A wipe meets them one object at a time, and a run meets the ones on
its final objects only after it has executed.
-/

namespace Dataflow.Service

open StatefulOutcome ByteRanges List

variable {Digest : Type} {store : Store} {record : ObjectRecord}

/-! ### wipe -/

/-- The first object of the scope that the wipe does not pass over. -/
def firstWiped (store : Store) (force : Bool) (ids : List String) : Option ObjectRecord :=
  ids.findSome? fun id =>
    (store.object id).filter fun record => ¬(record.isProtected = true ∧ force = false)

theorem first_wiped_head {force : Bool} {id : String} {rest : List String}
    (found : store.object id = some record)
    (acts : ¬(record.isProtected = true ∧ force = false)) :
    firstWiped store force (id :: rest) = some record := by
  have kept : (store.object id).filter
      (fun record => ¬(record.isProtected = true ∧ force = false)) = some record := by
    rw [found, Option.filter_some, if_pos (decide_eq_true acts)]
  simp only [firstWiped, findSome?_cons, kept]

theorem drop_record_shrinks {id : String}
    (found : store.object id = some record) :
    (store.dropRecord record).objects.length < store.objects.length := by
  apply length_filter_lt_length_iff_exists.mpr
  exact ⟨record, mem_of_find?_eq_some found, by simp⟩

theorem wipe_loop_shrinks (force : Bool) (ids : List String) (report : Store.WipeReport)
    (store : Store) : Ensures (Store.wipeLoop force ids report store)
      (fun done => done.2.objects.length ≤ store.objects.length)
      fun _ after => after.objects.length ≤ store.objects.length := by
  induction ids generalizing report store with
  | nil => exact Nat.le_refl _
  | cons id rest ih =>
    simp only [Store.wipeLoop]
    split
    · exact ih report store
    next record found =>
    have smaller := Nat.le_of_lt (drop_record_shrinks found)
    split_ifs
    · exact ih _ store
    · exact Nat.le_refl _
    · exact ensures_mono (ih _ _) (fun _ bound => bound.trans smaller)
        fun _ _ bound => bound.trans smaller

/-- A wipe that stops has changed nothing exactly when the first object it would
remove is the leased one. -/
theorem wipe_loop_stopped (force : Bool) (ids : List String) (report : Store.WipeReport)
    (store : Store) : Ensures (Store.wipeLoop force ids report store) (fun _ => True) fun _ after =>
      (after = store ↔ ∃ record, firstWiped store force ids = some record ∧ 0 < record.leaseRefs) := by
  induction ids generalizing report store with
  | nil => trivial
  | cons id rest ih =>
    simp only [Store.wipeLoop]
    split
    · next found =>
      simpa only [firstWiped, findSome?_cons, found, Option.filter_none] using ih report store
    next record found =>
    split_ifs with skipped leased
    · simpa [firstWiped, findSome?_cons, found, Option.filter, skipped] using ih _ store
    · rw [ensures_error, first_wiped_head found skipped]
      simp [leased]
    -- an object is gone, and a wipe never brings one back
    have smaller := drop_record_shrinks found
    apply ensures_mono (wipe_loop_shrinks force rest _ (store.dropRecord record))
    · exact fun _ _ => trivial
    intro _ after bound
    have changed : after ≠ store := by
      intro same
      subst same
      exact Nat.not_lt_of_le bound smaller
    rw [first_wiped_head found skipped]
    simp [changed, leased]

/-! ### every verb -/

namespace EngineState

variable {machine : Machine}
  {service after : EngineState Digest} {error : ServiceError}

/-- LEASED comes before the first change: a wipe starts at a leased object, a run
has a leased input. The other verbs always look first. -/
def RaisesEarly (service : EngineState Digest) : Call Digest → Prop
  | .wipe _ force => ∃ record,
      firstWiped service.store force service.store.sortedIds = some record ∧ 0 < record.leaseRefs
  | .run request => ∃ entry,
      KeyedTable.lookup ProgramEntry.progId request.progId service.programs = some entry ∧
        (leasedInput service.store request entry.program).isSome = true
  | _ => True

theorem wipe_stopped {scope : String} {force : Bool}
    (raised : service.handle machine (.wipe scope force) = .error (error, after))
    (leased : error.code = .leased) :
    after = service ↔ service.RaisesEarly (.wipe scope force) := by
  simp only [handle, onStore, Store.wipe, Store.resolveScope] at raised
  split_ifs at raised with whole fast
  · have stopped := wipe_loop_stopped force service.store.sortedIds {} service.store
    dsimp only at raised
    cases looped : Store.wipeLoop force service.store.sortedIds {} service.store with
    | ok done =>
      rw [looped] at raised
      cases raised
    | error pair =>
      rw [looped] at raised stopped
      cases raised
      constructor
      · intro same
        exact stopped.mp (congrArg EngineState.store same)
      · intro early
        rw [stopped.mpr early]
        rfl
  · cases raised
  · cases raised
    cases leased

theorem run_stopped {request : RunRequest}
    (raised : service.handle machine (.run request) = .error (error, after))
    (leased : error.code = .leased) : after = service ↔ service.RaisesEarly (.run request) := by
  change service.run machine request = .error (error, after) at raised
  cases known : KeyedTable.lookup ProgramEntry.progId request.progId service.programs with
  | none =>
    simp only [run, known] at raised
    cases raised
    cases leased
  | some entry =>
    cases input : leasedInput service.store request entry.program with
    | some record =>
      simp only [run, known, input] at raised
      cases raised
      simp [RaisesEarly, known, input]
    | none =>
      -- the run was opened, so its number is taken
      have kept : Keeps _ _ (service.run machine request) id := run_keeps known input
      rw [raised] at kept
      have opened := kept.1.nextRun
      have changed : after ≠ service := by
        rintro rfl
        exact Nat.not_succ_le_self _ opened
      simp [RaisesEarly, known, input, changed]

/-- A handler that raises LEASED leaves everything as it was exactly when it raises early. -/
theorem leased_call_unchanged (machine : Machine) (service after : EngineState Digest)
    (call : Call Digest) (error : ServiceError)
    (raised : service.handle machine call = .error (error, after))
    (leased : error.code = .leased) : after = service ↔ service.RaisesEarly call := by
  have taking := handle_effects machine service call
  rw [raised] at taking
  have looking {id : String} (aimed : call.reach = .only id) : after = service := by
    have looks := handle_looks machine service aimed
    rw [raised] at looks
    exact looks.1
  cases call with
  | wipe scope force => exact wipe_stopped raised leased
  | run request => exact run_stopped raised leased
  | snapshot | restoreSnapshot | sendObject =>
    exact iff_of_true ((taking.2.2 leased).2 rfl) trivial
  | _ => exact iff_of_true (looking rfl) trivial

/-- A full slab with two objects, leased as given. -/
def twoObjects (first second : Nat) : EngineState Unit :=
  { store :=
      { slab := fun _ => 0
        allocator := { capacity := 8192, free := [], usedBytes := 8192, peakBytes := 8192 }
        objects :=
          [{ id := "a", sizeBytes := 4, extent := ⟨0, 4096⟩, leaseRefs := first },
           { id := "b", sizeBytes := 4, extent := ⟨4096, 4096⟩, leaseRefs := second }] }
    programs := [{
      progId := "p"
      program :=
        { name := "p"
          initialObjects := [{ id := "a", sizeBytes := 4 }]
          finalLocations := [("b", .backing)] } }] }

/-- An engine that produces the object `b`. -/
def producer : Machine :=
  { prepare := fun _ => .ok ()
    execute := fun _ _ store => ⟨store.slab, store.allocator, .ok [("b", [1, 2, 3, 4])]⟩ }

theorem leased_call_unchanged_first : (twoObjects 1 0).handle producer (.run { progId := "p" }) =
        .error (⟨.leased, "a leased by a snapshot"⟩, twoObjects 1 0) ∧
      (twoObjects 1 0).RaisesEarly (.run { progId := "p" }) :=
  ⟨rfl, (leased_call_unchanged producer (twoObjects 1 0) (twoObjects 1 0)
    (.run { progId := "p" }) ⟨.leased, "a leased by a snapshot"⟩ rfl rfl).mp rfl⟩

/-- With only `b` leased, a wipe raises LEASED after it removed `a`, and a run
after it executed, with its record open and the version of `a` advanced. -/
theorem leased_wipe_and_run_change_state :
    Ensures ((twoObjects 0 1).handle producer (.wipe "all" false)) (fun _ => False)
        (fun error after => error.code = .leased ∧
          after.store.objects.map ObjectRecord.id = ["b"]) ∧
      Ensures ((twoObjects 0 1).handle producer (.run { progId := "p" })) (fun _ => False)
        (fun error after => error.code = .leased ∧
          after.runs.map RunRecord.state = [.running] ∧
          after.store.objects.map ObjectRecord.version = [1, 0]) := by
  decide +kernel

end EngineState

end Dataflow.Service
