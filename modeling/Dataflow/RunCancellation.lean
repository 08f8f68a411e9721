import Dataflow.ServiceVerbs

/-!
`run` on the dispatcher thread and `cancel_run` on connection threads. All runs share the
flag `active_cancel`: a run clears it once and looks at it before each task, on the engine
as in `execute_host_run`; a request reads the record of its run and then sets the flag.
Each of these accesses is one move, so a list of moves is an interleaving.
-/

namespace Dataflow.Cancellation

open List

/-- Where the dispatcher is in the `run` handler, with the tasks that are still to start. -/
inductive Dispatcher where
  | idle
  /-- The record is there; inputs are being bound. -/
  | opened (run tasks : Nat)
  /-- The record says running, the flag is not cleared yet. -/
  | marked (run tasks : Nat)
  | executing (run tasks : Nat)
  /-- The execution has returned, the record does not say so yet. -/
  | closing (run : Nat) (outcome : Service.RunState)
  deriving DecidableEq

inductive Event where
  /-- A request was answered with `cancelling`. -/
  | answered (run : Nat)
  | checked (run : Nat) (found : Bool)
  | ended (run : Nat) (outcome : Service.RunState)
  deriving DecidableEq

/-- Runs are numbered in the order of their records. -/
structure Shared where
  records : List Service.RunState := []
  activeCancel : Bool := false
  dispatcher : Dispatcher := .idle
  /-- Requests that saw their run running and have not set the flag yet. -/
  asking : List Nat := []
  trace : List Event := []
  deriving DecidableEq

inductive Move where
  | submit (tasks : Nat)
  /-- An input is missing or of the wrong size. -/
  | refuse
  | mark
  | clear
  | check
  | stop (failed : Bool)
  | settle
  /-- An exception leaves the handler and the record as they are. -/
  | raise
  | ask (run : Nat)
  | set (index : Nat)
  deriving DecidableEq

namespace Shared

def settle (shared : Shared) (run : Nat) (outcome : Service.RunState) : Shared :=
  { shared with
    dispatcher := .idle
    records := shared.records.set run outcome
    trace := shared.trace ++ [.ended run outcome] }

/-- One move; `none` when its thread is elsewhere. -/
def step (shared : Shared) : Move → Option Shared
  | .submit tasks =>
    match shared.dispatcher with
    | .idle => some { shared with
        records := shared.records ++ [.queued]
        dispatcher := .opened shared.records.length tasks }
    | _ => none
  | .refuse =>
    match shared.dispatcher with
    | .opened run _ => some (shared.settle run .error)
    | _ => none
  | .mark =>
    match shared.dispatcher with
    | .opened run tasks => some { shared with
        records := shared.records.set run .running
        dispatcher := .marked run tasks }
    | _ => none
  | .clear =>
    match shared.dispatcher with
    | .marked run tasks =>
      some { shared with activeCancel := false, dispatcher := .executing run tasks }
    | _ => none
  | .check =>
    match shared.dispatcher with
    | .executing run (tasks + 1) => some { shared with
        dispatcher := if shared.activeCancel then .closing run .cancelled else .executing run tasks
        trace := shared.trace ++ [.checked run shared.activeCancel] }
    | _ => none
  | .stop failed =>
    match shared.dispatcher with
    | .executing run tasks =>
      if failed then some { shared with dispatcher := .closing run .error }
      else if tasks = 0 then some { shared with dispatcher := .closing run .done }
      else none
    | _ => none
  | .settle =>
    match shared.dispatcher with
    | .closing run outcome => some (shared.settle run outcome)
    | _ => none
  | .raise =>
    match shared.dispatcher with
    | .opened _ _ | .executing _ _ | .closing _ .done => some { shared with dispatcher := .idle }
    | _ => none
  | .ask run =>
    if shared.records[run]? = some .running then
      some { shared with asking := shared.asking ++ [run] }
    else some shared
  | .set index =>
    match shared.asking[index]? with
    | some run => some { shared with
        activeCancel := true
        asking := shared.asking.eraseIdx index
        trace := shared.trace ++ [.answered run] }
    | none => none

def run (shared : Shared) (moves : List Move) : Option Shared := moves.foldlM step shared

/-- The flag is not set between the marking of the run and its clearing of the flag, and
not while another run executes. -/
def Timely (shared : Shared) : Move → Prop
  | .set index => ∀ run ∈ shared.asking[index]?,
      (∀ tasks, shared.dispatcher ≠ .marked run tasks) ∧
      ∀ other tasks, shared.dispatcher = .executing other tasks → other = run
  | _ => True

def TimelyRun : Shared → List Move → Prop
  | _, [] => True
  | shared, move :: rest => shared.Timely move ∧ ∀ next ∈ shared.step move, TimelyRun next rest

end Shared

/-! ### what happens is what was asked for -/

def Event.run : Event → Nat
  | .answered run | .checked run _ | .ended run _ => run

def Event.Due (before : List Event) : Event → Prop
  | .answered _ => True
  | .checked run found => (found = true ↔ .answered run ∈ before) ∧ ∀ outcome, .ended run outcome ∉ before
  | .ended run outcome => outcome = .cancelled ↔ .checked run true ∈ before

def Orderly (trace : List Event) : Prop :=
  ∀ before event after, trace = before ++ event :: after → event.Due before

theorem Orderly.snoc {trace : List Event} {event : Event} (orderly : Orderly trace)
    (due : event.Due trace) : Orderly (trace ++ [event]) := by
  intro before other after split
  rcases eq_nil_or_concat after with rfl | ⟨rest, last, rfl⟩
  · obtain ⟨rfl, same⟩ := append_inj' split rfl
    cases same
    exact due
  · rw [concat_eq_append, ← cons_append, ← append_assoc] at split
    exact orderly before other rest (append_inj' split rfl).1

def Fresh (trace : List Event) (run : Nat) : Prop := ∀ event ∈ trace, event.run ≠ run

theorem fresh_append {trace : List Event} {event : Event} {run : Nat} :
    Fresh (trace ++ [event]) run ↔ Fresh trace run ∧ event.run ≠ run := by
  simp [Fresh, or_imp, forall_and]

def Dispatcher.Fits (shared : Shared) : Dispatcher → Prop
  | .idle => True
  | .opened run _ => shared.records[run]? = some .queued ∧ run ∉ shared.asking ∧ Fresh shared.trace run
  | .marked run _ => run < shared.records.length ∧ Fresh shared.trace run
  | .executing run _ => run < shared.records.length ∧
      (shared.activeCancel = true ↔ .answered run ∈ shared.trace) ∧
      .checked run true ∉ shared.trace ∧ ∀ outcome, .ended run outcome ∉ shared.trace
  | .closing run outcome => run < shared.records.length ∧
      (outcome = .cancelled ↔ .checked run true ∈ shared.trace)

structure Sound (shared : Shared) : Prop where
  orderly : Orderly shared.trace
  named : ∀ event ∈ shared.trace, event.run < shared.records.length
  asked : ∀ run ∈ shared.asking, run < shared.records.length
  fits : shared.dispatcher.Fits shared

attribute [local grind] Event.Due Event.run Fresh Dispatcher.Fits
attribute [local grind =] fresh_append
attribute [local grind →] Sound.orderly Sound.named Sound.asked Sound.fits Orderly.snoc

variable {shared next : Shared}

theorem Sound.settle {run : Nat} {outcome : Service.RunState} (sound : Sound shared)
    (inside : run < shared.records.length)
    (due : outcome = .cancelled ↔ .checked run true ∈ shared.trace) :
    Sound (shared.settle run outcome) where
  orderly := sound.orderly.snoc due
  named := by grind [Shared.settle]
  asked := by grind [Shared.settle]
  fits := trivial

theorem Sound.step {move : Move} (sound : Sound shared) (timely : shared.Timely move)
    (stepped : shared.step move = some next) : Sound next := by
  have fits := sound.fits
  cases move with dsimp only [Shared.step] at stepped
  | submit tasks =>
    split at stepped <;> cases stepped
    exact { sound with named := by grind, asked := by grind, fits := by grind }
  | refuse =>
    split at stepped <;> cases stepped
    exact sound.settle (by grind) (by grind)
  | mark =>
    split at stepped <;> cases stepped
    exact { sound with named := by grind, asked := by grind, fits := by grind }
  | clear =>
    split at stepped <;> cases stepped
    exact { sound with fits := by grind }
  | check =>
    split at stepped <;> cases stepped
    exact ⟨sound.orderly.snoc (by grind), by grind, sound.asked, by grind⟩
  | stop failed =>
    split at stepped <;> try split at stepped
    all_goals try split at stepped
    all_goals cases stepped
    all_goals exact { sound with fits := by grind }
  | settle =>
    split at stepped <;> cases stepped
    exact sound.settle (by grind) (by grind)
  | raise =>
    split at stepped <;> cases stepped <;> exact { sound with fits := trivial }
  | ask run =>
    split at stepped <;> cases stepped
    · exact { sound with asked := by grind, fits := by cases at_ : shared.dispatcher <;> grind }
    · exact sound
  | set index =>
    split at stepped <;> cases stepped
    rename_i run found
    have listed := mem_of_getElem? found
    have removed := @mem_of_mem_eraseIdx Nat shared.asking index
    have kept := timely run found
    exact ⟨sound.orderly.snoc trivial, by grind, by grind,
      by cases at_ : shared.dispatcher <;> grind⟩

theorem Sound.run {moves : List Move} (sound : Sound shared) (timely : shared.TimelyRun moves)
    (ran : shared.run moves = some next) : Sound next := by
  induction moves generalizing shared with
  | nil =>
    cases ran
    exact sound
  | cons move rest ih =>
    rw [Shared.run, foldlM_cons, Option.bind_eq_bind, Option.bind_eq_some_iff] at ran
    obtain ⟨middle, stepped, ran⟩ := ran
    exact ih (sound.step timely.1 stepped) (timely.2 middle stepped) ran

/-- A run that is answered with `cancelling` ends as cancelled or had made its last check,
and a run that ends as cancelled was asked to. -/
theorem cancellation_precise (moves : List Move) (timely : ({} : Shared).TimelyRun moves) :
    ∀ shared ∈ ({} : Shared).run moves,
      (∀ before run after outcome, shared.trace = before ++ .answered run :: after →
        .ended run outcome ∈ after → outcome = .cancelled ∨ ∀ found, .checked run found ∉ after) ∧
      ∀ before run after, shared.trace = before ++ .ended run .cancelled :: after →
        .answered run ∈ before := by
  intro shared ran
  have boot : Sound {} := ⟨by simp [Orderly], by simp, by simp, trivial⟩
  have orderly := (boot.run timely ran).orderly
  constructor
  · intro before run after outcome split ended
    refine or_iff_not_imp_right.mpr fun checks => ?_
    obtain ⟨found, checked⟩ := not_forall_not.mp checks
    obtain ⟨first, last, rfl⟩ := append_of_mem checked
    have due := orderly (before ++ .answered run :: first) (.checked run found) last (by simp [split])
    -- the check comes first, or it would be a check of an ended run
    have later : .ended run outcome ∈ last := by grind
    obtain ⟨middle, rest, rfl⟩ := append_of_mem later
    have closed := orderly (before ++ .answered run :: (first ++ .checked run found :: middle))
      (.ended run outcome) rest (by simp [split])
    grind
  · intro before run after split
    have checked := (orderly before _ after split).mp rfl
    obtain ⟨first, rest, rfl⟩ := append_of_mem checked
    have due := orderly first (.checked run true) (rest ++ .ended run .cancelled :: after)
      (by simp [split])
    exact mem_append_left _ (due.1.mp rfl)

theorem cancellation_precise_second_task :
    ∃ shared ∈ ({} : Shared).run [.submit 2, .mark, .clear, .check, .ask 0, .set 0, .check, .settle],
      shared.records = [.cancelled] ∧
        .answered 0 ∈ [Event.checked 0 false, .answered 0, .checked 0 true] := by
  have timely : ({} : Shared).TimelyRun
      [.submit 2, .mark, .clear, .check, .ask 0, .set 0, .check, .settle] := by
    iterate 5 (refine ⟨trivial, ?_⟩; rintro _ ⟨⟩)
    refine ⟨?_, ?_⟩
    · rintro _ ⟨⟩
      exact ⟨nofun, fun other tasks same => by cases same; rfl⟩
    rintro _ ⟨⟩
    iterate 2 (refine ⟨trivial, ?_⟩; rintro _ ⟨⟩)
    trivial
  obtain ⟨shared, ran, records, trace⟩ : ∃ shared ∈ ({} : Shared).run
      [.submit 2, .mark, .clear, .check, .ask 0, .set 0, .check, .settle],
      shared.records = [.cancelled] ∧ shared.trace =
        [.checked 0 false, .answered 0, .checked 0 true] ++ .ended 0 .cancelled :: [] :=
    ⟨_, rfl, rfl, rfl⟩
  exact ⟨shared, ran, records, (cancellation_precise _ timely shared ran).2 _ 0 [] trace⟩

/-- A request that is answered between the marking and the clearing is forgotten; one that
sets the flag after its run has ended cancels the next run. -/
theorem cancel_lost_or_misdirected :
    (({} : Shared).run [.submit 1, .mark, .ask 0, .set 0, .clear, .check, .stop false, .settle]).map
        Shared.trace = some [.answered 0, .checked 0 false, .ended 0 .done] ∧
      (({} : Shared).run [.submit 0, .mark, .clear, .ask 0, .stop false, .settle,
          .submit 1, .mark, .clear, .set 0, .check, .settle]).map Shared.trace =
        some [.ended 0 .done, .answered 0, .checked 1 true, .ended 1 .cancelled] := by
  decide

end Dataflow.Cancellation
