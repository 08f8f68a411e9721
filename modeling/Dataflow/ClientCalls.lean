import Mathlib.Data.List.Nodup

/-!
The calling thread and the reader thread of `EngineClient` (`service/client.py`). Every
locked block, every put into a reply queue, every setting of a ticket and every blocking
wait is one move, so a list of moves is an interleaving of the two threads with any order
of frames. The server names a ticket anew for every request; the model names it by the
request. Calls are made without a timeout.
-/

namespace Dataflow.ClientCalls

open List

variable {Value : Type}

inductive Answer (Value : Type) where
  | inline (result : Value)
  | failed (error : Value)
  | accepted
  deriving DecidableEq

inductive Frame (Value : Type) where
  | reply (rid : Nat) (answer : Answer Value)
  | callDone (rid : Nat) (outcome : Value)
  deriving DecidableEq

/-- What a call returns or raises. -/
inductive Outcome (Value : Type) where
  | reply (answer : Answer Value)
  | done (outcome : Value)
  | closed
  deriving DecidableEq

inductive Reader (Value : Type) where
  | reading
  /-- The reply queue is popped, the reply not yet put into it. -/
  | putting (rid : Nat) (answer : Answer Value)
  /-- The ticket is popped, its outcome not yet set. -/
  | settling (rid : Nat) (outcome : Value)
  /-- End of stream was read and `_closed` is set. -/
  | closing
  | finished
  deriving DecidableEq

inductive Caller where
  | idle
  | checked (wait : Bool)
  | registered (rid : Nat) (wait : Bool)
  /-- Blocked on the reply queue. -/
  | asking (rid : Nat) (wait : Bool)
  | accepted (rid : Nat) (wait : Bool)
  /-- Blocked on the ticket, inside the call or in a later `wait`. -/
  | waiting (rid : Nat) (inCall : Bool)
  deriving DecidableEq

structure Client (Value : Type) where
  closed : Bool := false
  nextId : Nat := 0
  /-- `_replies`: the calls whose queue is registered. -/
  replies : List Nat := []
  /-- What was put into the reply queues; `none` is the reader's farewell. -/
  queues : List (Nat × Option (Answer Value)) := []
  tickets : List Nat := []
  orphans : List (Nat × Value) := []
  /-- The tickets that are done; `none` is the `connection closed` error. -/
  settled : List (Nat × Option Value) := []
  reader : Reader Value := .reading
  caller : Caller := .idle
  -- what happened so far
  sent : List Nat := []
  frames : List (Frame Value) := []
  claimed : List Nat := []
  ended : List (Nat × Outcome Value) := []
  deriving DecidableEq

def Frame.answers : Frame Value → Option Nat
  | .reply rid _ => some rid
  | .callDone _ _ => none

def Frame.completes : Frame Value → Option Nat
  | .reply _ _ => none
  | .callDone rid _ => some rid

/-- The server answers a request it was sent, once, and completes it at most once. -/
def expects (client : Client Value) : Frame Value → Bool
  | .reply rid _ => rid ∈ client.sent ∧ some rid ∉ client.frames.map Frame.answers
  | .callDone rid _ => rid ∈ client.sent ∧ some rid ∉ client.frames.map Frame.completes

inductive Move (Value : Type) where
  | call (wait : Bool)
  | close
  | register
  | send (arrives : Bool)
  | get
  | claim
  | waitOn (rid : Nat)
  | resume
  | read (frame : Frame Value)
  | deliver
  | endOfStream
  | sweep
  deriving DecidableEq

namespace Client

def finish (client : Client Value) (rid : Nat) (outcome : Outcome Value) : Client Value :=
  { client with caller := .idle, ended := (rid, outcome) :: client.ended }

/-- `_call` after the ticket is registered or done: wait for it or return it. -/
def proceed (client : Client Value) (rid : Nat) (wait : Bool) : Client Value :=
  if wait then { client with caller := .waiting rid true }
  else client.finish rid (.reply .accepted)

end Client

/-- One move; `none` when its thread is not there, is blocked, or the frame is not due. -/
def step (client : Client Value) : Move Value → Option (Client Value)
  | .call wait =>
    match client.caller with
    | .idle => some (if client.closed then client else { client with caller := .checked wait })
    | _ => none
  | .close =>
    match client.caller with
    | .idle => some { client with closed := true }
    | _ => none
  | .register =>
    match client.caller with
    | .checked wait => some { client with
        nextId := client.nextId + 1
        replies := (client.nextId + 1) :: client.replies
        caller := .registered (client.nextId + 1) wait }
    | _ => none
  | .send arrives =>
    match client.caller with
    | .registered rid wait => some (
        if arrives then { client with sent := rid :: client.sent, caller := .asking rid wait }
        else { client with caller := .idle })
    | _ => none
  | .get =>
    match client.caller with
    | .asking rid wait => (client.queues.lookup rid).map fun
      | none => client.finish rid .closed
      | some .accepted => { client with caller := .accepted rid wait }
      | some answer => client.finish rid (.reply answer)
    | _ => none
  | .claim =>
    match client.caller with
    | .accepted rid wait => some <|
      match client.orphans.lookup rid with
      | some outcome => Client.proceed { client with
          orphans := client.orphans.filter (·.1 ≠ rid)
          settled := (rid, some outcome) :: client.settled
          claimed := rid :: client.claimed } rid wait
      | none => Client.proceed { client with
          tickets := rid :: client.tickets
          claimed := rid :: client.claimed } rid wait
    | _ => none
  | .waitOn rid =>
    match client.caller with
    | .idle => if rid ∈ client.claimed then some { client with caller := .waiting rid false } else none
    | _ => none
  | .resume =>
    match client.caller with
    | .waiting rid inCall => (client.settled.lookup rid).map fun outcome =>
      if inCall then client.finish rid ((outcome.map .done).getD .closed)
      else { client with caller := .idle }
    | _ => none
  | .read frame =>
    match client.reader with
    | .reading =>
      if expects client frame then
        let noted := { client with frames := frame :: client.frames }
        some <| match frame with
        | .reply rid answer =>
          if rid ∈ client.replies then { noted with
            replies := client.replies.filter (· ≠ rid), reader := .putting rid answer }
          else noted
        | .callDone rid outcome =>
          if rid ∈ client.tickets then { noted with
            tickets := client.tickets.filter (· ≠ rid), reader := .settling rid outcome }
          else { noted with orphans := (rid, outcome) :: client.orphans }
      else none
    | _ => none
  | .deliver =>
    match client.reader with
    | .putting rid answer => some { client with
        queues := (rid, some answer) :: client.queues, reader := .reading }
    | .settling rid outcome => some { client with
        settled := (rid, some outcome) :: client.settled, reader := .reading }
    | _ => none
  | .endOfStream =>
    match client.reader with
    | .reading => some { client with closed := true, reader := .closing }
    | _ => none
  | .sweep =>
    match client.reader with
    | .closing => some { client with
        queues := client.replies.map (·, none) ++ client.queues
        settled := client.settled ++ client.tickets.map (·, none)
        reader := .finished }
    | _ => none

def run (client : Client Value) (moves : List (Move Value)) : Option (Client Value) :=
  moves.foldlM step client

/-- A call registers its queue before the reader's farewell, and its ticket before it too
unless the completion is parked. -/
def Timely (client : Client Value) : Move Value → Prop
  | .register => client.reader ≠ .finished
  | .claim => client.reader = .finished → ∀ rid wait, client.caller = .accepted rid wait →
    ∃ outcome, (rid, outcome) ∈ client.orphans
  | _ => True

def TimelyRun (client : Client Value) : List (Move Value) → Prop
  | [] => True
  | move :: rest => Timely client move ∧ ∀ next, step client move = some next → TimelyRun next rest

def Blocked (client : Client Value) : Prop :=
  match client.caller with
  | .asking rid _ => client.queues.lookup rid = none
  | .waiting rid _ => client.settled.lookup rid = none
  | _ => False

/-! ### the invariant -/

/-- The call in progress and what has happened to it. -/
def Fits (client : Client Value) : Prop :=
  match client.caller with
  | .idle | .checked _ => True
  | .registered rid _ => rid ∈ client.replies ∧ rid ∉ client.sent ∧ rid ≤ client.nextId
  | .asking rid _ => rid ∈ client.sent ∧ rid ∉ client.ended.map (·.1) ∧ rid ∉ client.claimed
  | .accepted rid _ => rid ∈ client.sent ∧ rid ∉ client.ended.map (·.1) ∧ rid ∉ client.claimed ∧
    .reply rid .accepted ∈ client.frames
  | .waiting rid inCall => rid ∈ client.claimed ∧ (inCall = true →
    rid ∈ client.sent ∧ rid ∉ client.ended.map (·.1) ∧ .reply rid .accepted ∈ client.frames)

def Caller.current : Caller → Option Nat
  | .asking rid _ | .accepted rid _ | .waiting rid true => some rid
  | _ => none

def Own (client : Client Value) (rid : Nat) : Outcome Value → Prop
  | .reply answer => .reply rid answer ∈ client.frames
  | .done outcome => .reply rid .accepted ∈ client.frames ∧ .callDone rid outcome ∈ client.frames
  | .closed => client.reader = .finished

structure Sound (client : Client Value) : Prop where
  fits : Fits client
  fresh : ∀ rid ∈ client.sent, rid ≤ client.nextId
  claims : ∀ rid ∈ client.claimed, rid ∈ client.sent
  due : ∀ rid ∈ client.sent, rid ∈ client.replies ∨ ∃ answer, .reply rid answer ∈ client.frames
  swept : client.reader = .finished → ∀ rid ∈ client.replies, (rid, none) ∈ client.queues
  replied : ∀ rid answer, .reply rid answer ∈ client.frames →
    client.reader = .putting rid answer ∨ (rid, some answer) ∈ client.queues
  queued : ∀ rid answer, (rid, some answer) ∈ client.queues → .reply rid answer ∈ client.frames
  farewell : ∀ rid, (rid, none) ∈ client.queues → client.reader = .finished
  putting : ∀ rid answer, client.reader = .putting rid answer → .reply rid answer ∈ client.frames
  completed : ∀ rid outcome, .callDone rid outcome ∈ client.frames →
    (rid, outcome) ∈ client.orphans ∨ client.reader = .settling rid outcome ∨
      (rid, some outcome) ∈ client.settled
  single : ∀ rid outcome other, .callDone rid outcome ∈ client.frames →
    .callDone rid other ∈ client.frames → outcome = other
  parked : ∀ rid outcome, (rid, outcome) ∈ client.orphans →
    .callDone rid outcome ∈ client.frames ∧ rid ∉ client.claimed
  settling : ∀ rid outcome, client.reader = .settling rid outcome →
    .callDone rid outcome ∈ client.frames
  settled : ∀ rid outcome, (rid, some outcome) ∈ client.settled →
    .callDone rid outcome ∈ client.frames
  dropped : ∀ rid, (rid, none) ∈ client.settled → client.reader = .finished
  awaited : ∀ rid ∈ client.claimed, (rid ∈ client.tickets ∧ client.reader ≠ .finished) ∨
    (∃ outcome, client.reader = .settling rid outcome) ∨ ∃ outcome, (rid, outcome) ∈ client.settled
  own : ∀ entry ∈ client.ended, entry.1 ∈ client.sent ∧ Own client entry.1 entry.2
  once : (client.ended.map (·.1)).Nodup
  going : ∀ rid ∈ client.sent, rid ∈ client.ended.map (·.1) ∨ client.caller.current = some rid

attribute [grind] Fits Own Caller.current
attribute [grind →] Sound.fresh Sound.claims Sound.due Sound.swept Sound.replied Sound.queued
  Sound.farewell Sound.putting Sound.completed Sound.single Sound.parked Sound.settling Sound.settled
  Sound.dropped Sound.awaited Sound.going

theorem sound_start : Sound ({} : Client Value) := by
  constructor <;> simp [Fits]

variable {client next : Client Value}

theorem lookup_mem {Key Item : Type} [DecidableEq Key] {table : List (Key × Item)} {key : Key}
    {item : Item} (found : table.lookup key = some item) : (key, item) ∈ table := by
  obtain ⟨before, rest, split, _⟩ := lookup_eq_some_iff.mp found
  simp [split]

theorem Sound.finish (sound : Sound client) {rid : Nat} {outcome : Outcome Value}
    (own : Own client rid outcome) (sent : rid ∈ client.sent)
    (open_ : rid ∉ client.ended.map (·.1)) (current : client.caller.current = some rid) :
    Sound (client.finish rid outcome) := by
  refine { sound with fits := trivial, own := ?_, once := ?_, going := ?_ }
  · exact forall_mem_cons.mpr ⟨⟨sent, own⟩, sound.own⟩
  · exact nodup_cons.mpr ⟨open_, sound.once⟩
  · intro other mem
    grind [Client.finish]

theorem Sound.own_keep (sound : Sound client) (ended : next.ended = client.ended)
    (sent : ∀ rid ∈ client.sent, rid ∈ next.sent)
    (frames : ∀ frame ∈ client.frames, frame ∈ next.frames)
    (last : client.reader = .finished → next.reader = .finished) :
    ∀ entry ∈ next.ended, entry.1 ∈ next.sent ∧ Own next entry.1 entry.2 := by
  rw [ended]
  intro entry mem
  obtain ⟨sure, own⟩ := sound.own entry mem
  refine ⟨sent _ sure, ?_⟩
  cases outcome : entry.2 with
  | reply answer => exact frames _ (by rwa [outcome] at own)
  | done value =>
    rw [outcome] at own
    exact ⟨frames _ own.1, frames _ own.2⟩
  | closed => exact last (by rwa [outcome] at own)

theorem Sound.proceed {rid : Nat} (sound : Sound { client with caller := .waiting rid true })
    (wait : Bool) : Sound (client.proceed rid wait) := by
  obtain ⟨_, open_⟩ := sound.fits
  obtain ⟨sent, unended, accepted⟩ := open_ rfl
  unfold Client.proceed
  split
  · exact sound
  · exact sound.finish accepted sent unended rfl

theorem step_sound {move : Move Value} (sound : Sound client) (timely : Timely client move)
    (stepped : step client move = some next) : Sound next := by
  have fits := sound.fits
  cases move <;> dsimp only [step] at stepped
  case call wait =>
    split at stepped <;> cases stepped
    split
    · exact sound
    · exact { sound with fits := trivial, going := by grind }
  case close =>
    split at stepped <;> cases stepped
    exact { sound with fits := by grind, going := by grind }
  case register =>
    split at stepped <;> cases stepped
    refine { sound with fits := ?_, fresh := ?_, due := ?_, swept := ?_, going := ?_ } <;>
      grind [Timely]
  case send arrives =>
    split at stepped <;> cases stepped
    next rid wait here =>
    split
    · have past : rid ∉ client.ended.map (·.1) := by have := sound.own; grind
      refine { sound with fits := ?_, fresh := ?_, claims := ?_, due := ?_, going := ?_
                          own := sound.own_keep rfl (by grind) (fun _ => id) id } <;> grind
    · exact { sound with fits := trivial, going := by grind }
  case get =>
    split at stepped
    · next rid wait here =>
      obtain ⟨item, found, rfl⟩ := Option.map_eq_some_iff.mp stepped
      have inside := lookup_mem found
      split
      · exact sound.finish (sound.farewell rid inside) (by grind) (by grind) (by grind)
      · exact { sound with fits := by grind, going := by grind }
      · exact sound.finish (sound.queued rid _ inside) (by grind) (by grind) (by grind)
    · cases stepped
  case claim =>
    split at stepped
    · next rid wait here =>
      rw [Option.some.injEq] at stepped
      split at stepped <;> rw [← stepped]
      · next outcome found =>
        have inside := lookup_mem found
        refine Sound.proceed ?_ wait
        refine { sound with fits := ?_, going := ?_, claims := ?_, completed := ?_, parked := ?_
                            settled := ?_, dropped := ?_, awaited := ?_ } <;> grind
      · next missing =>
        refine Sound.proceed ?_ wait
        have unparked : ∀ outcome, (rid, outcome) ∉ client.orphans := by
          have := lookup_eq_none_iff.mp missing
          grind
        refine { sound with fits := ?_, going := ?_, claims := ?_, parked := ?_, awaited := ?_ } <;>
          grind [Timely]
    · cases stepped
  case waitOn rid =>
    split at stepped
    · split at stepped <;> cases stepped
      exact { sound with fits := by grind, going := by grind }
    · cases stepped
  case resume =>
    split at stepped
    · next rid inCall here =>
      obtain ⟨outcome, found, rfl⟩ := Option.map_eq_some_iff.mp stepped
      have inside := lookup_mem found
      split
      · cases outcome with
        | none => exact sound.finish (sound.dropped rid inside) (by grind) (by grind) (by grind)
        | some value => exact sound.finish (by grind) (by grind) (by grind) (by grind)
      · exact { sound with fits := trivial, going := by grind }
    · cases stepped
  case read frame =>
    split at stepped
    · next reading =>
      split at stepped
      · next expected =>
        split at stepped
        · next rid answer =>
          obtain ⟨sent, unanswered⟩ := of_decide_eq_true expected
          have first : ∀ earlier, .reply rid earlier ∉ client.frames :=
            fun earlier mem => unanswered (mem_map_of_mem mem)
          have registered : rid ∈ client.replies := by grind
          rw [if_pos registered] at stepped
          cases stepped
          constructor
          case own => exact sound.own_keep rfl (fun _ => id) (by grind) (by grind)
          case once => exact sound.once
          all_goals grind
        · next rid outcome =>
          obtain ⟨sent, uncompleted⟩ := of_decide_eq_true expected
          have first : ∀ earlier, .callDone rid earlier ∉ client.frames :=
            fun earlier mem => uncompleted (mem_map_of_mem mem)
          have unclaimed : rid ∉ client.tickets → rid ∉ client.claimed := by
            intro unregistered claimed
            rcases sound.awaited rid claimed with ⟨held, _⟩ | busy | ⟨result, done⟩
            · exact unregistered held
            · grind
            · cases result with
              | none => grind
              | some value => exact first value (sound.settled rid value done)
          split at stepped <;> cases stepped <;> constructor
          case isTrue.refl.own | isFalse.refl.own =>
            exact sound.own_keep rfl (fun _ => id) (by grind) (by grind)
          case isTrue.refl.once | isFalse.refl.once => exact sound.once
          all_goals grind
      · cases stepped
    · cases stepped
  case deliver =>
    split at stepped <;> cases stepped <;> constructor
    case h_1.refl.own | h_2.refl.own => exact sound.own_keep rfl (fun _ => id) (fun _ => id) (by grind)
    case h_1.refl.once | h_2.refl.once => exact sound.once
    all_goals grind
  case endOfStream =>
    split at stepped <;> cases stepped
    constructor
    case own => exact sound.own_keep rfl (fun _ => id) (fun _ => id) (by grind)
    case once => exact sound.once
    all_goals grind
  case sweep =>
    split at stepped <;> cases stepped
    have told : ∀ rid ∈ client.tickets,
        (rid, none) ∈ client.settled ++ client.tickets.map (·, none) :=
      fun rid held => mem_append_right _ (mem_map_of_mem held)
    constructor
    case own => exact sound.own_keep rfl (fun _ => id) (fun _ => id) (fun _ => rfl)
    case once => exact sound.once
    all_goals grind

theorem run_sound {moves : List (Move Value)} (sound : Sound client)
    (timely : TimelyRun client moves) (reached : run client moves = some next) : Sound next := by
  induction moves generalizing client with
  | nil => exact Option.some.inj reached ▸ sound
  | cons move rest ih =>
    obtain ⟨middle, stepped, later⟩ := Option.bind_eq_some_iff.mp reached
    exact ih (step_sound sound timely.1 stepped) (timely.2 middle stepped) later

/-! ### delivery -/

/-- The frame the calling thread is blocked for has been read. -/
def Arrived (client : Client Value) : Prop :=
  match client.caller with
  | .asking rid _ => ∃ answer, .reply rid answer ∈ client.frames
  | .waiting rid _ => ∃ outcome, .callDone rid outcome ∈ client.frames
  | _ => True

theorem Sound.unblocked (sound : Sound client)
    (past : client.reader = .finished ∨ client.reader = .reading ∧ Arrived client) :
    ¬ Blocked client := by
  have fits := sound.fits
  unfold Blocked
  unfold Arrived at past
  split
  · next rid wait here =>
    intro empty
    have none := lookup_eq_none_iff.mp empty
    grind
  · next rid inCall here =>
    intro empty
    grind
  · exact not_false

/-- Along a timely run every call that was sent ends at most once, with its own outcome,
unless it is the one in progress; and that one is not left blocked once its frame is
delivered or the reader has said farewell. -/
theorem sent_calls_end_once {moves : List (Move Value)} {client : Client Value}
    (timely : TimelyRun {} moves) (reached : run {} moves = some client) :
    (client.ended.map (·.1)).Nodup ∧
    (∀ entry ∈ client.ended, entry.1 ∈ client.sent ∧ Own client entry.1 entry.2) ∧
    (∀ rid ∈ client.sent, rid ∈ client.ended.map (·.1) ∨ client.caller.current = some rid) ∧
    (client.reader = .finished ∨ client.reader = .reading ∧ Arrived client → ¬ Blocked client) := by
  have sound := run_sound sound_start timely reached
  exact ⟨sound.once, sound.own, sound.going, sound.unblocked⟩

/-- A call whose completion overtakes the registration of its ticket. -/
def overtaken : List (Move Nat) :=
  [.call true, .register, .send true, .read (.callDone 1 7), .read (.reply 1 .accepted), .deliver,
    .get, .endOfStream, .sweep, .claim, .resume]

theorem sent_calls_end_once_overtaken : ∃ client, run {} overtaken = some client ∧
    client.ended = [(1, .done 7)] ∧ ¬ Blocked client := by
  have timely : TimelyRun {} overtaken := by
    iterate 11
      refine ⟨by simp [Timely], ?_⟩
      rintro _ ⟨⟩
    exact trivial
  exact ⟨_, rfl, rfl, (sent_calls_end_once timely rfl).2.2.2 (Or.inl rfl)⟩

/-- A call that passed the check of `_closed` and registers its queue after the reader's
farewell is never woken. -/
theorem late_registration_blocks : ∃ client,
    run ({} : Client Nat) [.call true, .endOfStream, .sweep, .register, .send true] = some client ∧
    ∀ moves next, run client moves = some next → Blocked next := by
  refine ⟨_, rfl, ?_⟩
  intro moves next reached
  cases moves with
  | nil =>
    cases reached
    rfl
  | cons move rest =>
    obtain ⟨middle, stepped, _⟩ := Option.bind_eq_some_iff.mp reached
    cases move <;> cases stepped

end Dataflow.ClientCalls
