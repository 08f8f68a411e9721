import Dataflow.PeerLedger
import Dataflow.SendOrder
import Mathlib.Algebra.Order.Archimedean.Basic
import Mathlib.Data.List.Sort
import Mathlib.Tactic.Linarith

/-!
Sends take turns and end. An event is a call of `start_send`, an incoming message, a
tick or the end of a queued commit. As long as every event comes in turn no event raises,
each queue holds the unfinished sends in start order, and only its head has been
announced. On an infinite run whose ticks advance the clock every send ends: a leading
send loses rank whenever a tick finds it due, and a waiting one cannot wait for ever,
since a tick that finds it overdue does not come in turn.
-/

namespace Dataflow.Peer

open StatefulOutcome ByteRanges Service KeyedTable List

inductive Event where
  | start (now : ℚ) (destId : String) (payload : Bytes) (overwrite : Bool) (info : Info)
  | receive (now : ℚ) (message : Message) (payload : Bytes)
  | tick (now : ℚ)
  | committed (sendId : SendId)

def happen (hub : Hub) : Event → CoreRun Hub
  | .start now destId payload overwrite info =>
    .ok (startSend now destId payload overwrite info hub)
  | .receive now message payload => handle now message payload hub
  | .tick now => tick now hub
  | .committed sendId => .ok (commitDone sendId hub)

/-- No answer comes for a send that waits, an eager RTS carries its bytes, and no tick
finds a waiting send overdue. -/
def InTurn (hub : Hub) : Event → Prop
  | .receive _ (.rts _ _ bytes _ _ eager) payload => eager = true → payload.length = bytes
  | .receive _ (.cts sendId) _ | .receive _ (.addr sendId _ _) _ | .receive _ (.nack sendId _) _
  | .receive _ (.doneAck sendId) _ => ∀ machine ∈ hub.core.sender sendId, hub.core.Leads machine
  | .tick now => Patient now hub
  | _ => True

instance (hub : Hub) : DecidablePred (InTurn hub) := fun event => by
  cases event with
  | receive now message payload => cases message <;> dsimp only [InTurn] <;> infer_instance
  | _ => dsimp only [InTurn]; infer_instance

/-! ### the receiving half -/

section Receivers

variable {hub next : Hub} {machine : ReceiverMachine} {sendId : SendId} {now : ℚ} {payload : Bytes}

section

variable (bounded : Bounded hub)
include bounded

theorem Bounded.of_receivers (same : next.core.receivers = hub.core.receivers) : Bounded next := by
  unfold Bounded
  rw [same]
  exact bounded

end

theorem tick_receivers_bounded (machines : List ReceiverMachine) (bounded : Bounded hub) :
    Bounded (machines.foldl (tickReceiver now) hub) := by
  induction machines generalizing hub with
  | nil => exact bounded
  | cons machine rest ih =>
    apply ih
    rcases tick_receiver_cases now hub machine with same | ⟨_, same⟩
    · exact same.symm ▸ bounded
    · exact same.symm ▸ fun entry mem => bounded entry (mem_of_mem_filter mem)

theorem ReceiverSide.core_eq (side : ReceiverSide hub next) :
    ∃ receivers completed forgotten, next.core = { hub.core with
      receivers := receivers, completed := completed, forgotten := forgotten } :=
  ⟨_, _, _, side.core⟩

theorem ReceiverSide.ordered (side : ReceiverSide hub next) (ordered : Ordered hub) :
    Ordered next := by
  have silent : ∀ sendId, Announced next sendId → Announced hub sendId := by
    rintro sendId ⟨frame, mem, rts⟩
    rcases side.out frame mem with old | reply
    · exact ⟨frame, old, rts⟩
    · obtain ⟨message, payload⟩ := frame
      cases message <;> first | exact reply.elim | cases rts
  obtain ⟨receivers, completed, forgotten, core⟩ := side.core_eq
  rcases next with ⟨peer, conn, rdmaReady, _, env, out, spawned⟩
  subst core
  refine { ordered with waiting := ?waiting, announced := ?announced }
  case waiting =>
    intro machine waits
    obtain ⟨untouched, unannounced⟩ := ordered.waiting machine waits
    exact ⟨untouched, fun told => unannounced (silent machine.sendId told)⟩
  case announced => exact fun sendId told => ordered.announced sendId (silent sendId told)

theorem ReceiverSide.follows (side : ReceiverSide hub next) : Follows hub next := by
  obtain ⟨receivers, completed, forgotten, core⟩ := side.core_eq
  rcases next with ⟨peer, conn, rdmaReady, _, env, out, spawned⟩
  subst core
  exact { Follows.refl hub with }

end Receivers

/-! ### one event -/

section Events

variable {hub next : Hub} {machine : SenderMachine} {sendId : SendId} {now : ℚ} {message : Message}
  {payload : Bytes}

/-- What every event in turn leaves. -/
structure Keeps (hub next : Hub) : Prop where
  ordered : Ordered next
  bounded : Bounded next
  follows : Follows hub next

theorem ReceiverSide.keeps (side : ReceiverSide hub next) (ordered : Ordered hub)
    (bounded : Bounded next) : Keeps hub next :=
  ⟨side.ordered ordered, bounded, side.follows⟩

section

variable (ordered : Ordered hub)
include ordered

theorem answer_keeps (bounded : Bounded hub) (reply : message.IsReply) (sendId : SendId)
    (unknown : hub.core.sender sendId = none → handle now message payload hub = .ok hub)
    (known : ∀ machine, hub.core.sender sendId = some machine →
      Ensures (handle now message payload hub)
        (fun next => next = hub ∨ ∃ machine, Moves machine hub next) fun _ _ => False) :
    Ensures (handle now message payload hub) (Keeps hub) fun _ _ => False := by
  have answered : Ensures (handle now message payload hub)
      (fun next => next = hub ∨ ∃ machine, Moves machine hub next) fun _ _ => False := by
    cases found : hub.core.sender sendId with
    | none => simp [unknown found]
    | some machine => exact known machine found
  apply ensures_mono (ensures_and (handle_reply_sends reply) answered) _ fun _ _ both => both.2
  rintro next ⟨side, rfl | ⟨machine, moves⟩⟩
  · exact ⟨ordered, bounded, .refl next⟩
  · exact ⟨moves.ordered, bounded.of_receivers side.receivers, moves.follows⟩

theorem handle_keeps (bounded : Bounded hub) (inTurn : InTurn hub (.receive now message payload)) :
    Ensures (handle now message payload hub) (Keeps hub) fun _ _ => False := by
  have receives : ¬message.IsReply → message.Carries payload →
      Ensures (handle now message payload hub) (Keeps hub) fun _ _ => False := fun asks carries =>
    ensures_mono (handle_receives asks)
      (fun _ receives => receives.side.keeps ordered (receives.bounded bounded))
      fun _ _ both => both.2 ⟨bounded, carries⟩
  cases message with
  | rts => exact receives id inTurn
  | chunk | done => exact receives id trivial
  | cts sendId | addr sendId =>
    refine answer_keeps ordered bounded trivial sendId (by simp +contextual [handle])
      fun machine found => ?_
    simp only [handle, found, ordered.socket, Bool.false_eq_true, ↓reduceIte]
    split_ifs with cleared
    · exact .inl rfl
    · exact .inr ⟨machine, handle_clearance_moves ordered found (inTurn machine found)
        (by simpa using cleared)⟩
  | nack sendId code =>
    refine answer_keeps ordered bounded trivial sendId (by simp +contextual [handle])
      fun machine found => ?_
    simp only [handle, found]
    exact ensures_mono (handle_nack_moves ordered found (inTurn machine found) code)
      (fun _ moves => .inr ⟨machine, moves⟩) fun _ _ => id
  | doneAck sendId =>
    refine answer_keeps ordered bounded trivial sendId (by simp +contextual [handle])
      fun machine found => ?_
    have key := lookup_key found
    simp only [handle, found]
    exact ensures_mono
      (ordered.finish_moves (key ▸ found) (inTurn machine found) rfl (.inl rfl) none)
      (fun _ moves => .inr ⟨machine, moves⟩) fun _ _ => id

theorem tick_keeps (bounded : Bounded hub) (patient : Patient now hub) :
    Ensures (tick now hub) (fun next => Keeps hub next ∧ Visited now hub [] next)
      fun _ _ => False := by
  refine ensures_bind (ensures_mono (ensures_and (tick_senders ordered patient)
    (tick_senders_sends now hub fun _ => True)) (fun _ both => both) fun _ _ both => both.1) ?_
  rintro ticked ⟨visited, sends⟩
  have kept := bounded.of_receivers sends.receivers
  have side := tick_receivers_side now ticked.core.receivers ticked
  have follows := Follows.trans ordered visited.follows side.follows
  have sorted := side.ordered visited.ordered
  refine ⟨⟨sorted, tick_receivers_bounded _ kept, follows⟩, sorted, follows, ?_, ?_⟩
  · rw [side.core]
    exact visited.seq
  intro machine mem leads due
  rcases visited.moved machine mem leads due with left | moved
  · cases left
  · have known := visited.seq ▸ ordered.issued machine mem
    exact .inr (moved.follows known side.follows)

theorem happen_keeps (bounded : Bounded hub) {event : Event}
    (inTurn : InTurn hub event) : Ensures (happen hub event) (Keeps hub) fun _ _ => False := by
  cases event with
  | start now destId payload overwrite info =>
    obtain ⟨sorted, follows⟩ := start_send_ordered ordered now destId payload overwrite info
    have side : SenderSide (fun _ => True) hub (startSend now destId payload overwrite info hub) :=
      start_send_side
    exact ⟨sorted, bounded.of_receivers side.receivers, follows⟩
  | receive now message payload => exact handle_keeps ordered bounded inTurn
  | tick now =>
    exact ensures_mono (tick_keeps ordered bounded inTurn) (fun _ both => both.1) fun _ _ => id
  | committed sendId =>
    apply ReceiverSide.keeps commit_done_side ordered
    unfold commitDone
    split
    · exact bounded
    · exact fun entry mem => bounded entry (mem_of_mem_filter mem)

end

end Events

/-! ### order -/

def Core.unfinished (core : Core) (sendId : SendId) : Bool :=
  (core.ticketState sendId).any fun state => ¬state.Ended

/-- The unfinished sends to a destination, in start order. -/
def unfinishedTo (dest : String) (core : Core) : List SendId :=
  (core.starts.filter fun start => start.destId = dest && core.unfinished start.sendId).map
    Start.sendId

structure InOrder (hub : Hub) : Prop where
  queues : ∀ dest, hub.core.destQueues dest = unfinishedTo dest hub.core
  announced : ∀ dest, ∀ sendId ∈ hub.core.destQueues dest, Announced hub sendId →
    (hub.core.destQueues dest).head? = some sendId

section Order

variable {hub : Hub} {machine : SenderMachine} {start : Start} {sendId : SendId} {dest : String}

section

variable (ordered : Ordered hub)
include ordered

theorem start_keys :
    hub.core.starts.map Start.sendId = hub.core.tickets.map SenderTicket.sendId := by
  have firsts := congrArg (map Prod.fst) ordered.started
  rw [map_map, map_map] at firsts
  exact firsts.symm

theorem Ordered.start_of (mem : machine ∈ hub.core.senders) :
    ∃ start ∈ hub.core.starts, start.place = machine.place := by
  have listed := ordered.places machine mem
  rw [ordered.started] at listed
  exact mem_map.mp listed

theorem Ordered.unfinished_sender (mem : machine ∈ hub.core.senders) :
    hub.core.unfinished machine.sendId = true := by
  unfold Core.unfinished
  rw [(ordered.phases machine mem).1]
  unfold SenderMachine.phase
  split_ifs <;> decide

theorem Ordered.sender_of_unfinished (open_ : hub.core.unfinished sendId = true) :
    ∃ machine ∈ hub.core.senders, machine.sendId = sendId := by
  unfold Core.unfinished Core.ticketState at open_
  cases found : lookup SenderTicket.sendId sendId hub.core.tickets with
  | none => simp [found] at open_
  | some ticket =>
    have going : ¬ticket.state.Ended := by simpa [found] using open_
    have key := lookup_key found
    rcases ordered.ended ticket (lookup_mem found) with listed | past
    · exact key ▸ mem_map.mp listed
    · exact absurd past going

theorem Ordered.in_order : InOrder hub := by
  have starts := start_keys ordered ▸ ordered.tickets
  have distinct := starts.imp Nat.ne_of_lt
  refine ⟨fun dest => ?_, fun dest sendId listed told => ?_⟩
  · rw [ordered.queues dest]
    have left : (idsTo dest hub.core.senders).Pairwise (· < ·) :=
      ordered.increasing.sublist (filter_sublist.map _)
    have right : (unfinishedTo dest hub.core).Pairwise (· < ·) :=
      starts.sublist (filter_sublist.map _)
    apply left.eq_of_mem_iff right
    intro sendId
    rw [mem_ids_to]
    constructor
    · rintro ⟨machine, mem, place, rfl⟩
      obtain ⟨start, known, same⟩ := ordered.start_of mem
      have sameId : start.sendId = machine.sendId := congrArg Prod.fst same
      have sameDest : start.destId = machine.destId := congrArg Prod.snd same
      have open_ := ordered.unfinished_sender mem
      exact mem_map.mpr ⟨start, mem_filter.mpr ⟨known, by simp [*]⟩, sameId⟩
    intro listed
    obtain ⟨start, kept, rfl⟩ := mem_map.mp listed
    obtain ⟨known, facts⟩ := mem_filter.mp kept
    obtain ⟨place, open_⟩ : start.destId = dest ∧ hub.core.unfinished start.sendId = true := by
      simpa using facts
    obtain ⟨machine, mem, sameId⟩ := ordered.sender_of_unfinished open_
    obtain ⟨again, listed, same⟩ := ordered.start_of mem
    have twin := lookup_unique distinct
      (lookup_of_mem distinct known) listed ((congrArg Prod.fst same).trans sameId)
    rw [twin] at same
    exact ⟨machine, mem, (congrArg Prod.snd same).symm.trans place, sameId⟩
  · have mem := ordered.queues dest ▸ listed
    obtain ⟨machine, inSenders, rfl, rfl⟩ := mem_ids_to.mp mem
    by_contra behind
    exact (ordered.waiting machine ⟨inSenders, behind⟩).2 told

end

/-! ### runs -/

def runEvents (events : List Event) (hub : Hub) : CoreRun Hub := events.foldlM happen hub

/-- Every event of the run comes in turn in the state it meets. -/
def InTurnRun (hub : Hub) : List Event → Prop
  | [] => True
  | event :: rest =>
    InTurn hub event ∧ Ensures (happen hub event) (fun next => InTurnRun next rest) fun _ _ => True

instance decidableInTurnRun : (hub : Hub) → (events : List Event) → Decidable (InTurnRun hub events)
  | _, [] => inferInstanceAs (Decidable True)
  | hub, event :: rest =>
    have := fun next => decidableInTurnRun next rest
    inferInstanceAs (Decidable (_ ∧ Ensures (happen hub event) (fun next => InTurnRun next rest)
      fun _ _ => True))

theorem run_events_ordered (ordered : Ordered hub) (bounded : Bounded hub) (events : List Event)
    (inTurn : InTurnRun hub events) : Ensures (runEvents events hub) Ordered fun _ _ => False := by
  induction events generalizing hub with
  | nil => exact ordered
  | cons event rest ih =>
    unfold runEvents
    have stepped := happen_keeps ordered bounded inTurn.1
    refine ensures_bind (ensures_mono (ensures_and stepped inTurn.2) (fun _ both => both)
      fun _ _ both => both.1) ?_
    rintro next ⟨keeps, later⟩
    exact ih keeps.ordered keeps.bounded later

end Order

/-! ### progress -/

/-- An infinite run: no event raises. -/
structure Course (hub : Hub) (events : ℕ → Event) (hubs : ℕ → Hub) : Prop where
  first : hubs 0 = hub
  steps : ∀ n, happen (hubs n) (events n) = .ok (hubs (n + 1))

/-- Ticks keep coming, and the clock passes every time. -/
def ClockAdvances (events : ℕ → Event) : Prop :=
  ∀ (time : ℚ) (n : ℕ), ∃ m ≥ n, ∃ now ≥ time, events m = .tick now

section Progress

variable {hub : Hub} {events : ℕ → Event} {hubs : ℕ → Hub} {machine : SenderMachine} {n : ℕ}

theorem course_kept (course : Course hub events hubs) (ordered : Ordered hub) (bounded : Bounded hub)
    (inTurn : ∀ n, InTurn (hubs n) (events n)) (n : ℕ) : Ordered (hubs n) ∧ Bounded (hubs n) := by
  induction n with
  | zero => exact course.first ▸ ⟨ordered, bounded⟩
  | succ n ih =>
    have keeps := ensures_of_ok (course.steps n) (happen_keeps ih.1 ih.2 (inTurn n))
    exact ⟨keeps.ordered, keeps.bounded⟩

/-- A run on which every event comes in turn, with what that gives of each state. -/
structure InTurnCourse (events : ℕ → Event) (hubs : ℕ → Hub) : Prop where
  steps : ∀ n, happen (hubs n) (events n) = .ok (hubs (n + 1))
  inTurn : ∀ n, InTurn (hubs n) (events n)
  ordered : ∀ n, Ordered (hubs n)
  bounded : ∀ n, Bounded (hubs n)

theorem InTurnCourse.follows (course : InTurnCourse events hubs) {m : ℕ} (later : n ≤ m) :
    Follows (hubs n) (hubs m) := by
  induction m, later using Nat.le_induction with
  | base => exact .refl _
  | succ m _ ih =>
    have keeps := ensures_of_ok (course.steps m)
      (happen_keeps (course.ordered m) (course.bounded m) (course.inTurn m))
    exact ih.trans (course.ordered n) keeps.follows

theorem SenderMachine.exists_due (machine : SenderMachine) (inactivity : ℚ)
    (awaits : machine.cleared = true → machine.awaitingAckSince ≠ none) :
    ∃ time, ∀ now ≥ time, machine.Due inactivity now := by
  unfold SenderMachine.Due
  split_ifs with cleared backoff
  · obtain ⟨since, waits⟩ := Option.ne_none_iff_exists'.mp (awaits cleared)
    exact ⟨since + inactivity, fun now late => ⟨since, waits, by linarith⟩⟩
  · exact ⟨machine.nextRtsAt, fun now late => late⟩
  · exact ⟨machine.lastProgress + inactivity, fun now late => by linarith⟩

section

variable (course : InTurnCourse events hubs)
include course

theorem InTurnCourse.leading_moves (clock : ClockAdvances events)
    (found : (hubs n).core.sender machine.sendId = some machine)
    (leads : (hubs n).core.Leads machine) : ∃ m ≥ n, Nearer machine (hubs m) := by
  by_contra stuck
  have still : ∀ m ≥ n, (hubs m).core.sender machine.sendId = some machine ∧
      (hubs m).core.Leads machine := by
    intro m later
    rcases (course.follows later).leaders machine found leads with
      gone | ⟨after, sameId, here, front, rfl | closer⟩
    · exact absurd ⟨m, later, .inl gone⟩ stuck
    · exact ⟨here, front⟩
    · exact absurd ⟨m, later, .inr ⟨after, sameId, here, front, closer⟩⟩ stuck
  have awaits := ((course.ordered n).phases machine (lookup_mem found)).2
  obtain ⟨time, due⟩ := machine.exists_due (hubs n).core.config.inactivity awaits
  obtain ⟨m, later, now, late, ticks⟩ := clock time n
  have inTurn := course.inTurn m
  have step := course.steps m
  rw [ticks] at inTurn step
  obtain ⟨here, front⟩ := still m later
  have visited := (ensures_of_ok step (tick_keeps (course.ordered m) (course.bounded m) inTurn)).2
  have same := (course.follows later).config
  rcases visited.moved machine (lookup_mem here) front (same ▸ due now late) with
    left | moved
  · cases left
  · exact stuck ⟨m + 1, Nat.le_succ_of_le later, moved⟩

theorem InTurnCourse.leading_ends (clock : ClockAdvances events) (rank : ℕ) :
    ∀ (machine : SenderMachine) (n : ℕ), machine.rank = rank →
      (hubs n).core.sender machine.sendId = some machine → (hubs n).core.Leads machine →
      ∃ m ≥ n, (hubs m).core.sender machine.sendId = none := by
  induction rank using Nat.strong_induction_on with
  | h rank ih =>
    rintro machine n rfl found leads
    obtain ⟨m, later, gone | ⟨after, sameId, here, front, closer⟩⟩ :=
      course.leading_moves clock found leads
    · exact ⟨m, later, gone⟩
    · obtain ⟨last, after_, gone⟩ := ih after.rank closer after m rfl (sameId ▸ here) front
      exact ⟨last, Nat.le_trans later after_, sameId ▸ gone⟩

/-- A waiting send comes to the head of its queue: a tick that came too late would not come in
turn. -/
theorem InTurnCourse.waiting_leads (clock : ClockAdvances events)
    (waits : (hubs n).core.Waits machine) : ∃ m ≥ n, (hubs m).core.sender machine.sendId = none ∨
      ∃ after, after.sendId = machine.sendId ∧ (hubs m).core.sender machine.sendId = some after ∧
        (hubs m).core.Leads after := by
  by_contra stuck
  have found := lookup_of_mem (course.ordered n).distinct waits.1
  have known := (course.ordered n).issued machine waits.1
  have still : ∀ m ≥ n, (hubs m).core.Waits machine := by
    intro m later
    cases here : (hubs m).core.sender machine.sendId with
    | none => exact absurd ⟨m, later, .inl here⟩ stuck
    | some after =>
      have sameId : after.sendId = machine.sendId := lookup_key here
      have mem := lookup_mem here
      by_cases leads : (hubs m).core.Leads after
      · exact absurd ⟨m, later, .inr ⟨after, sameId, here, leads⟩⟩ stuck
      · have back := (course.follows later).waits after ⟨mem, leads⟩ (sameId ▸ known)
        have same := lookup_unique (course.ordered n).distinct found back.1 sameId
        exact same ▸ ⟨mem, leads⟩
  obtain ⟨m, later, now, late, ticks⟩ :=
    clock (machine.lastProgress + (hubs n).core.config.inactivity) n
  have inTurn := course.inTurn m
  rw [ticks] at inTurn
  have young := inTurn machine (still m later).1 (still m later).2
  rw [(course.follows later).config] at young
  linarith

theorem InTurnCourse.send_ends (clock : ClockAdvances events)
    (found : (hubs n).core.sender machine.sendId = some machine) :
    ∃ m ≥ n, (hubs m).core.sender machine.sendId = none := by
  by_cases leads : (hubs n).core.Leads machine
  · exact course.leading_ends clock _ machine n rfl found leads
  obtain ⟨m, later, gone | ⟨after, sameId, here, front⟩⟩ :=
    course.waiting_leads clock ⟨lookup_mem found, leads⟩
  · exact ⟨m, later, gone⟩
  · obtain ⟨last, after_, gone⟩ := course.leading_ends clock _ after m rfl (sameId ▸ here) front
    exact ⟨last, Nat.le_trans later after_, sameId ▸ gone⟩

end

theorem Ordered.ended_of_gone {sendId : SendId} (ordered : Ordered hub)
    (listed : sendId ∈ hub.core.tickets.map SenderTicket.sendId)
    (gone : hub.core.sender sendId = none) :
    ∃ state, hub.core.ticketState sendId = some state ∧ state.Ended := by
  obtain ⟨ticket, mem, rfl⟩ := mem_map.mp listed
  rcases ordered.ended ticket mem with inSenders | past
  · obtain ⟨machine, there, same⟩ := mem_map.mp inSenders
    exact absurd same (lookup_none.mp gone machine there)
  · refine ⟨ticket.state, ?_, past⟩
    unfold Core.ticketState
    rw [lookup_of_mem ordered.ticket_distinct mem]
    rfl

theorem InTurnCourse.ticket_ends (course : InTurnCourse events hubs) (clock : ClockAdvances events)
    {sendId : SendId} (listed : sendId ∈ (hubs n).core.tickets.map SenderTicket.sendId) :
    ∃ m ≥ n, ∃ state, (hubs m).core.ticketState sendId = some state ∧ state.Ended := by
  have reached : ∃ m ≥ n, (hubs m).core.sender sendId = none := by
    cases found : (hubs n).core.sender sendId with
    | none => exact ⟨n, Nat.le_refl n, found⟩
    | some machine =>
      have key : machine.sendId = sendId := lookup_key found
      exact key ▸ course.send_ends clock (key ▸ found)
  obtain ⟨m, later, gone⟩ := reached
  exact ⟨m, later, (course.ordered m).ended_of_gone
    ((course.follows later).tickets sendId listed) gone⟩

end Progress

/-! ### the whole run -/

/-- A core as it is made: no writer off the socket, nothing started. -/
def Fresh (hub : Hub) : Prop := hub.core = { config := hub.core.config } ∧ hub.out = []

theorem Fresh.ordered {hub : Hub} (fresh : Fresh hub) : Ordered hub := by
  obtain ⟨⟨config, core⟩, out⟩ : (∃ config, hub.core = { config := config }) ∧ hub.out = [] :=
    ⟨⟨_, fresh.1⟩, fresh.2⟩
  constructor <;> simp [core, out, Announced, Core.Waits, idsTo]

theorem Fresh.bounded {hub : Hub} (fresh : Fresh hub) : Bounded hub := by
  intro machine mem
  rw [fresh.1] at mem
  cases mem

/-- Sends to one destination take turns, in the order they were started, and all of them end. -/
theorem sends_in_order {hub : Hub} (fresh : Fresh hub) :
    (∀ events, InTurnRun hub events → ∃ next, runEvents events hub = .ok next ∧ InOrder next) ∧
    ∀ events hubs, Course hub events hubs → (∀ n, InTurn (hubs n) (events n)) →
      ClockAdvances events → ∀ n, ∀ sendId ∈ (hubs n).core.tickets.map SenderTicket.sendId,
        ∃ m ≥ n, ∃ state, (hubs m).core.ticketState sendId = some state ∧ state.Ended := by
  constructor
  · intro events inTurn
    obtain ⟨next, reached, ordered⟩ :=
      exists_ok (run_events_ordered fresh.ordered fresh.bounded events inTurn)
    exact ⟨next, reached, ordered.in_order⟩
  intro events hubs course inTurn clock n sendId listed
  have kept := course_kept course fresh.ordered fresh.bounded inTurn
  have orderly : InTurnCourse events hubs :=
    ⟨course.steps, inTurn, fun n => (kept n).1, fun n => (kept n).2⟩
  exact orderly.ticket_ends clock listed

def quietHub : Hub where
  peer := "b"
  conn := 0
  core := { config := .small 30 }
  env := { store := { slab := fun _ => 0, allocator := { capacity := 1024, free := [⟨0, 1024⟩] } }
           quota := 1024 }

/-- Two sends to one destination; the first is answered in time. -/
def answeredSends : List Event :=
  [.start 0 "x" [1, 2] false [], .start 1 "x" [3] false [], .tick 20,
   .receive 21 (.doneAck 1) [], .tick 40, .receive 41 (.doneAck 2) []]

/-- One send that nobody answers, and a tick every half minute. -/
def silentPeer : ℕ → Event
  | 0 => .start 0 "x" [1, 2] false []
  | n + 1 => .tick (30 * (n + 1))

def startedHub : Hub := startSend 0 "x" [1, 2] false [] quietHub

/-- The first tick ends the send, and later ones find nothing to do. -/
def silentHubs : ℕ → Hub
  | 0 => quietHub
  | 1 => startedHub
  | _ + 2 => reached (happen startedHub (.tick 30))

theorem tick_idle {hub : Hub} (senders : hub.core.senders = []) (receivers : hub.core.receivers = [])
    (now : ℚ) : tick now hub = .ok hub := by
  unfold tick
  rw [senders]
  simp only [map_nil, foldlM_nil, pure_bind, receivers, foldl_nil]
  rfl

theorem silent_ticks_prompt {hub : Hub} (senders : hub.core.senders = []) (now : ℚ) :
    Patient now hub := by
  intro machine mem
  rw [senders] at mem
  cases mem

theorem reached_ok {run : CoreRun Hub} (halts : Ensures run (fun _ => True) fun _ _ => False) :
    run = .ok (reached run) := by
  cases run with
  | ok hub => rfl
  | error pair => exact halts.elim

theorem silent_end : (silentHubs 2).core.senders = [] ∧ (silentHubs 2).core.receivers = [] := by
  decide +kernel

theorem silent_course : Course quietHub silentPeer silentHubs where
  first := rfl
  steps
    | 0 => rfl
    | 1 => by
      have shape : silentPeer 1 = .tick 30 := by norm_num [silentPeer]
      rw [shape]
      exact reached_ok (by decide +kernel)
    | _ + 2 => tick_idle silent_end.1 silent_end.2 _

theorem silent_prompt : ∀ n, InTurn (silentHubs n) (silentPeer n)
  | 0 => trivial
  | 1 => by
    have shape : silentPeer 1 = .tick 30 := by norm_num [silentPeer]
    decide +kernel
  | _ + 2 => silent_ticks_prompt silent_end.1 _

theorem silent_clock : ClockAdvances silentPeer := by
  intro time n
  obtain ⟨bound, large⟩ := exists_nat_ge time
  refine ⟨n + bound + 1, by omega, 30 * ((n + bound : ℕ) + 1), ?_, by simp [silentPeer]⟩
  push_cast
  linarith

theorem sends_in_order_small : InTurnRun quietHub answeredSends ∧
    (∃ next, runEvents answeredSends quietHub = .ok next ∧ InOrder next) ∧
    1 ∈ (silentHubs 1).core.tickets.map SenderTicket.sendId ∧
    ∃ m ≥ 1, ∃ state, (silentHubs m).core.ticketState 1 = some state ∧ state.Ended := by
  have fresh : Fresh quietHub := ⟨rfl, rfl⟩
  have inTurn : InTurnRun quietHub answeredSends := by decide +kernel
  have listed : 1 ∈ (silentHubs 1).core.tickets.map SenderTicket.sendId := by decide +kernel
  obtain ⟨order, ends⟩ := sends_in_order fresh
  exact ⟨inTurn, order answeredSends inTurn, listed,
    ends silentPeer silentHubs silent_course silent_prompt silent_clock 1 1 listed⟩

/-- The first send is refused and asks again while the second waits; the tick that sends
the second RTS of the first also times out the second, which stays in the queue. -/
theorem overdue_send_raises : Fresh quietHub ∧ Ensures (runEvents
      [.start 0 "x" [1, 2] false [], .start 0 "x" [3] false [], .receive 29 (.nack 1 .busy) [],
       .tick 31] quietHub)
      (fun hub => hub.core.destQueues "x" = [1, 2] ∧ hub.core.senders.map (·.sendId) = [1] ∧
        hub.core.ticketState 2 = some .error ∧
        Ensures (happen hub (.receive 32 (.doneAck 1) [])) (fun _ => False)
          fun fault _ => fault = .keyError 2) fun _ _ => False :=
  ⟨⟨rfl, rfl⟩, by decide +kernel⟩

end Dataflow.Peer
