import Dataflow.PeerFrames

/-!
The queue of sends to each destination. A send leads when it is the head of its
destination's queue, and waits otherwise. Only the leading send of a queue is opened,
answered and finished, as long as no tick comes so late that it times out a send that
is still waiting, and no answer comes for one.
-/

namespace Dataflow.Peer

open StatefulOutcome ByteRanges Service KeyedTable List

/-! ### queues -/

def idsTo (dest : String) (senders : List SenderMachine) : List SendId :=
  (senders.filter fun machine => machine.destId = dest).map SenderMachine.sendId

def Core.Leads (core : Core) (machine : SenderMachine) : Prop :=
  (core.destQueues machine.destId).head? = some machine.sendId

instance (core : Core) (machine : SenderMachine) : Decidable (core.Leads machine) :=
  inferInstanceAs (Decidable (_ = _))

def Core.Leading (core : Core) (sendId : SendId) : Prop :=
  ∃ machine ∈ core.sender sendId, core.Leads machine

def Core.Waits (core : Core) (machine : SenderMachine) : Prop :=
  machine ∈ core.senders ∧ ¬core.Leads machine

def Message.rtsOf : Message → Option SendId
  | .rts sendId _ _ _ _ _ => some sendId
  | _ => none

def Announced (hub : Hub) (sendId : SendId) : Prop :=
  ∃ frame ∈ hub.out, frame.1.rtsOf = some sendId

def SenderMachine.Untouched (machine : SenderMachine) : Prop :=
  machine.tries = 0 ∧ machine.nextRtsAt = 0 ∧ machine.awaitingAckSince = none ∧
    machine.cleared = false ∧ machine.doneResends = 0

def SenderMachine.phase (machine : SenderMachine) : TransferState :=
  if machine.cleared then .committing else .negotiating

def TransferState.Ended (state : TransferState) : Prop := state = .done ∨ state = .error

instance (state : TransferState) : Decidable state.Ended := inferInstanceAs (Decidable (_ ∨ _))

def SenderTicket.place (ticket : SenderTicket) : SendId × String := (ticket.sendId, ticket.destId)

def Start.place (start : Start) : SendId × String := (start.sendId, start.destId)

def SenderMachine.place (machine : SenderMachine) : SendId × String :=
  (machine.sendId, machine.destId)

structure Ordered (hub : Hub) : Prop where
  socket : hub.core.rdmaWriter = false
  increasing : (hub.core.senders.map SenderMachine.sendId).Pairwise (· < ·)
  issued : ∀ machine ∈ hub.core.senders, machine.sendId ≤ hub.core.seq
  queues : ∀ dest, hub.core.destQueues dest = idsTo dest hub.core.senders
  waiting : ∀ machine, hub.core.Waits machine →
    machine.Untouched ∧ ¬Announced hub machine.sendId
  announced : ∀ sendId, Announced hub sendId → sendId ≤ hub.core.seq
  tickets : (hub.core.tickets.map SenderTicket.sendId).Pairwise (· < ·)
  started : hub.core.tickets.map SenderTicket.place = hub.core.starts.map Start.place
  places : ∀ machine ∈ hub.core.senders, machine.place ∈ hub.core.tickets.map SenderTicket.place
  numbered : ∀ ticket ∈ hub.core.tickets, ticket.sendId ≤ hub.core.seq
  phases : ∀ machine ∈ hub.core.senders,
    hub.core.ticketState machine.sendId = some machine.phase ∧
      (machine.cleared = true → machine.awaitingAckSince ≠ none)
  ended : ∀ ticket ∈ hub.core.tickets,
    ticket.sendId ∈ hub.core.senders.map SenderMachine.sendId ∨ ticket.state.Ended

/-- What a step on the leading send of one queue does to everyone else. -/
structure Turns (sendId : SendId) (hub next : Hub) : Prop where
  config : next.core.config = hub.core.config
  seq : next.core.seq = hub.core.seq
  places : next.core.tickets.map SenderTicket.place = hub.core.tickets.map SenderTicket.place
  waits : ∀ machine, next.core.Waits machine → hub.core.Waits machine
  leaders : ∀ other, other ≠ sendId → hub.core.Leading other →
    next.core.sender other = hub.core.sender other ∧ next.core.Leading other
  own : next.core.sender sendId = none ∨ next.core.Leading sendId
  absent : ∀ other, other ≠ sendId → hub.core.sender other = none → next.core.sender other = none

section Queues

variable {hub next : Hub} {core : Core} {machine after other : SenderMachine} {sendId : SendId}
  {dest : String} {senders : List SenderMachine} {now : ℚ}

theorem leads_congr (queues : next.core.destQueues = hub.core.destQueues) :
    next.core.Leads machine ↔ hub.core.Leads machine := by
  unfold Core.Leads
  rw [queues]

theorem Ordered.distinct (ordered : Ordered hub) :
    (hub.core.senders.map SenderMachine.sendId).Nodup :=
  ordered.increasing.imp Nat.ne_of_lt

theorem ids_to_cons (machine : SenderMachine) (senders : List SenderMachine) (dest : String) :
    idsTo dest (machine :: senders) =
      if machine.destId = dest then machine.sendId :: idsTo dest senders else idsTo dest senders := by
  by_cases same : machine.destId = dest <;> simp [idsTo, same]

theorem ids_to_append (machine : SenderMachine) (senders : List SenderMachine) (dest : String) :
    idsTo dest (senders ++ [machine]) =
      if machine.destId = dest then idsTo dest senders ++ [machine.sendId] else idsTo dest senders := by
  by_cases same : machine.destId = dest <;> simp [idsTo, same]

theorem mem_ids_to : sendId ∈ idsTo dest senders ↔
    ∃ machine ∈ senders, machine.destId = dest ∧ machine.sendId = sendId := by
  simp [idsTo, and_assoc]

theorem ids_to_update (keyed : after.sendId = sendId)
    (same : ∀ machine ∈ senders, machine.sendId = sendId → machine.destId = after.destId) :
    idsTo dest (update SenderMachine.sendId sendId (fun _ => after) senders) =
      idsTo dest senders := by
  induction senders with
  | nil => rfl
  | cons head tail ih =>
    have rest := ih (forall_mem_cons.mp same).2
    have here := same head mem_cons_self
    simp only [update, map_cons] at rest ⊢
    rw [ids_to_cons, ids_to_cons, rest]
    by_cases hit : head.sendId = sendId
    · simp only [hit, ↓reduceIte, keyed, here hit]
    · simp only [hit, ↓reduceIte]

variable {rest : List SendId}

theorem ids_to_remove (increasing : (senders.map SenderMachine.sendId).Pairwise (· < ·))
    (queue : idsTo dest senders = sendId :: rest) :
    idsTo dest (remove SenderMachine.sendId sendId senders) = rest := by
  induction senders with
  | nil => cases queue
  | cons head tail ih =>
    rw [map_cons, pairwise_cons] at increasing
    rw [ids_to_cons] at queue
    split_ifs at queue with here
    · cases queue
      have absent : head.sendId ∉ tail.map SenderMachine.sendId := fun listed =>
        Nat.lt_irrefl _ (increasing.1 head.sendId listed)
      rw [remove_cons_self rfl, remove_unlisted absent]
    have listed := queue ▸ mem_cons_self
    obtain ⟨machine, mem, _, same⟩ := mem_ids_to.mp listed
    have miss := Nat.ne_of_lt (same ▸ increasing.1 machine.sendId (mem_map_of_mem mem))
    rw [remove_cons_other miss, ids_to_cons, if_neg here]
    exact ih increasing.2 queue

theorem ids_to_remove_other {removed : SenderMachine}
    (distinct : (senders.map SenderMachine.sendId).Nodup) (mem : removed ∈ senders)
    (ne : removed.destId ≠ dest) :
    idsTo dest (remove SenderMachine.sendId removed.sendId senders) = idsTo dest senders := by
  have found := lookup_of_mem distinct mem
  unfold idsTo remove
  rw [filter_filter]
  congr 1
  apply filter_congr
  intro machine listed
  by_cases same : machine.sendId = removed.sendId
  · rw [lookup_unique distinct found listed same]
    simp [ne]
  · simp [same]

/-! ### the leading send is rewritten -/

/-- The leading machine is written in place; a frame it sends may announce it. -/
structure Rewrites (sendId : SendId) (after : SenderMachine) (hub next : Hub) : Prop where
  config : next.core.config = hub.core.config
  socket : next.core.rdmaWriter = hub.core.rdmaWriter
  senders : next.core.senders =
    update SenderMachine.sendId sendId (fun _ => after) hub.core.senders
  queues : next.core.destQueues = hub.core.destQueues
  seq : next.core.seq = hub.core.seq
  starts : next.core.starts = hub.core.starts
  out : ∀ frame ∈ next.out, frame ∈ hub.out ∨ frame.1.rtsOf = none ∨ frame.1.rtsOf = some sendId
  places : next.core.tickets.map SenderTicket.place = hub.core.tickets.map SenderTicket.place
  tickets : ∀ ticket ∈ next.core.tickets, ticket.sendId ≠ sendId → ticket ∈ hub.core.tickets
  phase : next.core.ticketState sendId = some after.phase ∧
    (after.cleared = true → after.awaitingAckSince ≠ none)

theorem ticket_keys
    (places : next.core.tickets.map SenderTicket.place = hub.core.tickets.map SenderTicket.place) :
    next.core.tickets.map SenderTicket.sendId = hub.core.tickets.map SenderTicket.sendId := by
  have firsts := congrArg (map Prod.fst) places
  rwa [map_map, map_map] at firsts

theorem Ordered.ticket_distinct (ordered : Ordered hub) :
    (hub.core.tickets.map SenderTicket.sendId).Nodup :=
  ordered.tickets.imp Nat.ne_of_lt

theorem ticket_state_kept (ordered : Ordered hub)
    (places : next.core.tickets.map SenderTicket.place = hub.core.tickets.map SenderTicket.place)
    (kept : ∀ ticket ∈ next.core.tickets, ticket.sendId ≠ sendId → ticket ∈ hub.core.tickets)
    {other : SendId} (ne : other ≠ sendId) :
    next.core.ticketState other = hub.core.ticketState other := by
  unfold Core.ticketState
  congr 1
  cases found : lookup SenderTicket.sendId other next.core.tickets with
  | some ticket =>
    have key := lookup_key found
    have listed := kept ticket (lookup_mem found) (key ▸ ne)
    exact (key ▸ lookup_of_mem ordered.ticket_distinct listed).symm
  | none =>
    symm
    apply lookup_none.mpr
    intro ticket mem same
    have listed : other ∈ next.core.tickets.map SenderTicket.sendId :=
      ticket_keys places ▸ same ▸ mem_map_of_mem mem
    obtain ⟨renewed, inNext, key⟩ := mem_map.mp listed
    exact lookup_none.mp found renewed inNext key

theorem Ordered.rewrite (ordered : Ordered hub) (found : hub.core.sender sendId = some machine)
    (leads : hub.core.Leads machine) (key : after.sendId = sendId)
    (place : after.destId = machine.destId) (writes : Rewrites sendId after hub next) :
    Ordered next ∧ Turns sendId hub next ∧ next.core.sender sendId = some after := by
  have place' : ∀ entry ∈ hub.core.senders, entry.sendId = sendId → entry.destId = after.destId := by
    intro entry mem same
    rw [lookup_unique ordered.distinct found mem same, place]
  have named := lookup_key found
  have listed := lookup_mem found
  have leadsAfter : next.core.Leads after := by
    rw [leads_congr writes.queues]
    unfold Core.Leads at leads ⊢
    rw [place, key, leads, named]
  have here : next.core.sender sendId = some after := by
    unfold Core.sender
    rw [writes.senders]
    exact lookup_write_self key found
  have others : ∀ other, other ≠ sendId → next.core.sender other = hub.core.sender other := by
    intro other ne
    unfold Core.sender
    rw [writes.senders]
    exact lookup_write_other key ne
  have waits : ∀ entry, next.core.Waits entry → hub.core.Waits entry := by
    rintro entry ⟨mem, behind⟩
    rw [writes.senders] at mem
    rcases mem_update mem with rfl | ⟨old, _⟩
    · exact absurd leadsAfter behind
    · exact ⟨old, fun leads => behind ((leads_congr writes.queues).mpr leads)⟩
  have fresh : ∀ other, other ≠ sendId → Announced next other → Announced hub other := by
    rintro other ne ⟨frame, mem, rts⟩
    rcases writes.out frame mem with old | none | own
    · exact ⟨frame, old, rts⟩
    · rw [none] at rts
      cases rts
    · rw [own] at rts
      exact absurd (Option.some.inj rts).symm ne
  refine ⟨⟨?socket, ?increasing, ?issued, ?queues, ?waiting, ?announced, ?tickets, ?started,
    ?places, ?numbered, ?phases, ?ended⟩, ⟨writes.config, writes.seq, writes.places, waits,
    ?leaders, .inr ⟨after, here, leadsAfter⟩, fun other ne => (others other ne).trans⟩, here⟩
  case socket => exact writes.socket.trans ordered.socket
  case increasing =>
    rw [writes.senders, keys_write key]
    exact ordered.increasing
  case issued =>
    rw [writes.senders, writes.seq]
    exact forall_mem_write ordered.issued (key ▸ named ▸ ordered.issued machine listed)
  case queues =>
    intro dest
    rw [writes.queues, writes.senders, ids_to_update key place']
    exact ordered.queues dest
  case waiting =>
    intro entry behind
    have before := waits entry behind
    obtain ⟨untouched, silent⟩ := ordered.waiting entry before
    refine ⟨untouched, fun told => silent (fresh entry.sendId ?_ told)⟩
    intro same
    apply before.2
    rw [lookup_unique ordered.distinct found before.1 same]
    exact leads
  case announced =>
    intro other told
    rw [writes.seq]
    by_cases same : other = sendId
    · exact same ▸ named ▸ ordered.issued machine listed
    · exact ordered.announced other (fresh other same told)
  case tickets =>
    rw [ticket_keys writes.places]
    exact ordered.tickets
  case started => rw [writes.places, writes.starts, ordered.started]
  case places =>
    have same : after.place = machine.place := Prod.ext (key.trans named.symm) place
    rw [writes.senders, writes.places]
    exact forall_mem_write ordered.places (same ▸ ordered.places machine listed)
  case numbered =>
    intro ticket mem
    have listed := ticket_keys writes.places ▸ mem_map_of_mem mem
    obtain ⟨old, inOld, same⟩ := mem_map.mp listed
    rw [writes.seq, ← same]
    exact ordered.numbered old inOld
  case phases =>
    intro entry mem
    rw [writes.senders] at mem
    rcases mem_update mem with rfl | ⟨old, ne⟩
    · rw [key]
      exact writes.phase
    · rw [ticket_state_kept ordered writes.places writes.tickets ne]
      exact ordered.phases entry old
  case ended =>
    intro ticket mem
    rw [writes.senders, keys_write key]
    by_cases same : ticket.sendId = sendId
    · left
      rw [same, ← named]
      exact mem_map_of_mem listed
    · exact ordered.ended ticket (writes.tickets ticket mem same)
  case leaders =>
    rintro other ne ⟨entry, there, first⟩
    have kept := others other ne
    exact ⟨kept, entry, kept ▸ there, (leads_congr writes.queues).mpr first⟩

theorem set_sender_rewrites (after : SenderMachine)
    (phase : hub.core.ticketState after.sendId = some after.phase)
    (awaits : after.cleared = true → after.awaitingAckSince ≠ none) :
    Rewrites after.sendId after hub (hub.setCore (hub.core.setSender after)) where
  config := rfl
  socket := rfl
  senders := rfl
  queues := rfl
  seq := rfl
  starts := rfl
  out := fun _ => .inl
  places := rfl
  tickets := fun _ mem _ => mem
  phase := ⟨phase, awaits⟩

theorem Rewrites.send (writes : Rewrites sendId after hub next) {message : Message}
    (own : message.rtsOf = none ∨ message.rtsOf = some sendId) (payload : Bytes) :
    Rewrites sendId after hub (next.send message payload) :=
  { writes with out := forall_mem_concat writes.out (.inr own) }

theorem open_send_rewrites (now : ℚ) (after : SenderMachine)
    (phases : hub.core.ticketState after.sendId = some after.phase) (open_ : after.cleared = false) :
    ∃ opened : SenderMachine,
      opened.sendId = after.sendId ∧ opened.destId = after.destId ∧ opened.tries = after.tries ∧
        opened.nextRtsAt = after.nextRtsAt ∧ opened.cleared = false ∧
        Rewrites after.sendId opened hub (openSend now after hub) := by
  have closed : after.cleared = true → after.awaitingAckSince ≠ none := by simp [open_]
  unfold openSend
  simp only
  split_ifs
  · let opened := { after with lastProgress := now, awaitingAckSince := some now }
    exact ⟨opened, rfl, rfl, rfl, rfl, open_,
      (set_sender_rewrites opened phases fun _ => Option.some_ne_none now).send (.inr rfl) _⟩
  · let opened := { after with lastProgress := now }
    exact ⟨opened, rfl, rfl, rfl, rfl, open_,
      (set_sender_rewrites opened phases closed).send (.inr rfl) _⟩

variable {change : SenderTicket → SenderTicket}

theorem mem_set_ticket_other (keeps : ∀ ticket, (change ticket).sendId = ticket.sendId) :
    ∀ ticket ∈ (core.setTicket sendId change).tickets, ticket.sendId ≠ sendId →
      ticket ∈ core.tickets := by
  intro ticket mem ne
  obtain ⟨old, listed, rfl⟩ := mem_map.mp mem
  split_ifs at ne ⊢ with hit
  · exact absurd ((keeps old).trans hit) ne
  · exact listed

variable {state : TransferState}

theorem set_ticket_state (keeps : ∀ ticket, (change ticket).sendId = ticket.sendId)
    (sets : ∀ ticket, (change ticket).state = state) (known : core.ticketState sendId ≠ none) :
    (core.setTicket sendId change).ticketState sendId = some state := by
  unfold Core.ticketState Core.setTicket at *
  rw [lookup_update_self keeps]
  cases found : lookup SenderTicket.sendId sendId core.tickets with
  | none =>
    rw [found] at known
    exact absurd rfl known
  | some ticket => simp [sets]

theorem set_ticket_places (keeps : ∀ ticket, (change ticket).place = ticket.place) :
    (core.setTicket sendId change).tickets.map SenderTicket.place =
      core.tickets.map SenderTicket.place := by
  unfold Core.setTicket update
  rw [map_map]
  apply map_congr_left
  intro ticket _
  by_cases hit : ticket.sendId = sendId <;> simp [hit, keeps]

theorem chunk_frames_plain {chunk : Nat} {payload : Bytes} :
    ∀ frame ∈ chunkFrames chunk sendId payload, frame.1.rtsOf = none := by
  intro frame mem
  unfold chunkFrames at mem
  split_ifs at mem
  · rw [mem_singleton.mp mem]
    rfl
  · obtain ⟨_, _, rfl⟩ := mem_map.mp mem
    rfl

theorem clearance_rewrites (known : hub.core.ticketState machine.sendId ≠ none) :
    Rewrites machine.sendId { machine with
      cleared := true, awaitingAckSince := some now, lastProgress := now } hub
      (handleClearance now machine hub) where
  config := rfl
  socket := rfl
  senders := rfl
  queues := rfl
  seq := rfl
  starts := rfl
  out := by
    intro frame mem
    rcases mem_append.mp mem with streamed | done
    · rcases mem_append.mp streamed with old | chunk
      · exact .inl old
      · exact .inr (.inl (chunk_frames_plain frame chunk))
    · rw [mem_singleton.mp done]
      exact .inr (.inl rfl)
  places := set_ticket_places fun _ => rfl
  tickets := mem_set_ticket_other fun _ => rfl
  phase := ⟨set_ticket_state (fun _ => rfl) (fun _ => rfl) known, fun _ => Option.some_ne_none now⟩

/-! ### the leading send is finished -/

theorem Ordered.sender_phase (ordered : Ordered hub) (found : hub.core.sender sendId = some machine) :
    hub.core.ticketState sendId = some machine.phase := by
  rw [← show machine.sendId = sendId from lookup_key found]
  exact (ordered.phases machine (lookup_mem found)).1

/-- The hub once the leading send is off its queue. -/
def shortened (machine : SenderMachine) (state : TransferState) (error : Option String)
    (rest : List SendId) (hub : Hub) : Hub :=
  let core := hub.core.setTicket machine.sendId fun ticket =>
    { ticket with state := state, error := error }
  hub.setCore { core with
    senders := remove SenderMachine.sendId machine.sendId core.senders
    destQueues := Function.update hub.core.destQueues machine.destId rest }

theorem shortened_ordered (ordered : Ordered hub)
    (found : hub.core.sender after.sendId = some machine) (place : after.destId = machine.destId)
    (queue : hub.core.destQueues after.destId = after.sendId :: rest) (past : state.Ended)
    (error : Option String) : Ordered (shortened after state error rest hub) ∧
      Turns after.sendId hub (shortened after state error rest hub) ∧
      (shortened after state error rest hub).core.sender after.sendId = none := by
  let next := shortened after state error rest hub
  have gone : next.core.sender after.sendId = none := lookup_remove_self
  have listed : ∀ entry ∈ next.core.senders,
      entry ∈ hub.core.senders ∧ entry.sendId ≠ after.sendId := by
    intro entry kept
    have filtered := mem_filter.mp kept
    exact ⟨filtered.1, by simpa using filtered.2⟩
  have queues : ∀ dest, next.core.destQueues dest =
      idsTo dest (remove SenderMachine.sendId after.sendId hub.core.senders) := by
    intro dest
    show Function.update hub.core.destQueues after.destId rest dest = _
    by_cases same : dest = after.destId
    · rw [same, Function.update_self]
      rw [ordered.queues] at queue
      exact (ids_to_remove ordered.increasing queue).symm
    · have key : machine.sendId = after.sendId := lookup_key found
      rw [Function.update_of_ne same, ordered.queues, ← key]
      exact (ids_to_remove_other ordered.distinct (lookup_mem found) fun clash =>
        same (clash.symm.trans place.symm)).symm
  -- only the leader of this queue left, so whoever else led still leads
  have leads : ∀ entry, entry.sendId ≠ after.sendId → hub.core.Leads entry →
      next.core.Leads entry := by
    intro entry ne first
    show (Function.update hub.core.destQueues after.destId rest entry.destId).head? = _
    by_cases same : entry.destId = after.destId
    · unfold Core.Leads at first
      rw [same, queue] at first
      exact absurd (Option.some.inj first).symm ne
    · rw [Function.update_of_ne same]
      exact first
  have waits : ∀ entry, next.core.Waits entry → hub.core.Waits entry := by
    rintro entry ⟨kept, behind⟩
    obtain ⟨old, ne⟩ := listed entry kept
    exact ⟨old, fun first => behind (leads entry ne first)⟩
  have others : ∀ other, other ≠ after.sendId → next.core.sender other = hub.core.sender other :=
    fun _ => lookup_remove_other
  have kept : ∀ ticket ∈ next.core.tickets, ticket.sendId ≠ after.sendId →
      ticket ∈ hub.core.tickets := mem_set_ticket_other fun _ => rfl
  have places : next.core.tickets.map SenderTicket.place =
      hub.core.tickets.map SenderTicket.place := set_ticket_places fun _ => rfl
  refine ⟨⟨ordered.socket, ?increasing, ?issued, queues, ?waiting, ordered.announced, ?tickets,
    places.trans ordered.started, ?places, ?numbered, ?phases, ?ended⟩, ⟨rfl, rfl, places, waits,
    ?leaders, .inl gone, fun other ne => (others other ne).trans⟩, gone⟩
  case increasing => exact ordered.increasing.sublist (filter_sublist.map _)
  case issued => exact fun entry kept => ordered.issued entry (listed entry kept).1
  case waiting => exact fun entry behind => ordered.waiting entry (waits entry behind)
  case tickets =>
    rw [ticket_keys places]
    exact ordered.tickets
  case places =>
    rw [places]
    exact fun entry kept => ordered.places entry (listed entry kept).1
  case numbered =>
    intro ticket inNext
    obtain ⟨old, inOld, rfl⟩ := mem_map.mp inNext
    have bound := ordered.numbered old inOld
    split_ifs <;> exact bound
  case phases =>
    intro entry left
    obtain ⟨old, ne⟩ := listed entry left
    have same := ticket_state_kept ordered places kept ne
    rw [same]
    exact ordered.phases entry old
  case ended =>
    intro ticket inNext
    obtain ⟨old, inOld, rfl⟩ := mem_map.mp inNext
    split_ifs with hit
    · exact .inr past
    rcases ordered.ended old inOld with inQueue | done
    · left
      obtain ⟨entry, inSenders, same⟩ := mem_map.mp inQueue
      exact mem_map.mpr ⟨entry, mem_remove_other inSenders (same ▸ hit), same⟩
    · exact .inr done
  case leaders =>
    rintro other ne ⟨entry, there, first⟩
    have kept := others other ne
    exact ⟨kept, entry, kept ▸ there, leads entry (lookup_key there ▸ ne) first⟩

theorem Turns.trans (first : Turns sendId hub next) {last : Hub}
    (second : Turns machine.sendId next last) (gone : next.core.sender sendId = none)
    (there : next.core.sender machine.sendId = some machine) (waited : hub.core.Waits machine) :
    Turns sendId hub last where
  config := second.config.trans first.config
  seq := second.seq.trans first.seq
  places := second.places.trans first.places
  waits := fun machine waits => first.waits machine (second.waits machine waits)
  leaders := by
    intro other ne leading
    obtain ⟨kept, still⟩ := first.leaders other ne leading
    obtain ⟨entry, found, leads⟩ := leading
    have unopened : other ≠ machine.sendId := by
      rintro rfl
      rw [← kept, there] at found
      exact waited.2 (Option.some.inj found ▸ leads)
    obtain ⟨again, finally_⟩ := second.leaders other unopened still
    exact ⟨again.trans kept, finally_⟩
  own := by
    left
    apply second.absent sendId _ gone
    rintro rfl
    cases gone.symm.trans there
  absent := by
    intro other ne lost
    have before := first.absent other ne lost
    apply second.absent other _ before
    rintro rfl
    cases before.symm.trans there

theorem Ordered.leading_of_queue (ordered : Ordered hub)
    (queue : hub.core.destQueues dest = sendId :: rest) :
    ∃ machine, hub.core.sender sendId = some machine ∧ machine.destId = dest ∧
      hub.core.Leads machine := by
  have listed := ordered.queues dest ▸ queue ▸ mem_cons_self
  obtain ⟨machine, mem, place, key⟩ := mem_ids_to.mp listed
  refine ⟨machine, key ▸ lookup_of_mem ordered.distinct mem, place, ?_⟩
  unfold Core.Leads
  rw [place, queue, key]
  rfl

variable {error : Option String}

theorem finish_sender_last (queue : hub.core.destQueues machine.destId = [machine.sendId]) :
    finishSender now machine state error hub = .ok (shortened machine state error [] hub) := by
  unfold finishSender
  rw [queue]
  exact if_pos rfl

theorem finish_sender_next {following : SendId} {behind : List SendId}
    (queue : hub.core.destQueues machine.destId = machine.sendId :: following :: behind)
    (there : (shortened machine state error (following :: behind) hub).core.sender following =
      some other) : finishSender now machine state error hub =
      .ok (openSend now other (shortened machine state error (following :: behind) hub)) := by
  unfold finishSender
  rw [queue]
  refine (if_pos rfl).trans ?_
  dsimp only
  rw [← shortened, there]

theorem Ordered.finish (ordered : Ordered hub) (now : ℚ)
    (found : hub.core.sender after.sendId = some machine) (leads : hub.core.Leads machine)
    (place : after.destId = machine.destId) (past : state.Ended) (error : Option String) :
    ∃ next, finishSender now after state error hub = .ok next ∧ Ordered next ∧
      Turns after.sendId hub next ∧ next.core.sender after.sendId = none := by
  have key := lookup_key found
  unfold Core.Leads at leads
  rw [← place, key] at leads
  obtain ⟨rest, queue⟩ := head?_eq_some_iff.mp leads
  obtain ⟨shorter, turns, gone⟩ := shortened_ordered ordered found place queue past error
  cases rest with
  | nil =>
    exact ⟨shortened after state error [] hub, finish_sender_last queue, shorter, turns, gone⟩
  | cons following behind =>
    have head : (shortened after state error (following :: behind) hub).core.destQueues
        after.destId = following :: behind := Function.update_self ..
    obtain ⟨waiting, there, dest, first⟩ := shorter.leading_of_queue head
    have named := lookup_key there
    -- it stood behind the finished send, so nothing has been sent for it
    have waited : hub.core.Waits waiting := by
      have kept := mem_filter.mp (lookup_mem there)
      refine ⟨kept.1, fun front => ?_⟩
      unfold Core.Leads at front
      rw [dest, queue] at front
      have ne : waiting.sendId ≠ after.sendId := by simpa using kept.2
      exact ne (Option.some.inj front).symm
    have untouched := (ordered.waiting waiting waited).1
    obtain ⟨opened, sameId, sameDest, _, _, _, writes⟩ := open_send_rewrites now waiting
      (shorter.sender_phase (named ▸ there)) untouched.2.2.2.1
    obtain ⟨final, passed, _⟩ := shorter.rewrite (named ▸ there) first sameId sameDest writes
    refine ⟨openSend now waiting (shortened after state error (following :: behind) hub),
      finish_sender_next queue there, final, turns.trans passed gone (named ▸ there) waited, ?_⟩
    apply passed.absent after.sendId _ gone
    intro same
    rw [same, named, there] at gone
    cases gone

/-! ### what a step leaves -/

/-- How many more steps a send can take before it ends. -/
def SenderMachine.rank (machine : SenderMachine) : Nat :=
  4 * (nackBackoffTries - machine.tries) +
    if machine.cleared then (if machine.doneResends = 0 then 1 else 0)
    else if machine.nextRtsAt ≠ 0 then 3 else 2

/-- Nobody jumps a queue, and a leading send keeps its place until it ends. -/
structure Follows (hub next : Hub) : Prop where
  config : next.core.config = hub.core.config
  seq : hub.core.seq ≤ next.core.seq
  tickets : ∀ sendId ∈ hub.core.tickets.map SenderTicket.sendId,
    sendId ∈ next.core.tickets.map SenderTicket.sendId
  waits : ∀ machine, next.core.Waits machine → machine.sendId ≤ hub.core.seq →
    hub.core.Waits machine
  leaders : ∀ machine, hub.core.sender machine.sendId = some machine → hub.core.Leads machine →
    next.core.sender machine.sendId = none ∨
      ∃ after, after.sendId = machine.sendId ∧ next.core.sender machine.sendId = some after ∧
        next.core.Leads after ∧ (after = machine ∨ after.rank < machine.rank)
  absent : ∀ sendId ≤ hub.core.seq, hub.core.sender sendId = none →
    next.core.sender sendId = none

theorem Follows.refl (hub : Hub) : Follows hub hub where
  config := rfl
  seq := Nat.le_refl _
  tickets := fun _ listed => listed
  waits := fun _ waits _ => waits
  leaders := fun machine found leads => .inr ⟨machine, rfl, found, leads, .inl rfl⟩
  absent := fun _ _ gone => gone

theorem Follows.trans (ordered : Ordered hub) (first : Follows hub next) {last : Hub}
    (second : Follows next last) : Follows hub last where
  config := second.config.trans first.config
  seq := Nat.le_trans first.seq second.seq
  tickets := fun sendId listed => second.tickets sendId (first.tickets sendId listed)
  waits := fun machine waits known =>
    first.waits machine (second.waits machine waits (Nat.le_trans known first.seq)) known
  leaders := by
    intro machine found leads
    rcases first.leaders machine found leads with gone | ⟨middle, sameId, there, still, closer⟩
    · have known := ordered.issued machine (lookup_mem found)
      exact .inl (second.absent machine.sendId (Nat.le_trans known first.seq) gone)
    rcases second.leaders middle (sameId ▸ there) still with gone | ⟨after, again, here, front, nearer⟩
    · exact .inl (sameId ▸ gone)
    refine .inr ⟨after, again.trans sameId, sameId ▸ here, front, ?_⟩
    rcases nearer with rfl | nearer
    · exact closer
    · rcases closer with rfl | closer
      · exact .inr nearer
      · exact .inr (Nat.lt_trans nearer closer)
  absent := fun sendId known gone =>
    second.absent sendId (Nat.le_trans known first.seq) (first.absent sendId known gone)

def Nearer (machine : SenderMachine) (next : Hub) : Prop :=
  next.core.sender machine.sendId = none ∨
    ∃ after, after.sendId = machine.sendId ∧ next.core.sender machine.sendId = some after ∧
      next.core.Leads after ∧ after.rank < machine.rank

theorem Nearer.follows (moved : Nearer machine hub) (known : machine.sendId ≤ hub.core.seq)
    (follows : Follows hub next) : Nearer machine next := by
  rcases moved with gone | ⟨after, sameId, found, leads, closer⟩
  · exact .inl (follows.absent machine.sendId known gone)
  rcases follows.leaders after (sameId ▸ found) leads with gone | ⟨last, again, here, front, nearer⟩
  · exact .inl (sameId ▸ gone)
  · refine .inr ⟨last, again.trans sameId, sameId ▸ here, front, ?_⟩
    rcases nearer with rfl | nearer
    · exact closer
    · exact Nat.lt_trans nearer closer

/-- One step of a leading send. -/
structure Moves (machine : SenderMachine) (hub next : Hub) : Prop where
  ordered : Ordered next
  follows : Follows hub next
  seq : next.core.seq = hub.core.seq
  moved : Nearer machine next

theorem Turns.moves (turns : Turns sendId hub next) (ordered : Ordered next)
    (found : hub.core.sender sendId = some machine)
    (closer : ∀ after ∈ next.core.sender sendId, after.rank < machine.rank) :
    Moves machine hub next := by
  have key := lookup_key found
  have moved : Nearer machine next := by
    unfold Nearer
    rw [key]
    rcases turns.own with gone | ⟨after, here, first⟩
    · exact .inl gone
    · exact .inr ⟨after, lookup_key here, here, first, closer after here⟩
  refine ⟨ordered, ⟨turns.config, Nat.le_of_eq turns.seq.symm, ?tickets,
    fun machine waits _ => turns.waits machine waits, ?leaders, ?absent⟩, turns.seq, moved⟩
  case tickets =>
    rw [ticket_keys turns.places]
    exact fun _ listed => listed
  case leaders =>
    intro other there leads
    by_cases same : other.sendId = sendId
    · rw [same] at there
      cases found.symm.trans there
      rcases moved with gone | ⟨after, sameId, here, first, closer⟩
      · exact .inl gone
      · exact .inr ⟨after, sameId, here, first, .inr closer⟩
    · obtain ⟨kept, front, again, first⟩ := turns.leaders other.sendId same ⟨other, there, leads⟩
      cases (kept.trans there).symm.trans again
      exact .inr ⟨other, rfl, again, first, .inl rfl⟩
  case absent =>
    intro other _ gone
    by_cases same : other = sendId
    · rw [same, found] at gone
      cases gone
    · exact turns.absent other same gone

theorem Ordered.rewrite_moves (ordered : Ordered hub) (found : hub.core.sender sendId = some machine)
    (leads : hub.core.Leads machine) (writes : Rewrites sendId after hub next)
    (key : after.sendId = sendId) (place : after.destId = machine.destId)
    (closer : after.rank < machine.rank) : Moves machine hub next := by
  obtain ⟨final, turns, here⟩ := ordered.rewrite found leads key place writes
  refine turns.moves final found fun entry again => ?_
  cases here.symm.trans again
  exact closer

theorem Ordered.finish_moves (ordered : Ordered hub)
    (found : hub.core.sender after.sendId = some machine) (leads : hub.core.Leads machine)
    (place : after.destId = machine.destId) (past : state.Ended) (error : Option String) :
    Ensures (finishSender now after state error hub) (Moves machine hub) fun _ _ => False := by
  obtain ⟨next, reached, final, turns, gone⟩ := ordered.finish now found leads place past error
  rw [reached]
  refine turns.moves final found fun entry again => ?_
  cases gone.symm.trans again

/-! ### answers -/

theorem handle_clearance_moves (ordered : Ordered hub)
    (found : hub.core.sender sendId = some machine) (leads : hub.core.Leads machine)
    (open_ : machine.cleared = false) : Moves machine hub (handleClearance now machine hub) := by
  have key := lookup_key found
  have known : hub.core.ticketState machine.sendId ≠ none := by
    rw [key, ordered.sender_phase found]
    exact Option.some_ne_none _
  have writes : Rewrites machine.sendId _ hub (handleClearance now machine hub) :=
    clearance_rewrites known
  refine ordered.rewrite_moves (key ▸ found) leads writes rfl rfl ?_
  simp only [SenderMachine.rank, open_]
  split_ifs <;> simp_all

theorem finish_counted :
    finishSender now machine state error (hub.setCore (hub.core.setSender machine)) =
      finishSender now machine state error hub := by
  have removed : remove SenderMachine.sendId machine.sendId (hub.core.setSender machine).senders =
        remove SenderMachine.sendId machine.sendId hub.core.senders :=
    remove_write rfl
  unfold finishSender
  simp only [Hub.setCore, Core.setTicket, removed]
  rfl

theorem handle_nack_moves (ordered : Ordered hub) (found : hub.core.sender sendId = some machine)
    (leads : hub.core.Leads machine) (code : NackCode) :
    Ensures (handleNack now machine code hub) (Moves machine hub) fun _ _ => False := by
  have key := lookup_key found
  have phase := ordered.phases machine (lookup_mem found)
  unfold handleNack
  split_ifs
  · exact ordered.finish_moves (key ▸ found) leads rfl (.inr rfl) _
  simp only
  split_ifs with spent
  · rw [finish_counted]
    exact ordered.finish_moves (key ▸ found) leads rfl (.inr rfl) _
  have writes := set_sender_rewrites { machine with
      tries := machine.tries + 1
      nextRtsAt := now + nackBackoffBase * 2 ^ (machine.tries + 1 - 1)
      lastProgress := now } phase.1 phase.2
  refine ordered.rewrite_moves (key ▸ found) leads writes rfl rfl ?_
  simp only [SenderMachine.rank]
  split_ifs <;> omega

/-! ### ticks -/

def SenderMachine.Due (machine : SenderMachine) (inactivity now : ℚ) : Prop :=
  if machine.cleared then ∃ since ∈ machine.awaitingAckSince, inactivity ≤ now - since
  else if machine.nextRtsAt ≠ 0 then machine.nextRtsAt ≤ now
  else inactivity ≤ now - machine.lastProgress

theorem tick_sender_leader (ordered : Ordered hub) (found : hub.core.sender sendId = some machine)
    (leads : hub.core.Leads machine) : Ensures (tickSender now hub sendId)
      (fun next => Moves machine hub next ∨
        next = hub ∧ ¬machine.Due hub.core.config.inactivity now) fun _ _ => False := by
  obtain rfl := lookup_key found
  have phase := ordered.phases machine (lookup_mem found)
  have ends : ∀ error, Ensures (finishSender now machine .error error hub)
      (fun next => Moves machine hub next ∨
        next = hub ∧ ¬machine.Due hub.core.config.inactivity now) fun _ _ => False := fun error =>
    ensures_mono (ordered.finish_moves found leads rfl (.inr rfl) error) (fun _ => .inl) fun _ _ => id
  unfold tickSender
  simp only [found, phase.1]
  split_ifs with again resend spent silent idle
  · obtain ⟨opened, sameId, sameDest, tries, renewed, open_, writes⟩ :=
      open_send_rewrites now { machine with nextRtsAt := 0 } phase.1 again.2.2
    refine .inl (ordered.rewrite_moves found leads writes sameId sameDest ?_)
    simp [SenderMachine.rank, tries, renewed, open_, again]
  · exact ends _
  · have cleared : machine.cleared = true := by
      by_contra open_
      simp [SenderMachine.phase, open_] at resend
    have first : machine.doneResends = 0 := by omega
    have writes := set_sender_rewrites { machine with
        doneResends := machine.doneResends + 1
        awaitingAckSince := some now } phase.1 fun _ => Option.some_ne_none now
    refine .inl (ordered.rewrite_moves found leads (writes.send (.inl rfl) []) rfl rfl ?_)
    simp [SenderMachine.rank, cleared, first]
  · exact ends _
  · exact ends _
  · refine .inr ⟨rfl, fun due => ?_⟩
    unfold SenderMachine.Due at due
    split_ifs at due with cleared backoff
    · obtain ⟨since, awaits, late⟩ := due
      have waits : machine.awaitingAckSince = some since := awaits
      exact resend ⟨by simpa [waits] using late, by simp [SenderMachine.phase, cleared]⟩
    · exact again ⟨backoff, due, by simpa using cleared⟩
    · exact idle ⟨due, by simp [SenderMachine.phase, cleared], not_not.mp backoff⟩

theorem tick_sender_waiting (ordered : Ordered hub) (waits : hub.core.Waits machine)
    (young : now - machine.lastProgress < hub.core.config.inactivity) :
    tickSender now hub machine.sendId = .ok hub := by
  obtain ⟨_, calm, silent, _, _⟩ := (ordered.waiting machine waits).1
  have found : hub.core.sender machine.sendId = some machine :=
    lookup_of_mem ordered.distinct waits.1
  unfold tickSender
  simp [found, calm, silent, not_le.mpr young]

def Patient (now : ℚ) (hub : Hub) : Prop :=
  ∀ machine ∈ hub.core.senders, ¬hub.core.Leads machine →
    now - machine.lastProgress < hub.core.config.inactivity

instance (now : ℚ) (hub : Hub) : Decidable (Patient now hub) :=
  inferInstanceAs (Decidable (∀ machine ∈ hub.core.senders, _))

theorem Patient.follows (patient : Patient now hub) (ordered : Ordered next)
    (follows : Follows hub next) (seq : next.core.seq = hub.core.seq) : Patient now next := by
  intro machine mem behind
  have known := seq ▸ ordered.issued machine mem
  obtain ⟨listed, waited⟩ := follows.waits machine ⟨mem, behind⟩ known
  rw [follows.config]
  exact patient machine listed waited

/-- The senders of a tick up to the ones in `rest`: whoever led and was due has moved. -/
structure Visited (now : ℚ) (hub : Hub) (rest : List SendId) (next : Hub) : Prop where
  ordered : Ordered next
  follows : Follows hub next
  seq : next.core.seq = hub.core.seq
  moved : ∀ machine ∈ hub.core.senders, hub.core.Leads machine →
    machine.Due hub.core.config.inactivity now → machine.sendId ∈ rest ∨ Nearer machine next

theorem Visited.stands {state : Hub} (visited : Visited now hub rest state)
    (ordered : Ordered hub) (mem : machine ∈ hub.core.senders) (leads : hub.core.Leads machine) :
    (state.core.sender machine.sendId = some machine ∧ state.core.Leads machine) ∨
      Nearer machine state := by
  have found := lookup_of_mem ordered.distinct mem
  rcases visited.follows.leaders machine found leads with gone | ⟨after, sameId, here, front, closer⟩
  · exact .inr (.inl gone)
  · rcases closer with rfl | closer
    · exact .inl ⟨here, front⟩
    · exact .inr (.inr ⟨after, sameId, here, front, closer⟩)

theorem Visited.unmoved {state : Hub}
    (visited : Visited now hub (sendId :: rest) state) (ordered : Ordered hub)
    (idle : ∀ machine ∈ hub.core.senders, machine.sendId = sendId →
      state.core.sender sendId = some machine → state.core.Leads machine →
      ¬machine.Due hub.core.config.inactivity now) : Visited now hub rest state where
  ordered := visited.ordered
  follows := visited.follows
  seq := visited.seq
  moved := by
    intro machine mem leads due
    rcases visited.moved machine mem leads due with left | moved
    · rcases mem_cons.mp left with same | later
      · rcases visited.stands ordered mem leads with ⟨here, front⟩ | moved
        · exact absurd due (idle machine mem same (same ▸ here) front)
        · exact .inr moved
      · exact .inl later
    · exact .inr moved

theorem Visited.step {state : Hub}
    (visited : Visited now hub (sendId :: rest) state) (ordered : Ordered hub)
    (patient : Patient now hub) :
    Ensures (tickSender now state sendId) (Visited now hub rest) fun _ _ => False := by
  have current := visited.ordered
  have young := patient.follows current visited.follows visited.seq
  cases found : state.core.sender sendId with
  | none =>
    have ended : tickSender now state sendId = .ok state := by simp [tickSender, found]
    rw [ended]
    refine visited.unmoved ordered fun machine _ _ here => ?_
    cases found.symm.trans here
  | some reached =>
    have key := lookup_key found
    by_cases leads : state.core.Leads reached
    · apply ensures_mono (tick_sender_leader current found leads) _ fun _ _ => id
      rintro next (moves | ⟨rfl, early⟩)
      · refine ⟨moves.ordered, .trans ordered visited.follows moves.follows,
          moves.seq.trans visited.seq, ?_⟩
        intro machine mem first due
        have known := visited.seq ▸ ordered.issued machine mem
        rcases visited.moved machine mem first due with left | moved
        · rcases mem_cons.mp left with same | later
          · rcases visited.stands ordered mem first with ⟨here, _⟩ | moved
            · cases found.symm.trans (same ▸ here)
              exact .inr moves.moved
            · exact .inr (moved.follows known moves.follows)
          · exact .inl later
        · exact .inr (moved.follows known moves.follows)
      · refine visited.unmoved ordered fun machine _ _ here _ => ?_
        cases found.symm.trans here
        rw [← visited.follows.config]
        exact early
    · have mem := lookup_mem found
      rw [← key, tick_sender_waiting current ⟨mem, leads⟩ (young reached mem leads)]
      refine visited.unmoved ordered fun machine _ _ here front => ?_
      cases found.symm.trans here
      exact absurd front leads

theorem tick_senders (ordered : Ordered hub) (patient : Patient now hub) :
    Ensures ((hub.core.senders.map SenderMachine.sendId).foldlM (tickSender now) hub)
      (Visited now hub []) fun _ _ => False := by
  apply ensures_foldlM (tickSender now) (Visited now hub)
  · exact fun sendId rest state visited => visited.step ordered patient
  · exact ⟨ordered, .refl hub, rfl, fun machine mem _ _ => .inl (mem_map_of_mem mem)⟩

/-! ### a new send -/

def enqueued (machine : SenderMachine) (ticket : SenderTicket) (start : Start) (hub : Hub) : Hub :=
  hub.setCore { hub.core with
    seq := machine.sendId
    senders := hub.core.senders ++ [machine]
    destQueues := Function.update hub.core.destQueues machine.destId
      (hub.core.destQueues machine.destId ++ [machine.sendId])
    tickets := hub.core.tickets ++ [ticket]
    starts := hub.core.starts ++ [start] }

section Enqueue

variable {ticket : SenderTicket} {start : Start}

theorem issued_ne {issued fresh : SendId} {seq : Nat} (known : issued ≤ seq) (above : seq < fresh) :
    issued ≠ fresh :=
  Nat.ne_of_lt (Nat.lt_of_le_of_lt known above)

theorem keys_append_increasing {Item : Type} {keyOf : Item → Nat} {items : List Item} {item : Item}
    (increasing : (items.map keyOf).Pairwise (· < ·)) (above : ∀ old ∈ items, keyOf old < keyOf item) :
    ((items ++ [item]).map keyOf).Pairwise (· < ·) := by
  rw [map_append, pairwise_append]
  refine ⟨increasing, pairwise_singleton _ _, fun key listed last new => ?_⟩
  obtain ⟨old, mem, rfl⟩ := mem_map.mp listed
  exact mem_singleton.mp new ▸ above old mem

theorem enqueued_sender (known : sendId ≠ machine.sendId) :
    (enqueued machine ticket start hub).core.sender sendId = hub.core.sender sendId := by
  show lookup SenderMachine.sendId sendId (hub.core.senders ++ [machine]) = _
  rw [lookup_append_single, if_neg known.symm]
  exact Option.or_none

theorem enqueued_leads (leads : hub.core.Leads other) :
    (enqueued machine ticket start hub).core.Leads other := by
  show (Function.update hub.core.destQueues machine.destId
    (hub.core.destQueues machine.destId ++ [machine.sendId]) other.destId).head? = _
  by_cases same : other.destId = machine.destId
  · unfold Core.Leads at leads
    rw [same] at leads ⊢
    rw [Function.update_self, head?_append, leads]
    rfl
  · rw [Function.update_of_ne same]
    exact leads

theorem enqueued_follows (ordered : Ordered hub) (fresh : hub.core.seq < machine.sendId) :
    Follows hub (enqueued machine ticket start hub) where
  config := rfl
  seq := Nat.le_of_lt fresh
  tickets := by
    intro sendId listed
    show sendId ∈ (hub.core.tickets ++ [ticket]).map SenderTicket.sendId
    rw [map_append]
    exact mem_append_left _ listed
  waits := by
    rintro entry ⟨mem, behind⟩ known
    rcases mem_append.mp mem with old | new
    · exact ⟨old, fun leads => behind (enqueued_leads leads)⟩
    · rw [mem_singleton.mp new] at known
      exact absurd fresh (Nat.not_lt_of_le known)
  leaders := by
    intro entry found leads
    have known := ordered.issued entry (lookup_mem found)
    have kept : (enqueued machine ticket start hub).core.sender entry.sendId = some entry :=
      (enqueued_sender (issued_ne known fresh)).trans found
    exact .inr ⟨entry, rfl, kept, enqueued_leads leads, .inl rfl⟩
  absent := fun sendId known gone => (enqueued_sender (issued_ne known fresh)).trans gone

theorem enqueued_ordered (ordered : Ordered hub) (fresh : hub.core.seq < machine.sendId)
    (untouched : machine.Untouched) (place : ticket.place = machine.place)
    (begun : start.place = machine.place) (state : ticket.state = .negotiating) :
    Ordered (enqueued machine ticket start hub) := by
  have follows : Follows hub (enqueued machine ticket start hub) := enqueued_follows ordered fresh
  have named : ticket.sendId = machine.sendId := congrArg Prod.fst place
  have unknown : lookup SenderTicket.sendId machine.sendId hub.core.tickets = none := by
    apply lookup_none.mpr
    intro old mem same
    exact issued_ne (ordered.numbered old mem) fresh same
  refine ⟨ordered.socket, ?increasing, ?issued, ?queues, ?waiting, ?announced, ?tickets, ?started,
    ?places, ?numbered, ?phases, ?ended⟩
  case increasing =>
    exact keys_append_increasing ordered.increasing fun old mem =>
      Nat.lt_of_le_of_lt (ordered.issued old mem) fresh
  case issued =>
    exact forall_mem_concat (fun entry old => Nat.le_trans (ordered.issued entry old) follows.seq)
      (Nat.le_refl _)
  case queues =>
    intro dest
    show Function.update hub.core.destQueues machine.destId
      (hub.core.destQueues machine.destId ++ [machine.sendId]) dest =
        idsTo dest (hub.core.senders ++ [machine])
    rw [ids_to_append]
    by_cases same : machine.destId = dest
    · rw [if_pos same, ← same, Function.update_self, ordered.queues]
    · rw [if_neg same, Function.update_of_ne (Ne.symm same), ordered.queues]
  case waiting =>
    rintro entry ⟨mem, behind⟩
    rcases mem_append.mp mem with old | new
    · have bound := ordered.issued entry old
      exact ordered.waiting entry (follows.waits entry ⟨mem, behind⟩ bound)
    · rw [mem_singleton.mp new]
      refine ⟨untouched, fun told => ?_⟩
      exact Nat.not_lt_of_le (ordered.announced machine.sendId told) fresh
  case announced => exact fun sendId told => Nat.le_trans (ordered.announced sendId told) follows.seq
  case tickets =>
    exact keys_append_increasing ordered.tickets fun old mem =>
      Nat.lt_of_lt_of_eq (Nat.lt_of_le_of_lt (ordered.numbered old mem) fresh) named.symm
  case started =>
    show (hub.core.tickets ++ [ticket]).map SenderTicket.place =
      (hub.core.starts ++ [start]).map Start.place
    rw [map_append, map_append, ordered.started, map_singleton, place, map_singleton, begun]
  case places =>
    intro entry mem
    show entry.place ∈ (hub.core.tickets ++ [ticket]).map SenderTicket.place
    rw [map_append]
    rcases mem_append.mp mem with old | new
    · exact mem_append_left _ (ordered.places entry old)
    · rw [mem_singleton.mp new]
      exact mem_append_right _ (mem_singleton.mpr place.symm)
  case numbered =>
    exact forall_mem_concat (fun entry old => Nat.le_trans (ordered.numbered entry old) follows.seq)
      named.le
  case phases =>
    intro entry mem
    have lookup : (enqueued machine ticket start hub).core.ticketState entry.sendId =
        ((lookup SenderTicket.sendId entry.sendId hub.core.tickets).or
          (if ticket.sendId = entry.sendId then some ticket else none)).map (·.state) :=
      congrArg (Option.map _) (lookup_append_single ticket)
    rw [lookup]
    rcases mem_append.mp mem with old | new
    · have phase := ordered.phases entry old
      have bound := ordered.issued entry old
      rw [if_neg (named ▸ (issued_ne bound fresh).symm), Option.or_none]
      exact phase
    · rw [mem_singleton.mp new, if_pos named, unknown]
      have open_ := untouched.2.2.2.1
      simp [state, SenderMachine.phase, open_]
  case ended =>
    intro entry mem
    show entry.sendId ∈ (hub.core.senders ++ [machine]).map SenderMachine.sendId ∨ _
    rw [map_append]
    rcases mem_append.mp mem with old | new
    · exact (ordered.ended entry old).imp_left fun listed => mem_append_left _ listed
    · rw [mem_singleton.mp new, named]
      exact .inl (mem_append_right _ mem_cons_self)

theorem Follows.opened (follows : Follows hub next) {last : Hub} (ordered : Ordered hub)
    (fresh : hub.core.seq < sendId) (turns : Turns sendId next last) : Follows hub last where
  config := turns.config.trans follows.config
  seq := turns.seq ▸ follows.seq
  tickets := by
    rw [ticket_keys turns.places]
    exact follows.tickets
  waits := fun machine waits known => follows.waits machine (turns.waits machine waits) known
  leaders := by
    intro entry found leads
    have known := ordered.issued entry (lookup_mem found)
    have ne := issued_ne known fresh
    rcases follows.leaders entry found leads with gone | ⟨after, sameId, here, front, closer⟩
    · exact .inl (turns.absent entry.sendId ne gone)
    · obtain ⟨kept, again, there, first⟩ := turns.leaders entry.sendId ne ⟨after, here, front⟩
      cases (kept.trans here).symm.trans there
      exact .inr ⟨after, sameId, there, first, closer⟩
  absent := fun other known gone =>
    turns.absent other (issued_ne known fresh) (follows.absent other known gone)

end Enqueue

theorem start_send_ordered (ordered : Ordered hub) (now : ℚ) (destId : String) (payload : Bytes)
    (overwrite : Bool) (info : Info) : Ordered (startSend now destId payload overwrite info hub) ∧
      Follows hub (startSend now destId payload overwrite info hub) := by
  let machine : SenderMachine :=
    { sendId := hub.core.seq + 1, destId := destId, payload := payload, overwrite := overwrite
      info := info, lastProgress := now }
  let ticket : SenderTicket :=
    { sendId := hub.core.seq + 1, destId := destId, bytesTotal := payload.length }
  let queued := enqueued machine ticket ⟨hub.core.seq + 1, destId, payload⟩ hub
  have follows : Follows hub queued := enqueued_follows ordered (Nat.lt_succ_self _)
  have order : Ordered queued :=
    enqueued_ordered ordered (Nat.lt_succ_self _) ⟨rfl, rfl, rfl, rfl, rfl⟩ rfl rfl rfl
  have there := lookup_of_mem order.distinct (mem_append_right _ mem_cons_self)
  show Ordered (if (hub.core.destQueues destId ++ [hub.core.seq + 1]).length = 1
      then openSend now machine queued else queued) ∧ Follows hub (if
      (hub.core.destQueues destId ++ [hub.core.seq + 1]).length = 1
      then openSend now machine queued else queued)
  split_ifs with first
  · have leads : queued.core.Leads machine := by
      show (Function.update hub.core.destQueues destId
        (hub.core.destQueues destId ++ [hub.core.seq + 1]) destId).head? = _
      have empty : hub.core.destQueues destId = [] := eq_nil_of_length_eq_zero (by simpa using first)
      rw [Function.update_self, empty]
      rfl
    obtain ⟨opened, sameId, sameDest, _, _, _, writes⟩ :=
      open_send_rewrites now machine (order.sender_phase there) rfl
    obtain ⟨final, turns, _⟩ := order.rewrite there leads sameId sameDest writes
    exact ⟨final, follows.opened ordered (Nat.lt_succ_self _) turns⟩
  · exact ⟨order, follows⟩

end Queues

end Dataflow.Peer
