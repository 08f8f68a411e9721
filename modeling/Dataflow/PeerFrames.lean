import Dataflow.PeerNetwork

/-!
What is on the wire. A core has a sending and a receiving half, and each half
leaves the other alone. Whatever a core is asked to do, the frames it sends
belong to sends it has started: an RTS names the destination and the length of
the payload, an eager one carries it, and a chunk is its slice. Send ids of one
core are never reused.
-/

namespace Dataflow.Peer

open StatefulOutcome ByteRanges Service KeyedTable List

def slice (chunk seq : Nat) (payload : Bytes) : Bytes :=
  (payload.drop (seq * chunk)).take chunk

/-- The frame speaks about one of the started sends. -/
def Genuine (starts : List Start) (chunk : Nat) : Message × Bytes → Prop
  | (.rts sendId destId bytes _ _ eager, payload) => ∃ start ∈ starts, start.sendId = sendId ∧
      start.destId = destId ∧ start.payload.length = bytes ∧
      (eager = true → payload = start.payload)
  | (.chunk sendId seq _, payload) => ∃ start ∈ starts, start.sendId = sendId ∧
      payload = slice chunk seq start.payload
  | _ => True

theorem Genuine.mono {starts more : List Start} {chunk : Nat} {frame : Message × Bytes}
    (genuine : Genuine starts chunk frame) (grown : ∀ start ∈ starts, start ∈ more) :
    Genuine more chunk frame := by
  obtain ⟨message, payload⟩ := frame
  cases message with
  | rts sendId destId bytes info overwrite eager =>
    obtain ⟨start, mem, facts⟩ := genuine
    exact ⟨start, grown start mem, facts⟩
  | chunk sendId seq last =>
    obtain ⟨start, mem, facts⟩ := genuine
    exact ⟨start, grown start mem, facts⟩
  | _ => trivial

def Message.IsAck : Message → Prop
  | .doneAck _ => True
  | _ => False

def Message.IsReply : Message → Prop
  | .cts _ | .addr _ _ _ | .nack _ _ | .doneAck _ => True
  | _ => False

theorem Message.IsReply.genuine {message : Message} (reply : message.IsReply)
    (starts : List Start) (chunk : Nat) (payload : Bytes) :
    Genuine starts chunk (message, payload) := by
  cases message with
  | rts | chunk => exact reply.elim
  | _ => trivial

/-! ### the two halves -/

def SenderMachine.start (machine : SenderMachine) : Start :=
  ⟨machine.sendId, machine.destId, machine.payload⟩

def SenderTicket.name (ticket : SenderTicket) : SendId × String := (ticket.sendId, ticket.destId)

/-- The same transfer, not behind where it was. -/
structure Continues (old machine : SenderMachine) : Prop where
  start : machine.start = old.start
  cleared : machine.cleared = false → old.cleared = false

theorem Continues.refl (machine : SenderMachine) : Continues machine machine := ⟨rfl, id⟩

theorem Continues.sendId {old machine : SenderMachine} (continues : Continues old machine) :
    machine.sendId = old.sendId := congrArg Start.sendId continues.start

theorem Continues.destId {old machine : SenderMachine} (continues : Continues old machine) :
    machine.destId = old.destId := congrArg Start.destId continues.start

/-- The frame belongs to what the senders are sending. -/
def Hub.Speaks (hub : Hub) (frame : Message × Bytes) : Prop :=
  ∀ starts, (∀ machine ∈ hub.core.senders, machine.start ∈ starts) →
    Genuine starts hub.core.config.chunkBytes frame

/-- Core code that starts no transfer; with `hands` it may hand one to a writer thread. -/
structure Works (hands : Prop) (hub next : Hub) : Prop where
  config : next.core.config = hub.core.config
  starts : next.core.starts = hub.core.starts
  seq : next.core.seq = hub.core.seq
  names : next.core.tickets.map SenderTicket.name = hub.core.tickets.map SenderTicket.name
  order : (next.core.senders.map (·.sendId)).Sublist (hub.core.senders.map (·.sendId))
  senders : ∀ machine ∈ next.core.senders, ∃ old ∈ hub.core.senders, Continues old machine
  objects : next.env.store.objects = hub.env.store.objects
  said : ∀ frame ∈ next.out, frame ∈ hub.out ∨ hub.Speaks frame
  spawned : next.spawned = hub.spawned ∨ hands ∧ ∃ write, next.spawned = hub.spawned ++ [write] ∧
    (∃ old ∈ hub.core.senders, old.sendId = write.sendId ∧ old.cleared = false) ∧
    ∀ machine ∈ next.core.senders, machine.sendId = write.sendId → machine.cleared = true

/-- What the receiving half can do to a hub. -/
structure ReceiverSide (hub next : Hub) : Prop where
  peer : next.peer = hub.peer
  conn : next.conn = hub.conn
  rdma : next.rdmaReady = hub.rdmaReady
  core : next.core = { hub.core with
    receivers := next.core.receivers
    completed := next.core.completed
    forgotten := next.core.forgotten }
  out : ∀ frame ∈ next.out, frame ∈ hub.out ∨ frame.1.IsReply
  objects : next.env.store.objects = hub.env.store.objects
  spawned : next.spawned = hub.spawned

/-- What the sending half can do; only the transfers in `acked` may end well. -/
structure SenderSide (acked : SendId → Prop) (hub next : Hub) : Prop where
  peer : next.peer = hub.peer
  conn : next.conn = hub.conn
  rdma : next.rdmaReady = hub.rdmaReady
  env : next.env = hub.env
  receivers : next.core.receivers = hub.core.receivers
  completed : next.core.completed = hub.core.completed
  forgotten : next.core.forgotten = hub.core.forgotten
  out : ∀ frame ∈ next.out, frame ∈ hub.out ∨ ¬ frame.1.IsAck
  tickets : ∀ ticket ∈ next.core.tickets, ticket.state = .done →
    acked ticket.sendId ∨
      ∃ old ∈ hub.core.tickets, old.sendId = ticket.sendId ∧ old.state = .done

/-- The sending half at work on the transfers there are. -/
structure Sends (acked : SendId → Prop) (hands : Prop) (hub next : Hub) : Prop
    extends SenderSide acked hub next, Works hands hub next

section Halves

variable {hub next last : Hub} {acked : SendId → Prop} {hands : Prop} {now : ℚ}
  {machine written : SenderMachine} {sendId : SendId} {message : Message} {payload : Bytes}

theorem Works.same (core : next.core = { hub.core with
      receivers := next.core.receivers
      completed := next.core.completed
      forgotten := next.core.forgotten })
    (objects : next.env.store.objects = hub.env.store.objects)
    (said : ∀ frame ∈ next.out, frame ∈ hub.out ∨ hub.Speaks frame)
    (spawned : next.spawned = hub.spawned) : Works hands hub next := by
  refine ⟨?_, ?_, ?_, ?_, ?_, ?_, objects, said, .inl spawned⟩
  all_goals rw [core]
  exact fun machine mem => ⟨machine, mem, .refl machine⟩

theorem Works.refl (hub : Hub) : Works hands hub hub := .same rfl rfl (fun _ => .inl) rfl

theorem Works.mono (works : Works False hub next) : Works hands hub next :=
  { works with spawned := .inl (works.spawned.resolve_right fun never => never.1) }

theorem Works.trans (first : Works False hub next) (second : Works hands next last) :
    Works hands hub last where
  config := second.config.trans first.config
  starts := second.starts.trans first.starts
  seq := second.seq.trans first.seq
  names := second.names.trans first.names
  order := second.order.trans first.order
  senders machine mem := by
    obtain ⟨middle, listed, later⟩ := second.senders machine mem
    obtain ⟨old, there, earlier⟩ := first.senders middle listed
    exact ⟨old, there, later.start.trans earlier.start,
      fun uncleared => earlier.cleared (later.cleared uncleared)⟩
  objects := second.objects.trans first.objects
  said frame mem := by
    rcases second.said frame mem with old | speaks
    · exact first.said frame old
    · refine .inr fun starts known => first.config ▸ speaks starts fun machine listed => ?_
      obtain ⟨old, there, continues⟩ := first.senders machine listed
      exact continues.start ▸ known old there
  spawned := by
    have quiet := first.spawned.resolve_right fun never => never.1
    rcases second.spawned with same | ⟨may, write, more, ⟨middle, listed, id, uncleared⟩, cleared⟩
    · exact .inl (same.trans quiet)
    · obtain ⟨old, there, continues⟩ := first.senders middle listed
      exact .inr ⟨may, write, quiet ▸ more, ⟨old, there, continues.sendId.symm.trans id,
        continues.cleared uncleared⟩, cleared⟩

variable {run : CoreRun Hub} {core : Core} {state : TransferState} {error : Option String}
  {destId : String} {overwrite : Bool} {seq : Nat}

theorem ReceiverSide.refl (hub : Hub) : ReceiverSide hub hub :=
  ⟨rfl, rfl, rfl, rfl, fun _ => .inl, rfl, rfl⟩

theorem ReceiverSide.trans (first : ReceiverSide hub next) (second : ReceiverSide next last) :
    ReceiverSide hub last where
  peer := second.peer.trans first.peer
  conn := second.conn.trans first.conn
  rdma := second.rdma.trans first.rdma
  core := by
    have core := second.core
    rw [first.core] at core
    exact core
  out frame mem := (second.out frame mem).elim (first.out frame) .inr
  objects := second.objects.trans first.objects
  spawned := second.spawned.trans first.spawned

theorem ReceiverSide.send (side : ReceiverSide hub next) (reply : message.IsReply) :
    ReceiverSide hub (next.send message payload) :=
  { side with
    out := fun frame mem => by
      rcases mem_append.mp mem with old | new
      · exact side.out frame old
      · exact .inr (mem_singleton.mp new ▸ reply) }

theorem ReceiverSide.works (side : ReceiverSide hub next) : Works hands hub next := by
  refine .same side.core side.objects ?_ side.spawned
  rintro ⟨message, payload⟩ mem
  exact (side.out _ mem).imp_right fun reply _ _ => reply.genuine _ _ _

theorem SenderSide.trans (first : SenderSide acked hub next)
    (second : SenderSide acked next last) : SenderSide acked hub last where
  peer := second.peer.trans first.peer
  conn := second.conn.trans first.conn
  rdma := second.rdma.trans first.rdma
  env := second.env.trans first.env
  receivers := second.receivers.trans first.receivers
  completed := second.completed.trans first.completed
  forgotten := second.forgotten.trans first.forgotten
  out frame mem := (second.out frame mem).elim (first.out frame) .inr
  tickets ticket mem done := by
    rcases second.tickets ticket mem done with now | ⟨middle, listed, same, ended⟩
    · exact .inl now
    · exact same ▸ first.tickets middle listed ended

theorem Sends.trans (first : Sends acked False hub next) (second : Sends acked hands next last) :
    Sends acked hands hub last :=
  ⟨first.toSenderSide.trans second.toSenderSide, first.toWorks.trans second.toWorks⟩

theorem sends_after (first : Sends acked False hub next)
    (rest : Leaves run (Sends acked hands next)) :
    Leaves run (Sends acked hands hub) :=
  leaves_mono rest fun _ => first.trans

theorem Sends.refl (hub : Hub) : Sends acked hands hub hub :=
  ⟨⟨rfl, rfl, rfl, rfl, rfl, rfl, rfl, fun _ => .inl,
    fun ticket mem done => .inr ⟨ticket, mem, rfl, done⟩⟩, .refl hub⟩

theorem Sends.say_all (sends : Sends acked hands hub next) (frames : List (Message × Bytes))
    (plain : ∀ frame ∈ frames, ¬ frame.1.IsAck ∧ hub.Speaks frame) :
    Sends acked hands hub { next with out := next.out ++ frames } :=
  { sends with
    out := fun frame mem => (mem_append.mp mem).elim (sends.out frame)
      fun new => .inr (plain frame new).1
    said := fun frame mem => (mem_append.mp mem).elim (sends.said frame)
      fun new => .inr (plain frame new).2 }

theorem Sends.say (sends : Sends acked hands hub next) (plain : ¬ message.IsAck)
    (speaks : hub.Speaks (message, payload)) : Sends acked hands hub (next.send message payload) :=
  sends.say_all [(message, payload)] fun _ mem => mem_singleton.mp mem ▸ ⟨plain, speaks⟩

theorem mem_set_sender {other : SenderMachine}
    (mem : other ∈ (core.setSender machine).senders) : other ∈ core.senders ∨ other = machine := by
  obtain ⟨before, listed, rfl⟩ := mem_map.mp mem
  split_ifs
  · exact .inr rfl
  · exact .inl listed

theorem sender_listed (found : core.sender sendId = some machine) :
    machine ∈ core.senders ∧ machine.sendId = sendId :=
  ⟨lookup_mem found, lookup_key found⟩

theorem sends_sender (listed : machine ∈ hub.core.senders) (continues : Continues machine written) :
    Sends acked hands hub (hub.setCore (hub.core.setSender written)) := by
  refine ⟨⟨rfl, rfl, rfl, rfl, rfl, rfl, rfl, fun _ => .inl, ?_⟩,
    ⟨rfl, rfl, rfl, rfl, ?_, ?_, rfl, fun _ => .inl, .inl rfl⟩⟩
  · exact fun ticket mem done => .inr ⟨ticket, mem, rfl, done⟩
  · have keys : (hub.core.setSender written).senders.map SenderMachine.sendId =
        hub.core.senders.map SenderMachine.sendId := keys_write rfl
    exact keys ▸ .refl _
  · intro other mem
    rcases mem_set_sender mem with old | rfl
    · exact ⟨other, old, .refl other⟩
    · exact ⟨machine, listed, continues⟩

theorem mem_set_ticket {change : SenderTicket → SenderTicket}
    {ticket : SenderTicket} (mem : ticket ∈ (core.setTicket sendId change).tickets) :
    ticket ∈ core.tickets ∨ ∃ old ∈ core.tickets, old.sendId = sendId ∧ ticket = change old := by
  obtain ⟨old, listed, rfl⟩ := mem_map.mp mem
  split_ifs with hit
  · exact .inr ⟨old, listed, hit, rfl⟩
  · exact .inl listed

theorem sends_ticket (sendId : SendId) (change : SenderTicket → SenderTicket)
    (keeps : ∀ ticket, (change ticket).name = ticket.name)
    (ends : acked sendId ∨ ∀ ticket, (change ticket).state ≠ .done)
    {senders : List SenderMachine} (fewer : senders.Sublist hub.core.senders)
    (queues : String → List SendId) :
    Sends acked hands hub (hub.setCore { hub.core.setTicket sendId change with
      senders := senders, destQueues := queues }) := by
  refine ⟨⟨rfl, rfl, rfl, rfl, rfl, rfl, rfl, fun _ => .inl, ?_⟩,
    ⟨rfl, rfl, rfl, ?_, fewer.map _, ?_, rfl, fun _ => .inl, .inl rfl⟩⟩
  · intro ticket mem done
    rcases mem_set_ticket mem with old | ⟨old, listed, hit, rfl⟩
    · exact .inr ⟨ticket, old, rfl, done⟩
    · rcases ends with good | bad
      · have same : (change old).sendId = sendId := (congrArg Prod.fst (keeps old)).trans hit
        exact .inl (same.symm ▸ good)
      · exact absurd done (bad old)
  · exact map_map.trans (map_congr_left fun ticket _ => by
      dsimp only [Function.comp_apply]
      split_ifs
      · exact keeps ticket
      · rfl)
  · exact fun machine mem => ⟨machine, fewer.subset mem, .refl machine⟩

theorem open_send_sends (listed : machine ∈ hub.core.senders)
    (continues : Continues machine written) : Sends acked hands hub (openSend now written hub) := by
  have known : ∀ starts : List Start, (∀ machine ∈ hub.core.senders, machine.start ∈ starts) →
      written.start ∈ starts :=
    fun starts all => continues.start ▸ all machine listed
  simp only [openSend]
  split_ifs with eager
  · refine .say (sends_sender listed ?_) ?_ fun starts all => ?_
    · exact ⟨continues.start, continues.cleared⟩
    · exact id
    · exact ⟨written.start, known starts all, rfl, rfl, rfl, fun _ => rfl⟩
  · refine .say (sends_sender listed ?_) ?_ fun starts all => ?_
    · exact ⟨continues.start, continues.cleared⟩
    · exact id
    · exact ⟨written.start, known starts all, rfl, rfl, rfl, fun small => absurd small eager⟩

theorem finish_sender_sends (acked : SendId → Prop) (hands : Prop)
    (ends : acked machine.sendId ∨ state ≠ .done) :
    Leaves (finishSender now machine state error hub) (Sends acked hands hub) := by
  have popped : ∀ {hands}, ∀ queues, Sends acked hands hub (hub.setCore { hub.core.setTicket
      machine.sendId (fun ticket => { ticket with state := state, error := error }) with
        senders := remove SenderMachine.sendId machine.sendId hub.core.senders
        destQueues := queues }) := by
    intro _ queues
    apply sends_ticket
    · exact fun _ => rfl
    · exact ends.imp_right fun other _ => other
    · exact filter_sublist
  simp only [finishSender]
  split
  · split_ifs
    · split
      · exact popped _
      · split
        · exact popped _
        · next found => exact (popped _).trans (open_send_sends (sender_listed found).1 (.refl _))
    · exact popped hub.core.destQueues
  · exact popped hub.core.destQueues

theorem chunk_frame_cases {chunk : Nat} {frame : Message × Bytes}
    (mem : frame ∈ chunkFrames chunk sendId payload) :
    ∃ seq last, frame = (.chunk sendId seq last, slice chunk seq payload) := by
  unfold chunkFrames at mem
  split_ifs at mem with empty
  · obtain rfl := mem_singleton.mp mem
    exact ⟨0, true, by simp [slice, empty]⟩
  · obtain ⟨seq, _, rfl⟩ := mem_map.mp mem
    exact ⟨seq, _, rfl⟩

theorem handle_clearance_sends (listed : machine ∈ hub.core.senders) :
    Sends acked hands hub (handleClearance now machine hub) := by
  have set : Sends acked False hub (hub.setCore (hub.core.setSender
      { machine with cleared := true, awaitingAckSince := some now, lastProgress := now })) :=
    sends_sender listed ⟨rfl, nofun⟩
  have ticket : Sends acked hands hub _ := set.trans (sends_ticket machine.sendId
    (fun ticket => { ticket with bytesDone := machine.payload.length, state := .committing })
    (fun _ => rfl) (.inr nofun) (.refl _) hub.core.destQueues)
  refine (ticket.say_all (chunkFrames _ machine.sendId machine.payload) fun frame mem => ?_).say id
    fun _ _ => trivial
  obtain ⟨seq, last, rfl⟩ := chunk_frame_cases mem
  exact ⟨id, fun starts known => ⟨machine.start, known machine listed, rfl, rfl⟩⟩

theorem rdma_write_finished_sends : Sends acked hands hub (rdmaWriteFinished now sendId hub) := by
  have ticket : ∀ {hands}, Sends acked hands hub (hub.setCore (hub.core.setTicket sendId fun ticket =>
      { ticket with bytesDone := ticket.bytesTotal, state := .committing })) := fun {_} =>
    sends_ticket sendId (fun ticket =>
      { ticket with bytesDone := ticket.bytesTotal, state := .committing })
      (fun _ => rfl) (.inr nofun) (.refl _) hub.core.destQueues
  simp only [rdmaWriteFinished]
  split
  · exact ticket.say id fun _ _ => trivial
  · next found =>
    refine .say (ticket.trans (sends_sender (sender_listed found).1 ?_)) ?_ ?_
    · exact ⟨rfl, id⟩
    · exact id
    · exact fun _ _ => trivial

theorem handle_nack_sends {code : NackCode} (listed : machine ∈ hub.core.senders) :
    Leaves (handleNack now machine code hub) (Sends acked hands hub) := by
  unfold handleNack
  split_ifs
  · exact finish_sender_sends _ _ (.inr (by decide))
  have counted : Sends acked False hub (hub.setCore (hub.core.setSender
      { machine with tries := machine.tries + 1 })) := sends_sender listed ⟨rfl, id⟩
  simp only
  split_ifs
  · exact sends_after counted (finish_sender_sends _ _ (.inr (by decide)))
  · exact sends_sender listed ⟨rfl, id⟩

theorem tick_sender_sends (acked : SendId → Prop) :
    Leaves (tickSender now hub sendId) (Sends acked False hub) := by
  unfold tickSender
  split
  · exact .refl hub
  next machine found =>
  have listed := (sender_listed found).1
  simp only
  split_ifs
  · exact open_send_sends listed ⟨rfl, id⟩
  · exact finish_sender_sends _ _ (.inr (by decide))
  · refine Sends.say (sends_sender listed ?_) ?_ ?_
    · exact ⟨rfl, id⟩
    · exact id
    · exact fun _ _ => trivial
  · exact finish_sender_sends _ _ (.inr (by decide))
  · exact finish_sender_sends _ _ (.inr (by decide))
  · exact .refl hub

theorem tick_senders_sends (now : ℚ) (hub : Hub) (acked : SendId → Prop) :
    Leaves ((hub.core.senders.map (·.sendId)).foldlM (tickSender now) hub) (Sends acked False hub) :=
  ensures_foldlM_const _ _ (fun _ _ _ held => sends_after held (tick_sender_sends acked)) _
    (.refl hub)

/-- The hub of a link that goes down, before its senders end. -/
abbrev Hub.aborted (hub : Hub) : Hub :=
  hub.core.receivers.foldl (fun hub machine => abortReceiver machine hub) hub

theorem drop_hub_sends (acked : SendId → Prop) :
    Leaves (dropHub now hub) (Sends acked False hub.aborted) := by
  refine ensures_foldlM_const _ _ (fun sendId _ next held => ?_) _ (.refl _)
  split
  · exact held
  · exact sends_after held (finish_sender_sends acked False (.inr (by decide)))

/-- Replies are handled by the sending half; only an acknowledgement ends a transfer well. -/
theorem handle_reply_sends (reply : message.IsReply) : Leaves (handle now message payload hub) (Sends (fun sendId => message = .doneAck sendId) True hub) := by
  cases message with
  | rts | chunk | done => exact reply.elim
  | cts =>
    simp only [handle]
    split
    · next found =>
      split
      · exact .refl hub
      · exact handle_clearance_sends (sender_listed found).1
    · exact .refl hub
  | addr sendId raddr rkey =>
    simp only [handle]
    split
    · next machine found =>
      split
      · exact .refl hub
      next uncleared =>
      split
      · -- the transfer is handed to a writer, and is cleared from now on
        have set : Sends (fun acked => Message.addr sendId raddr rkey = .doneAck acked) False hub
            (hub.setCore (hub.core.setSender { machine with cleared := true, lastProgress := now })) :=
          sends_sender (sender_listed found).1 ⟨rfl, nofun⟩
        have ticket : Sends _ True hub _ := set.trans (sends_ticket sendId
          (fun ticket => { ticket with state := .moving }) (fun _ => rfl) (.inr nofun) (.refl _)
          hub.core.destQueues)
        refine { ticket with spawned := .inr ⟨trivial, _, rfl, ⟨machine, (sender_listed found).1,
          (sender_listed found).2, by simpa using uncleared⟩, ?_⟩ }
        intro other mem same
        rcases mem_update mem with rfl | ⟨_, apart⟩
        · rfl
        · exact absurd (same.trans (sender_listed found).2.symm) apart
      · exact handle_clearance_sends (sender_listed found).1
    · exact .refl hub
  | nack =>
    simp only [handle]
    split
    · next found => exact handle_nack_sends (sender_listed found).1
    · exact .refl hub
  | doneAck sendId =>
    simp only [handle]
    split
    · next machine found =>
      have key := lookup_key found
      exact finish_sender_sends _ _ (.inl (by rw [key]))
    · exact .refl hub

/-! ### the receiving half -/

theorem receiver_side_receivers {receivers : List ReceiverMachine} {env : Env}
    (objects : env.store.objects = hub.env.store.objects) :
    ReceiverSide hub { hub with env := env, core := { hub.core with receivers := receivers } } :=
  ⟨rfl, rfl, rfl, rfl, fun _ => .inl, objects, rfl⟩

theorem commit_done_side : ReceiverSide hub (commitDone sendId hub) := by
  have remembered : ∀ receivers completed forgotten, ReceiverSide hub (hub.setCore { hub.core with
      receivers := receivers, completed := completed, forgotten := forgotten }) :=
    fun _ _ _ => ⟨rfl, rfl, rfl, rfl, fun _ => .inl, rfl, rfl⟩
  unfold commitDone
  split
  · exact .refl hub
  · exact (remembered _ _ _).send trivial

/-- What is reserved and not released or adopted yet. -/
structure Hold where
  rid : Nat
  extent : Extent
  length : Nat
  deriving DecidableEq

def Reservation.hold (res : Reservation) : Hold := ⟨res.rid, res.extent, res.length⟩

theorem try_reserve_cases {nbytes : Nat} {res : Reservation}
    {next : Env} (reserved : tryReserve destId nbytes overwrite hub = .ok (res, next)) :
    ∃ extent allocator, hub.env.store.allocator.alloc nbytes = some (extent, allocator) ∧
      res.hold = ⟨hub.env.nextRid, extent, nbytes⟩ ∧ res.destId = destId ∧
      (hub.rdmaReady = false → res.raddr = 0) ∧
      next.store = { hub.env.store with allocator := allocator } ∧ next.fifo = hub.env.fifo ∧
      next.nextRid = hub.env.nextRid + 1 ∧ next.releases = hub.env.releases ∧
      next.adoptions = hub.env.adoptions := by
  unfold tryReserve at reserved
  simp only at reserved
  split at reserved
  · cases reserved
  split at reserved
  · cases reserved
  next extent store found =>
  cases reserved
  have allocated : ∃ allocator, hub.env.store.allocator.alloc nbytes = some (extent, allocator) ∧
      store = { hub.env.store with allocator := allocator } := by
    unfold Store.reserveInbound at found
    cases allocation : hub.env.store.allocator.alloc nbytes with
    | none =>
      simp only [allocation] at found
      split at found
      · cases found
      · split_ifs at found
    | some pair =>
      obtain ⟨got, allocator⟩ := pair
      simp only [allocation] at found
      split at found
      · cases found
        exact ⟨allocator, rfl, rfl⟩
      · split_ifs at found
        cases found
        exact ⟨allocator, rfl, rfl⟩
  obtain ⟨allocator, allocation, rfl⟩ := allocated
  refine ⟨extent, allocator, allocation, rfl, rfl, ?_, rfl, rfl, rfl, rfl, rfl⟩
  intro off
  simp [off]

def ReceiverMachine.Fits (machine : ReceiverMachine) : Prop :=
  machine.received ≤ machine.res.length ∧ machine.expectBytes = machine.res.length

def Bounded (hub : Hub) : Prop := ∀ machine ∈ hub.core.receivers, machine.Fits

/-- An eager RTS carries its bytes. -/
def Message.Carries : Message → Bytes → Prop
  | .rts _ _ bytes _ _ eager, payload => eager = true → payload.length = bytes
  | _, _ => True

/-- What the receiving half does with a message, one change after the other. -/
inductive Receives (now : ℚ) (message : Message) (hub : Hub) : Hub → Prop
  | refl : Receives now message hub hub
  | reserve {destId : String} {bytes : Nat} {overwrite : Bool} {res : Reservation} {env : Env} :
    tryReserve destId bytes overwrite hub = .ok (res, env) →
    Receives now message hub { hub with env := env }
  | accept {next : Hub} {machine : ReceiverMachine} {bytes : Nat} {info : Info}
    {overwrite eager : Bool} : Receives now message hub next → machine.Fits →
    message = .rts machine.sendId machine.res.destId bytes info overwrite eager →
    Receives now message hub
      (next.setCore { next.core with receivers := next.core.receivers ++ [machine] })
  | reply {next : Hub} {answer : Message} : Receives now message hub next → answer.IsReply →
    (∀ sendId, answer = .doneAck sendId → sendId ∈ next.core.completed) →
    Receives now message hub (next.send answer)
  | land {next : Hub} (offset : Int) (data : Bytes) : Receives now message hub next →
    Receives now message hub { next with env := next.env.writeSlab offset data }
  | write {next : Hub} {old machine : ReceiverMachine} : Receives now message hub next →
    old ∈ next.core.receivers → machine.sendId = old.sendId →
    machine.res.destId = old.res.destId → (old.Fits → machine.Fits) →
    Receives now message hub (next.setCore (next.core.setReceiver machine))
  | abort {next : Hub} (machine : ReceiverMachine) : Receives now message hub next →
    Receives now message hub (abortReceiver machine next)
  | commit {next : Hub} {machine : ReceiverMachine} : Receives now message hub next →
    machine ∈ next.core.receivers → Receives now message hub (finishCommit now machine next)

theorem Receives.side (receives : Receives now message hub next) : ReceiverSide hub next := by
  induction receives with
  | refl => exact .refl hub
  | reserve reserved =>
    obtain ⟨_, _, _, _, _, _, store, _⟩ := try_reserve_cases reserved
    have objects := congrArg Store.objects store
    exact receiver_side_receivers objects
  | reply _ reply _ side => exact side.send reply
  | accept _ _ _ side | land _ _ _ side | write _ _ _ _ _ side | abort _ _ side
  | commit _ _ side => exact side.trans (receiver_side_receivers rfl)

theorem Receives.bounded (receives : Receives now message hub next) (bounded : Bounded hub) :
    Bounded next := by
  induction receives with
  | refl | reserve => exact bounded
  | reply _ _ _ held | land _ _ _ held => exact held
  | accept _ fits _ held => exact forall_mem_concat held fits
  | write _ listed _ _ keeps held => exact forall_mem_write held (keeps (held _ listed))
  | abort _ _ held => exact fun machine mem => held machine (mem_of_mem_filter mem)
  | @commit _ machine _ listed held =>
    have fits : machine.Fits := held machine listed
    exact forall_mem_write held fits

/-- It raises only over a receiver or an eager payload that does not fit. -/
abbrev Receiving (now : ℚ) (message : Message) (payload : Bytes) (hub : Hub)
    (run : CoreRun Hub) : Prop :=
  Ensures run (Receives now message hub)
    fun _ next => Receives now message hub next ∧ ¬(Bounded hub ∧ message.Carries payload)

theorem handle_rts_receives {bytes : Nat} {info : Info} {eager : Bool} :
    Receiving now (.rts sendId destId bytes info overwrite eager) payload hub
      (handleRts now sendId destId bytes info overwrite eager payload hub) := by
  unfold handleRts
  split
  · next seen =>
    refine .reply .refl trivial ?_
    rintro other ⟨⟩
    exact seen
  split
  · exact .refl
  split
  · exact .reply .refl trivial nofun
  next res env reserved =>
  obtain ⟨_, _, _, hold, rfl, _⟩ := try_reserve_cases reserved
  have length := congrArg Hold.length hold
  split_ifs with direct whole
  · exact .commit (.accept (.land _ _ (.reserve reserved)) ⟨Nat.zero_le _, length.symm⟩ rfl)
      (mem_append_right _ mem_cons_self)
  · exact ⟨.reserve reserved, fun fine => whole ((fine.2 direct).trans length.symm)⟩
  · exact .reply (.accept (.reserve reserved) ⟨Nat.zero_le _, length.symm⟩ rfl) trivial nofun
  · exact .reply (.accept (.reserve reserved) ⟨Nat.zero_le _, length.symm⟩ rfl) trivial nofun

theorem handle_chunk_receives :
    Receiving now message payload hub (handleChunk now sendId seq none [] hub) := by
  unfold handleChunk
  split
  · exact .refl
  next machine found =>
  have listed := lookup_mem found
  split_ifs with _ room
  · exact .abort machine .refl
  · exact .write (.land _ _ .refl) listed rfl rfl id
  · exact ⟨.refl, fun fine => room (fine.1 machine listed).1⟩

theorem land_chunk_receives :
    Receiving now message payload hub (landChunk now sendId seq payload hub) := by
  unfold landChunk
  split
  · next machine found =>
    split_ifs with expected
    · unfold handleChunk
      simp only [found, expected.1, ne_eq, not_true_eq_false, ↓reduceIte]
      exact .write (.land _ _ .refl) (lookup_mem found) rfl rfl
        fun fits => ⟨fits.2 ▸ expected.2.2, fits.2⟩
    · exact handle_chunk_receives
  · exact handle_chunk_receives

theorem handle_done_receives {checksum : Nat} :
    Receives now message hub (handleDone now sendId checksum hub) := by
  unfold handleDone
  split
  · next seen =>
    refine .reply .refl trivial ?_
    rintro other ⟨⟩
    exact seen
  split
  · exact .refl
  next machine found =>
  obtain rfl := lookup_key found
  -- counted or not, the machine keeps its id and its reservation
  have judged : ∀ counted : ReceiverMachine, counted.sendId = machine.sendId →
      counted.res.destId = machine.res.destId → (machine.Fits → counted.Fits) →
      ∀ short wrong : Prop, [Decidable short] → [Decidable wrong] → Receives now message hub (
        if short then abortReceiver counted (hub.setCore (hub.core.setReceiver counted))
        else if wrong then abortReceiver counted (hub.setCore (hub.core.setReceiver counted))
        else finishCommit now counted (hub.setCore (hub.core.setReceiver counted))) := by
    intro counted id dest fits short wrong _ _
    have written : Receives now message hub (hub.setCore (hub.core.setReceiver counted)) :=
      .write .refl (lookup_mem found) id dest fits
    split_ifs
    · exact .abort _ written
    · exact .abort _ written
    · exact .commit written (mem_write (id ▸ found))
  by_cases remote : machine.res.raddr = 0
  · simp only [remote, ne_eq, not_true_eq_false, if_false]
    exact judged machine rfl rfl id _ _
  · simp only [remote, ne_eq, not_false_eq_true, if_true]
    exact judged { machine with received := machine.expectBytes } rfl rfl
      (fun fits => ⟨Nat.le_of_eq fits.2, fits.2⟩) _ _

theorem handle_receives (asks : ¬message.IsReply) :
    Receiving now message payload hub (handle now message payload hub) := by
  cases message with
  | rts => exact handle_rts_receives
  | chunk =>
    simp only [handle]
    split
    · exact handle_chunk_receives
    · exact land_chunk_receives
  | done => exact handle_done_receives
  | cts | addr | nack | doneAck => exact (asks trivial).elim

theorem tick_receiver_cases (now : ℚ) (hub : Hub) (machine : ReceiverMachine) :
    tickReceiver now hub machine = hub ∨ machine.committing = false ∧
      tickReceiver now hub machine = abortReceiver machine hub := by
  unfold tickReceiver
  split_ifs with busy
  · exact .inl rfl
  · exact .inr ⟨by simpa using busy, rfl⟩
  · exact .inl rfl

theorem tick_receivers_side (now : ℚ) (machines : List ReceiverMachine) (hub : Hub) :
    ReceiverSide hub (machines.foldl (tickReceiver now) hub) :=
  foldlRecOn machines _ (.refl hub) fun next held machine _ => by
    rcases tick_receiver_cases now next machine with same | ⟨_, same⟩
    · exact same.symm ▸ held
    · exact same.symm ▸ held.trans (receiver_side_receivers rfl)

/-! ### whole entry points -/

theorem handle_works :
    Leaves (handle now message payload hub) (Works True hub) := by
  by_cases reply : message.IsReply
  · exact leaves_mono (handle_reply_sends reply) fun _ => Sends.toWorks
  · exact ensures_mono (handle_receives reply) (fun _ receives => receives.side.works)
      fun _ _ both => both.1.side.works

theorem tick_works : Leaves (tick now hub) (Works hands hub) := by
  refine ensures_bind (ensures_mono (tick_senders_sends now hub fun _ => False) (fun _ => Sends.toWorks)
    fun _ _ sends => sends.toWorks.mono) fun ticked held => ?_
  exact held.trans (tick_receivers_side now ticked.core.receivers ticked).works

theorem finish_sender_works :
    Leaves (finishSender now machine state error hub) (Works hands hub) :=
  leaves_mono (finish_sender_sends (fun _ => True) hands (.inl trivial)) fun _ => Sends.toWorks

theorem rdma_write_finished_works : Works hands hub (rdmaWriteFinished now sendId hub) := by
  have sends : Sends (fun _ => False) hands hub (rdmaWriteFinished now sendId hub) :=
    rdma_write_finished_sends
  exact sends.toWorks

theorem aborted_side : ReceiverSide hub hub.aborted :=
  foldlRecOn hub.core.receivers _ (.refl hub)
    fun _ fine _ _ => fine.trans (receiver_side_receivers rfl)

theorem drop_hub_works : Leaves (dropHub now hub) (Works hands hub) :=
  leaves_mono (drop_hub_sends fun _ => False) fun _ sends =>
    (aborted_side.works.trans sends.toWorks).mono

end Halves

/-! ### the frames a core sends -/

/-- The books of a core about its sends. -/
structure Core.Sound (core : Core) : Prop where
  distinct : (core.starts.map (·.sendId)).Nodup
  numbered : ∀ start ∈ core.starts, start.sendId ≤ core.seq
  senders : ∀ machine ∈ core.senders, machine.start ∈ core.starts
  tickets : ∀ ticket ∈ core.tickets, ∃ start ∈ core.starts,
    start.sendId = ticket.sendId ∧ start.destId = ticket.destId

/-- What holds of a core that has run from `base` on. -/
structure Spoken (base hub : Hub) : Prop where
  config : hub.core.config = base.core.config
  grown : ∀ start ∈ base.core.starts, start ∈ hub.core.starts
  sound : hub.core.Sound
  genuine : ∀ frame ∈ hub.out, Genuine hub.core.starts hub.core.config.chunkBytes frame

section Frames

variable {base hub next : Hub} {machine : SenderMachine} {now : ℚ} {frame : Message × Bytes}
  {sendId : SendId} {message : Message} {payload : Bytes}

theorem Spoken.refl (sound : hub.core.Sound) (silent : hub.out = []) : Spoken hub hub :=
  ⟨rfl, fun _ => id, sound, fun _ mem => by rw [silent] at mem; cases mem⟩

theorem Spoken.works (spoken : Spoken base hub) (works : Works True hub next) : Spoken base next where
  config := works.config.trans spoken.config
  grown := works.starts ▸ spoken.grown
  sound := by
    constructor
    · exact works.starts ▸ spoken.sound.distinct
    · rw [works.starts, works.seq]
      exact spoken.sound.numbered
    · intro machine mem
      obtain ⟨old, listed, continues⟩ := works.senders machine mem
      rw [works.starts, continues.start]
      exact spoken.sound.senders old listed
    · intro ticket mem
      have named := works.names ▸ mem_map_of_mem mem
      obtain ⟨old, listed, same⟩ := mem_map.mp named
      obtain ⟨start, known, id, dest⟩ := spoken.sound.tickets old listed
      rw [works.starts]
      exact ⟨start, known, id.trans (congrArg Prod.fst same), dest.trans (congrArg Prod.snd same)⟩
  genuine frame mem := by
    rw [works.starts, works.config]
    exact (works.said frame mem).elim (spoken.genuine frame)
      fun speaks => speaks _ spoken.sound.senders

variable {destId : String} {overwrite : Bool} {info : Info}

theorem start_send_spoken (spoken : Spoken base hub)
    : Spoken base (startSend now destId payload overwrite info hub) := by
  have fresh : ∀ start ∈ hub.core.starts, start.sendId ≠ hub.core.seq + 1 := by
    intro start mem same
    exact absurd (spoken.sound.numbered start mem) (same ▸ Nat.not_succ_le_self _)
  have started : ∀ queues, Spoken base (hub.setCore { hub.core with
      seq := hub.core.seq + 1
      senders := hub.core.senders ++
        [{ sendId := hub.core.seq + 1, destId := destId, payload := payload
           overwrite := overwrite, info := info, lastProgress := now }]
      destQueues := queues
      tickets := hub.core.tickets ++
        [{ sendId := hub.core.seq + 1, destId := destId, bytesTotal := payload.length }]
      starts := hub.core.starts ++ [⟨hub.core.seq + 1, destId, payload⟩] }) := by
    intro queues
    refine ⟨spoken.config, ?_, ⟨?_, ?_, ?_, ?_⟩, ?_⟩
    · exact fun start mem => mem_append_left _ (spoken.grown start mem)
    · exact keys_append_nodup spoken.sound.distinct fresh
    · exact forall_mem_concat (fun start old => Nat.le_succ_of_le (spoken.sound.numbered start old))
        (le_refl (hub.core.seq + 1))
    · intro other mem
      rcases mem_append.mp mem with old | new
      · exact mem_append_left _ (spoken.sound.senders other old)
      · obtain rfl := mem_singleton.mp new
        exact mem_append_right _ mem_cons_self
    · intro ticket mem
      rcases mem_append.mp mem with old | new
      · obtain ⟨start, known, same⟩ := spoken.sound.tickets ticket old
        exact ⟨start, mem_append_left _ known, same⟩
      · obtain rfl := mem_singleton.mp new
        exact ⟨_, mem_append_right _ mem_cons_self, rfl, rfl⟩
    · intro frame mem
      exact (spoken.genuine frame mem).mono fun start listed => mem_append_left _ listed
  simp only [startSend]
  split_ifs
  · have opened : ∀ started : Hub, ∀ machine ∈ started.core.senders,
        Sends (fun _ => False) False started (openSend now machine started) :=
      fun _ machine listed => open_send_sends listed (.refl machine)
    exact (started _).works (opened _ _ (mem_append_right _ mem_cons_self)).toWorks.mono
  · exact started _

theorem start_send_side {acked : SendId → Prop} :
    SenderSide acked hub (startSend now destId payload overwrite info hub) := by
  have started : ∀ senders queues starts, SenderSide acked hub (hub.setCore { hub.core with
      seq := hub.core.seq + 1
      senders := senders
      destQueues := queues
      tickets := hub.core.tickets ++
        [{ sendId := hub.core.seq + 1, destId := destId, bytesTotal := payload.length }]
      starts := starts }) := by
    intro senders queues starts
    refine ⟨rfl, rfl, rfl, rfl, rfl, rfl, rfl, fun _ => .inl, ?_⟩
    intro ticket mem done
    rcases mem_append.mp mem with old | new
    · exact .inr ⟨ticket, old, rfl, done⟩
    · obtain rfl := mem_singleton.mp new
      cases done
  simp only [startSend]
  split_ifs
  · have opened : ∀ started : Hub, ∀ machine ∈ started.core.senders,
        Sends acked False started (openSend now machine started) :=
      fun _ machine listed => open_send_sends listed (.refl machine)
    exact (started _ _ _).trans (opened _ _ (mem_append_right _ mem_cons_self)).toSenderSide
  · exact started _ _ _

theorem ensures_reached {run : CoreRun Hub} {post : Hub → Prop}
    (holds : Leaves run post) : post (reached run) := by
  cases run with
  | ok hub => exact holds
  | error pair => exact holds

end Frames

end Dataflow.Peer
