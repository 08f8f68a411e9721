import Dataflow.PeerExactlyOnce

/-!
The status rows and source pointers of a daemon, after `NetworkManager` in
`service/peer/nm.py`. Each link numbers its sends from one, but the two tables
are shared by all links of the daemon: a row or a pointer belongs to whichever
send of that number was started last. As long as no two transfers of one number
are under way at once, every id names its transfer.
-/

namespace Dataflow.Peer

open StatefulOutcome ByteRanges Service KeyedTable List Function

structure StatusRow where
  sendId : SendId
  peerId : String
  destId : String
  state : TransferState
  bytesTotal : Nat
  bytesDone : Nat := 0
  error : Option String := none
  deriving DecidableEq

/-- History: the source pointer of a transfer, as registered or as read. -/
structure Pointer where
  conn : Nat
  sendId : SendId
  address : Option Int
  deriving DecidableEq

/-- A daemon with its manager's tables, in the world it lives in. -/
structure Desk where
  name : String
  /-- `store.slab is not None`: sends register the address of their object. -/
  slab : Bool
  world : World
  transfers : SendId → Option StatusRow := fun _ => none
  sendSrcPtrs : SendId → Option Int := fun _ => none
  /-- Links whose core has moved and whose rows `after_core_step` has yet to refresh. -/
  owed : List Nat := []
  /-- History. -/
  registered : List Pointer := []
  /-- History. -/
  reads : List Pointer := []

inductive DeskAction where
  /-- Any block of the world; a send of this daemon has its object at `address`. -/
  | step (action : Action) (address : Int)
  /-- `after_core_step` -/
  | refresh (conn : Nat)
  /-- A remote write that raises. -/
  | failWrite (position : Nat) (now : ℚ)

def Core.ticket (core : Core) (sendId : SendId) : Option SenderTicket :=
  lookup SenderTicket.sendId sendId core.tickets

namespace Desk

def daemon (desk : Desk) : Daemon := desk.world.daemons desk.name

/-- `transfer_status`; an unknown id raises. -/
def transferStatus (desk : Desk) (sendId : SendId) : Option StatusRow := desk.transfers sendId

end Desk

/-- `refresh_transfer` -/
def refreshTransfer (rows : SendId → Option StatusRow) (ticket : SenderTicket) :
    SendId → Option StatusRow :=
  match rows ticket.sendId with
  | none => rows
  | some row => update rows ticket.sendId (some { row with
      state := ticket.state, bytesDone := ticket.bytesDone, error := ticket.error })

/-- One turn of `after_core_step`: the error is left alone. -/
def refreshSender (core : Core) (rows : SendId → Option StatusRow) (machine : SenderMachine) :
    SendId → Option StatusRow :=
  match rows machine.sendId, core.ticket machine.sendId with
  | some row, some ticket => update rows machine.sendId (some { row with
      state := ticket.state, bytesDone := ticket.bytesDone })
  | _, _ => rows

/-- The tickets whose machine was popped by `finish_sender`: their `on_finish` has run. -/
def finished (before after : Core) : List SenderTicket :=
  after.tickets.filter fun ticket =>
    (before.sender ticket.sendId).isSome && (after.sender ticket.sendId).isNone

/-- The rows after the cores of a daemon have moved. -/
def relayed (before after : Daemon) (rows : SendId → Option StatusRow) :
    SendId → Option StatusRow :=
  after.links.foldl (fun rows link =>
    match before.link link.conn with
    | none => rows
    | some old => (finished old.core link.core).foldl refreshTransfer rows) rows

def Desk.observe (desk : Desk) (world : World) : Desk :=
  { desk with
    world := world
    transfers := relayed desk.daemon (world.daemons desk.name) desk.transfers }

/-- Links of this daemon whose reader or housekeeper will call `after_core_step`. -/
def owes (name : String) : Action → List Nat
  | .deliver daemon conn _ _ | .tick daemon conn _ => if daemon = name then [conn] else []
  | _ => []

/-- `start_send` -/
def Desk.startSend (desk : Desk) (action : Action) (link : Link) (destId : String) (payload : Bytes)
    (address : Int) : Desk :=
  let sendId := link.core.seq + 1
  let srcPtr := if desk.slab then some address else none
  { desk with
    world := act desk.world action
    transfers := update desk.transfers sendId (some
      { sendId := sendId, peerId := link.peer, destId := destId, state := .negotiating
        bytesTotal := payload.length })
    sendSrcPtrs := match srcPtr with
      | none => desk.sendSrcPtrs
      | some address => update desk.sendSrcPtrs sendId (some address)
    registered := desk.registered ++
      [{ conn := link.conn, sendId := sendId, address := srcPtr }] }

/-- The writer thread gives up: its transfer ends in error and the link goes down, unless
ending the transfer raises. -/
def failWrite (now : ℚ) (world : World) (name : String) (link : Link) (sendId : SendId) : World :=
  let daemon := world.daemons name
  let hub := daemon.hub link
  let down (failed : Hub) :=
    let left := world.settle daemon link failed
    dropLink now left (left.daemons name) { link with core := failed.core }
  match hub.core.sender sendId with
  | none => down (hub.setCore (hub.core.setTicket sendId fun ticket =>
    { ticket with state := .error, error := some "TRANSFER_ABORTED rdma" }))
  | some machine =>
    match finishSender now machine .error (some "TRANSFER_ABORTED rdma") hub with
    | .ok failed => down failed
    | .error (_, failed) => world.settle daemon link failed

/-- `RdmaWriterHook.run`: the pointer is taken from the table by the number of the send. -/
def Desk.write (desk : Desk) (position : Nat) (now : ℚ) (raises : Bool) : Desk :=
  match desk.daemon.writers[position]? with
  | none => desk
  | some (conn, write) =>
    let srcPtr := desk.sendSrcPtrs write.sendId
    let taken : Desk := { desk with
      sendSrcPtrs := update desk.sendSrcPtrs write.sendId none
      reads := desk.reads ++ [{ conn := conn, sendId := write.sendId, address := srcPtr }] }
    let issued := desk.world.set { desk.daemon with
      writers := desk.daemon.writers.eraseIdx position }
    match desk.daemon.link conn with
    | none => taken.observe issued
    | some link =>
      if srcPtr.isNone ∨ raises then
        let told := taken.observe (failWrite now issued desk.name link write.sendId)
        -- a transfer that had ended already is reported once more
        match link.core.sender write.sendId, link.core.ticket write.sendId with
        | none, some ticket => { told with
            transfers := refreshTransfer told.transfers
              { ticket with state := .error, error := some "TRANSFER_ABORTED rdma" } }
        | _, _ => told
      else { taken.observe (Peer.act desk.world (.rdmaWrite desk.name position now)) with
        owed := conn :: desk.owed }

def Desk.act (desk : Desk) : DeskAction → Desk
  | .step (.send name peer now destId payload overwrite info) address =>
    if name = desk.name then
      match (desk.daemon.registered peer).bind desk.daemon.link with
      | none => desk
      | some link => desk.startSend (.send name peer now destId payload overwrite info) link destId
          payload address
    else desk.observe (Peer.act desk.world (.send name peer now destId payload overwrite info))
  | .step (.rdmaWrite name position now) _ =>
    if name = desk.name then desk.write position now false
    else desk.observe (Peer.act desk.world (.rdmaWrite name position now))
  | .step action _ =>
    { desk.observe (Peer.act desk.world action) with owed := owes desk.name action ++ desk.owed }
  | .refresh conn =>
    match desk.daemon.link conn with
    | none => desk
    | some link =>
      { desk with
        transfers := link.core.senders.foldl (refreshSender link.core) desk.transfers
        owed := desk.owed.filter (· ≠ conn) }
  | .failWrite position now => desk.write position now true

def Desk.run (desk : Desk) (actions : List DeskAction) : Desk := actions.foldl Desk.act desk

/-! ### the senders of a core -/

/-- The tickets of the remaining senders are as they were. -/
def Calm (base hub : Hub) : Prop :=
  ∀ machine ∈ hub.core.senders, hub.core.ticket machine.sendId = base.core.ticket machine.sendId

def Ends (base hub : Hub) : Prop := Works False base hub ∧ Calm base hub

/-- Core code that starts one transfer. -/
structure Opened (destId : String) (base hub : Hub) : Prop where
  seq : hub.core.seq = base.core.seq + 1
  senders : ∀ machine ∈ hub.core.senders, (∃ old ∈ base.core.senders, Continues old machine) ∨
    machine.sendId = base.core.seq + 1 ∧ machine.destId = destId
  tickets : ∃ total, hub.core.tickets = base.core.tickets ++
    [{ sendId := base.core.seq + 1, destId := destId, bytesTotal := total }]
  spawned : hub.spawned = base.spawned

section Hubs

variable {base hub next : Hub} {machine written : SenderMachine} {now : ℚ} {sendId : SendId}
  {message : Message} {payload : Bytes}

theorem Works.keys {hands : Prop} (works : Works hands base hub) :
    hub.core.tickets.map (·.sendId) = base.core.tickets.map (·.sendId) := by
  have keys := congrArg (map Prod.fst) works.names
  rwa [map_map, map_map] at keys

theorem Continues.stays_cleared (continues : Continues machine written)
    (cleared : machine.cleared = true) : written.cleared = true := by
  by_contra uncleared
  have still := continues.cleared (by simpa using uncleared)
  rw [cleared] at still
  cases still

theorem ticket_set_other {core : Core} {change : SenderTicket → SenderTicket} {other : SendId}
    (keeps : ∀ ticket, (change ticket).sendId = ticket.sendId) (ne : other ≠ sendId) :
    (core.setTicket sendId change).ticket other = core.ticket other :=
  lookup_update_other keeps ne

theorem Calm.carry {hands : Prop} (calm : Calm base hub) (works : Works hands hub next)
    (tickets : next.core.tickets = hub.core.tickets) : Calm base next := by
  intro machine mem
  obtain ⟨old, listed, continues⟩ := works.senders machine mem
  have before := calm old listed
  unfold Core.ticket at before ⊢
  rw [tickets, continues.sendId, before]

theorem Ends.trans (first : Ends base hub) (second : Ends hub next) : Ends base next := by
  refine ⟨first.1.trans second.1, fun machine mem => ?_⟩
  obtain ⟨old, listed, continues⟩ := second.1.senders machine mem
  rw [second.2 machine mem, continues.sendId, first.2 old listed]

theorem open_send_tickets : (openSend now machine hub).core.tickets = hub.core.tickets := by
  simp only [openSend]
  split_ifs <;> rfl

theorem finish_sender_ends {state : TransferState} {error : Option String} :
    Leaves (finishSender now machine state error hub) (Ends hub) := by
  have popped : ∀ queues, Calm hub (hub.setCore { hub.core.setTicket machine.sendId
      (fun ticket => { ticket with state := state, error := error }) with
        senders := remove SenderMachine.sendId machine.sendId hub.core.senders
        destQueues := queues }) := by
    intro queues other mem
    have ne : other.sendId ≠ machine.sendId := by
      simpa using (mem_filter.mp mem).2
    exact ticket_set_other (fun _ => rfl) ne
  have opened : ∀ {hub : Hub} {waiting : SenderMachine}, waiting ∈ hub.core.senders →
      Sends (fun _ => False) False hub (openSend now waiting hub) :=
    fun listed => open_send_sends listed (.refl _)
  refine ensures_mono (ensures_and finish_sender_works ?calm) (fun _ => id) fun _ _ => id
  simp only [finishSender]
  split
  · split_ifs
    · split
      · exact popped _
      split
      · exact popped _
      · next waiting found =>
        exact (popped _).carry (opened (sender_listed found).1).toWorks open_send_tickets
    · exact popped hub.core.destQueues
  · exact popped hub.core.destQueues

theorem start_send_opened {destId : String} {overwrite : Bool} {info : Info} :
    Opened destId hub (startSend now destId payload overwrite info hub) := by
  have added : ∀ machine : SenderMachine, machine.sendId = hub.core.seq + 1 → machine.destId = destId →
      ∀ other ∈ hub.core.senders ++ [machine], (∃ old ∈ hub.core.senders, Continues old other) ∨
        other.sendId = hub.core.seq + 1 ∧ other.destId = destId := by
    intro machine id dest other mem
    rcases mem_append.mp mem with old | new
    · exact .inl ⟨other, old, .refl other⟩
    · rw [mem_singleton.mp new]
      exact .inr ⟨id, dest⟩
  simp only [startSend]
  split_ifs
  · simp only [openSend]
    split_ifs
    all_goals
      refine ⟨rfl, ?_, ⟨_, rfl⟩, rfl⟩
      intro machine mem
      rcases mem_set_sender mem with old | rfl
      · exact added _ rfl rfl machine old
      · exact .inr ⟨rfl, rfl⟩
  · exact ⟨rfl, fun machine mem => added _ rfl rfl machine mem, ⟨_, rfl⟩, rfl⟩

theorem ReceiverSide.ends (side : ReceiverSide hub next) : Ends hub next := by
  refine ⟨side.works, fun machine _ => ?_⟩
  unfold Core.ticket
  rw [side.core]

theorem drop_hub_ends : Leaves (dropHub now hub) (Ends hub) := by
  refine ensures_foldlM_const _ _ (fun sendId _ next held => ?_) _ aborted_side.ends
  split
  · exact held
  · exact leaves_mono finish_sender_ends fun _ => held.trans

end Hubs

/-! ### the links of a daemon -/

/-- The links of a daemon after a step in which it started nothing. The tickets of a link may
have moved if the link is `touched`. -/
structure Evolved (touched : Nat → Prop) (before after : Daemon) : Prop where
  links : ∀ link ∈ after.links, (link.core.senders = [] ∧ ∀ old ∈ before.links, old.conn ≠ link.conn) ∨
    ∃ old ∈ before.links, old.conn = link.conn ∧ old.peer = link.peer ∧
      old.core.seq = link.core.seq ∧
      old.core.tickets.map (·.sendId) = link.core.tickets.map (·.sendId) ∧
      ∀ machine ∈ link.core.senders, (∃ earlier ∈ old.core.senders, Continues earlier machine) ∧
        (¬ touched link.conn → link.core.ticket machine.sendId = old.core.ticket machine.sendId)
  kept : ∀ old ∈ before.links, ∃ link ∈ after.links, link.conn = old.conn
  writers : after.writers = before.writers ∨ ∃ conn write,
    after.writers = before.writers ++ [(conn, write)] ∧
    (∃ old ∈ before.links, old.conn = conn ∧ ∃ machine ∈ old.core.senders,
      machine.sendId = write.sendId ∧ machine.cleared = false) ∧
    ∀ link ∈ after.links, link.conn = conn → ∀ machine ∈ link.core.senders,
      machine.sendId = write.sendId → machine.cleared = true

section Daemons

variable {touched : Nat → Prop} {before after last : Daemon} {link written : Link} {hub : Hub}

theorem Evolved.same (links : after.links = before.links) (writers : after.writers = before.writers) :
    Evolved touched before after where
  links link mem := .inr ⟨link, links ▸ mem, rfl, rfl, rfl, rfl, fun machine listed =>
    ⟨⟨machine, listed, .refl machine⟩, fun _ => rfl⟩⟩
  kept link mem := ⟨link, links.symm ▸ mem, rfl⟩
  writers := .inl writers

theorem Evolved.settle (mem : link ∈ before.links) (works : Works True (before.hub link) hub)
    (calm : touched link.conn ∨ Calm (before.hub link) hub)
    (links : after.links = rewritten before.links written) (conn : written.conn = link.conn)
    (peer : written.peer = link.peer) (core : written.core = hub.core)
    (writers : after.writers = before.writers ++ hub.spawned.map fun write => (link.conn, write)) :
    Evolved touched before after := by
  constructor
  · rw [links]
    refine forall_mem_write (Evolved.same rfl rfl).links ?_
    rw [core, conn, peer]
    refine .inr ⟨link, mem, rfl, rfl, works.seq.symm, works.keys.symm, fun machine there => ?_⟩
    exact ⟨works.senders machine there, fun quiet => calm.elim (absurd · quiet) (· machine there)⟩
  · rw [links]
    intro old listed
    by_cases here : old.conn = written.conn
    · exact ⟨written, rewritten_mem listed here, here.symm⟩
    · exact ⟨old, mem_rewritten_other listed here, rfl⟩
  · rcases works.spawned with same | ⟨_, write, one, known, cleared⟩
    · rw [same] at writers
      exact .inl (writers.trans (append_nil _))
    rw [one] at writers
    refine .inr ⟨link.conn, write, writers, ⟨link, mem, rfl, known⟩, ?_⟩
    rw [links]
    intro other listed same
    rcases mem_rewritten listed with rfl | ⟨old, apart⟩
    · rw [core]
      exact cleared
    · exact absurd (same.trans conn.symm) apart

theorem Evolved.trans (first : Evolved touched before after) (second : Evolved touched after last)
    (still : last.writers = after.writers) : Evolved touched before last := by
  constructor
  · intro link mem
    rcases second.links link mem with ⟨empty, fresh⟩ | ⟨middle, there, conn, peer, seq, keys, senders⟩
    · refine .inl ⟨empty, ?_⟩
      intro old listed same
      obtain ⟨middle, there, conn⟩ := first.kept old listed
      exact fresh middle there (conn.trans same)
    rcases first.links middle there with ⟨empty, fresh⟩ | ⟨old, listed, conn', peer', seq', keys', senders'⟩
    · refine .inl ⟨eq_nil_iff_forall_not_mem.mpr ?_, conn ▸ fresh⟩
      intro machine listed
      obtain ⟨⟨earlier, known, _⟩, _⟩ := senders machine listed
      rw [empty] at known
      cases known
    refine .inr ⟨old, listed, conn'.trans conn, peer'.trans peer, seq'.trans seq, keys'.trans keys, ?_⟩
    intro machine running
    obtain ⟨⟨middle', known, later⟩, calm⟩ := senders machine running
    obtain ⟨⟨earlier, known', continues⟩, calm'⟩ := senders' middle' known
    refine ⟨⟨earlier, known', later.start.trans continues.start,
      fun uncleared => continues.cleared (later.cleared uncleared)⟩, fun quiet => ?_⟩
    rw [calm quiet, later.sendId]
    exact calm' (conn ▸ quiet)
  · intro old listed
    obtain ⟨middle, there, conn⟩ := first.kept old listed
    obtain ⟨link, mem, conn'⟩ := second.kept middle there
    exact ⟨link, mem, conn'.trans conn⟩
  · rw [still]
    refine first.writers.imp_right ?_
    rintro ⟨conn, write, more, known, cleared⟩
    refine ⟨conn, write, more, known, ?_⟩
    intro link mem same machine running id
    rcases second.links link mem with ⟨empty, _⟩ | ⟨middle, there, sameConn, _, _, _, senders⟩
    · rw [empty] at running
      cases running
    obtain ⟨⟨earlier, known, continues⟩, _⟩ := senders machine running
    exact continues.stays_cleared (cleared middle there (sameConn.trans same) earlier known
      (continues.sendId.symm.trans id))

theorem Evolved.extend {offer : Offer} (evolved : Evolved touched before after)
    (unused : ∀ link ∈ before.links, link.conn ≠ offer.conn) :
    Evolved touched before (extended after offer) := by
  constructor
  · exact forall_mem_concat evolved.links (.inl ⟨rfl, unused⟩)
  · intro old listed
    obtain ⟨link, there, conn⟩ := evolved.kept old listed
    exact ⟨link, mem_append_left _ there, conn⟩
  refine evolved.writers.imp_right ?_
  rintro ⟨conn, write, writers, known, cleared⟩
  refine ⟨conn, write, writers, known, ?_⟩
  exact forall_mem_concat cleared nofun

end Daemons

section Worlds

variable {ends : Nat → String × String} {world : World} {name other : String} {link : Link}
  {touched : Nat → Prop}

theorem Evolved.set {before daemon : Daemon} (named : daemon.name = other)
    (there : Evolved touched before (world name))
    (here : name = other → Evolved touched before daemon) :
    Evolved touched before ((world.set daemon).daemons name) := by
  by_cases hit : name = other
  · rw [set_self (named.trans hit.symm)]
    exact here hit
  · rw [set_other named hit]
    exact there

theorem drop_link_evolved (now : ℚ) (same : (world other).name = other) (name : String)
    (mem : link ∈ (world other).links) : Evolved touched (world name)
      ((dropLink now world (world other) link).daemons name) := by
  by_cases gone : link.alive = false
  · rw [dropLink, if_pos gone]
    exact .same rfl rfl
  rw [drop_link_alive now world _ (by simpa using gone)]
  refine .set same (.same rfl rfl) ?_
  rintro rfl
  have dropped : Ends ((world name).hub link)
    (reached (dropHub now ((world name).hub link))) := ensures_reached drop_hub_ends
  exact .settle mem dropped.1.mono (.inr dropped.2) (update_update rfl) rfl rfl rfl rfl

theorem drop_link_writers (now : ℚ) (same : (world name).name = name) (link : Link) :
    ((dropLink now world (world name) link).daemons name).writers =
      (world name).writers := by
  by_cases gone : link.alive = false
  · rw [dropLink, if_pos gone]
  have named : (closed (world name) link).name = name := same
  have dropped : Works False ((world name).hub link)
    (reached (dropHub now ((world name).hub link))) := ensures_reached drop_hub_works
  rw [drop_link_alive now world _ (by simpa using gone), settle_self named]
  show (world name).writers ++ (reached _).spawned.map _ = _
  rw [dropped.spawned.resolve_right fun never => never.1]
  exact append_nil _

theorem adopt_evolved (now : ℚ) (coherent : Coherent ends world) (name : String) {offer : Offer}
    (mem : offer ∈ world.offers) (holder : offer.holder = other) :
    Evolved touched (world name)
      ((adoptLink now world (world other) offer).daemons name) := by
  have install : ∀ {next : World}, Coherent ends next → offer ∈ next.offers →
      Evolved touched (world name) (next name) →
      Evolved touched (world name) ((installed next other offer).daemons name) := by
    intro next coherent' still evolved
    refine .set (coherent'.named other) evolved ?_
    rintro rfl
    exact evolved.extend (lookup_none.mp (holder ▸ coherent.unadopted offer mem))
  rcases adopt_link_cases now (coherent.named other) offer with
    ⟨_, _, _, same⟩ | ⟨_, same⟩ | ⟨old, found, _, same⟩
  · rw [same]
    exact .same rfl rfl
  · rw [same]
    exact install coherent mem (.same rfl rfl)
  · have listed := (bind_link_listed found).2
    rw [same]
    exact install (drop_link_coherent now coherent listed).coherent
      (offers_drop_link now world _ old ▸ mem) (drop_link_evolved now (coherent.named other) name listed)

/-- A step in which the daemon starts nothing and writes nothing. -/
def Foreign (name : String) : Action → Prop
  | .send daemon .. | .rdmaWrite daemon .. => daemon ≠ name
  | _ => True

theorem act_evolved (coherent : Coherent ends world) {action : Action}
    (foreign : Foreign name action) :
    Evolved (· ∈ owes name action) (world name) ((act world action).daemons name) := by
  -- the code of one link of one daemon
  have run : ∀ {other link hub} {daemon : Daemon}, daemon.name = other →
      daemon.links = (world other).links → daemon.writers = (world other).writers →
      link ∈ (world other).links → Works True ((world other).hub link) hub →
      ((other = name → link.conn ∈ owes name action) ∨ Calm ((world other).hub link) hub) →
      Evolved (· ∈ owes name action) (world name)
        ((world.settle daemon link hub).daemons name) := by
    intro other link hub daemon named links writers mem works calm
    refine .set named (.same rfl rfl) ?_
    rintro rfl
    refine .settle mem works (calm.imp_left (· rfl))
      (congrArg (rewritten · { link with core := hub.core }) links) rfl rfl rfl ?_
    exact congrArg (· ++ hub.spawned.map fun write => (link.conn, write)) writers
  have set : ∀ {other} {daemon : Daemon}, daemon.name = other →
      daemon.links = (world other).links → daemon.writers = (world other).writers →
      Evolved (· ∈ owes name action) (world name) ((world.set daemon).daemons name) := by
    intro other daemon named links writers
    refine .set named (.same rfl rfl) ?_
    rintro rfl
    exact .same links writers
  cases action with
  | connect left right =>
    simp only [act]
    split
    · exact .same rfl rfl
    · exact .same rfl rfl
  | adopt other conn now =>
    simp only [act]
    split
    · exact .same rfl rfl
    next offer found =>
    have keyed := find?_some found
    simp only [decide_eq_true_eq] at keyed
    exact adopt_evolved now coherent name (mem_of_find?_eq_some found) keyed.1
  | drop other conn now =>
    simp only [act]
    split
    · exact .same rfl rfl
    next link found => exact drop_link_evolved now (coherent.named other) name (link_listed found).1
  | send other peer now destId payload overwrite info =>
    simp only [act]
    split
    · exact .same rfl rfl
    next link found =>
    have apart : name ≠ other := fun same => foreign same.symm
    rw [settle_other (coherent.named other) apart]
    exact .same rfl rfl
  | deliver other conn frame now =>
    simp only [act]
    split
    · exact .same rfl rfl
    next link found =>
    obtain ⟨mem, sameConn⟩ := link_listed found
    split
    · exact run (coherent.named other) rfl rfl mem (ensures_reached handle_works)
        (.inl fun same => by simp [owes, same, sameConn])
    · exact .same rfl rfl
  | tick other conn now =>
    simp only [act]
    split
    · exact .same rfl rfl
    next link found =>
    obtain ⟨mem, sameConn⟩ := link_listed found
    exact run (coherent.named other) rfl rfl mem (ensures_reached tick_works)
      (.inl fun same => by simp [owes, same, sameConn])
  | lease other object => exact set (coherent.named other) rfl rfl
  | unlease other object => exact set (coherent.named other) rfl rfl
  | dispatch other =>
    obtain ⟨same, links, _, _⟩ := dispatch_same (world other)
    refine set (same.trans (coherent.named other)) links ?_
    unfold dispatchCommit
    split
    · rfl
    · simp only
      split <;> rfl
  | route other position =>
    obtain ⟨same, links, _, _⟩ := route_same (world other) position
    refine set (same.trans (coherent.named other)) links ?_
    unfold routeLanding
    split <;> rfl
  | land other position =>
    simp only [act]
    rcases land_commit_cases world (world other) position with
      same | ⟨commit, target, _, ⟨_, same⟩ | ⟨link, found, same⟩⟩
    · rw [same]
      exact .same rfl rfl
    · rw [same]
      exact set (coherent.named other) rfl rfl
    have mem := (bind_link_listed found).2
    have told : Ends ((returned (world other) position commit).hub link)
      (commitDone commit.sendId ((returned (world other) position commit).hub link)) :=
      commit_done_side.ends
    rw [same]
    exact run (coherent.named other) rfl rfl mem { told.1.mono with } (.inr told.2)
  | rdmaUp other conn =>
    simp only [act]
    split
    · exact .same rfl rfl
    next link found =>
    refine .set (coherent.named other) (.same rfl rfl) ?_
    rintro rfl
    have still : Works True ((world name).hub link)
      (((world name).hub link).setCore { link.core with rdmaWriter := true }) :=
      { Works.refl _ with }
    exact .settle (link_listed found).1 still (.inr fun _ _ => rfl) rfl rfl rfl rfl
      (append_nil _).symm
  | rdmaWrite other position now =>
    have apart : name ≠ other := fun same => foreign same.symm
    simp only [act]
    rcases write_remote_cases world (world other) position now with
      same | ⟨conn, write, _, ⟨_, same⟩ | ⟨link, store, found, same⟩⟩
    · rw [same]
      exact .same rfl rfl
    · rw [same, set_other _ apart]
      · exact .same rfl rfl
      · exact coherent.named other
    · have issuer : (rewriting (world other)
        ((world other).writers.eraseIdx position)).name = other := coherent.named other
      rw [same, settle_other issuer apart]
      exact set (coherent.named link.peer) rfl rfl

theorem fail_write_coherent (touched : Nat → Prop) (now : ℚ) (coherent : Coherent ends world) (sendId : SendId)
    (mem : link ∈ (world name).links) :
    Coherent ends (failWrite now world name link sendId) ∧
    Evolved touched (world name) ((failWrite now world name link sendId).daemons name) := by
  have begun : Spoken ((world name).hub link) ((world name).hub link) :=
    .refl (coherent.sound name link mem) rfl
  have named := coherent.named name
  -- the transfer has ended, in the core
  have ended : ∀ {hub}, Ends ((world name).hub link) hub →
      Coherent ends (world.settle (world name) link hub) ∧
      Evolved touched (world name)
        ((world.settle (world name) link hub).daemons name) ∧
      ({ link with core := hub.core } : Link) ∈
        ((world.settle (world name) link hub).daemons name).links := by
    intro hub left
    have spoken := begun.works left.1.mono
    refine ⟨(coherent.settle mem named rfl (.inl rfl) rfl rfl rfl spoken).coherent, ?_, ?_⟩
    · rw [settle_self named]
      exact .settle mem left.1.mono (.inr left.2) rfl rfl rfl rfl rfl
    · rw [settle_self named]
      exact rewritten_mem mem rfl
  have down : ∀ {hub}, Ends ((world name).hub link) hub →
      Coherent ends (dropLink now (world.settle (world name) link hub)
        ((world.settle (world name) link hub).daemons name) { link with core := hub.core }) ∧
      Evolved touched (world name) ((dropLink now (world.settle (world name) link hub)
        ((world.settle (world name) link hub).daemons name)
        { link with core := hub.core }).daemons name) := by
    intro hub fewer
    obtain ⟨left, evolved, there⟩ := ended fewer
    refine ⟨(drop_link_coherent now left there).coherent, ?_⟩
    exact evolved.trans (drop_link_evolved now (left.named name) name there)
      (drop_link_writers now (left.named name) _)
  unfold failWrite
  simp only
  split
  · next gone =>
    have told := @sends_ticket ((world name).hub link) (fun _ => False) False sendId
      (fun ticket => { ticket with state := .error, error := some "TRANSFER_ABORTED rdma" })
      (fun _ => rfl) (.inr nofun) link.core.senders (.refl _) link.core.destQueues
    refine down ⟨told.toWorks, fun machine running => ?_⟩
    exact ticket_set_other (fun _ => rfl) (lookup_none.mp gone machine running)
  next machine found =>
  have fewer : Leaves (finishSender now machine .error (some "TRANSFER_ABORTED rdma")
      ((world name).hub link)) (Ends ((world name).hub link)) := finish_sender_ends
  split
  · next failed same =>
    rw [same] at fewer
    exact down fewer
  · next failed same =>
    rw [same] at fewer
    exact ⟨(ended fewer).1, (ended fewer).2.1⟩

end Worlds

/-! ### the tables -/

section Rows

variable {rows : SendId → Option StatusRow} {before after : Daemon} {sendId : SendId}
  {ticket : SenderTicket} {core : Core} {machines : List SenderMachine}

theorem refresh_transfer_other (ne : ticket.sendId ≠ sendId) :
    refreshTransfer rows ticket sendId = rows sendId := by
  cases found : rows ticket.sendId with
  | none => simp only [refreshTransfer, found]
  | some row =>
    simp only [refreshTransfer, found]
    exact update_of_ne ne.symm _ _

theorem foldl_other {Turn : Type} {turns : List Turn}
    {turn : (SendId → Option StatusRow) → Turn → SendId → Option StatusRow}
    (other : ∀ rows, ∀ item ∈ turns, turn rows item sendId = rows sendId) :
    turns.foldl turn rows sendId = rows sendId :=
  foldlRecOn (motive := fun next => next sendId = rows sendId) turns turn rfl
    fun _ same item mem => (other _ item mem).trans same

theorem relayed_other (running : ∀ link ∈ after.links, ∀ old, before.link link.conn = some old →
      (old.core.sender sendId).isSome → (link.core.sender sendId).isSome) :
    relayed before after rows sendId = rows sendId := by
  refine foldl_other fun next link mem => ?_
  cases found : before.link link.conn with
  | none => rfl
  | some old =>
  refine foldl_other fun inner ticket ended => refresh_transfer_other ?_
  rintro rfl
  have parts := (mem_filter.mp ended).2
  simp only [Bool.and_eq_true] at parts
  have still := running link mem old found parts.1
  rw [Option.isNone_iff_eq_none.mp parts.2] at still
  cases still

theorem refresh_sender_other {machine : SenderMachine}
    (ne : machine.sendId ≠ sendId) : refreshSender core rows machine sendId = rows sendId := by
  cases found : rows machine.sendId with
  | none => simp only [refreshSender, found]
  | some row =>
    cases ticket : core.ticket machine.sendId with
    | none => simp only [refreshSender, found, ticket]
    | some ticket' =>
      simp only [refreshSender, found, ticket]
      exact update_of_ne ne.symm _ _

theorem refresh_senders_other
    (absent : ∀ machine ∈ machines, machine.sendId ≠ sendId) :
    machines.foldl (refreshSender core) rows sendId = rows sendId :=
  foldl_other fun _ machine mem => refresh_sender_other (absent machine mem)

theorem refresh_senders_self {row : StatusRow}
    (known : rows sendId = some row) (has : core.ticket sendId = some ticket)
    (listed : ∃ machine ∈ machines, machine.sendId = sendId) :
    machines.foldl (refreshSender core) rows sendId =
      some { row with state := ticket.state, bytesDone := ticket.bytesDone } := by
  induction machines generalizing rows row with
  | nil =>
    obtain ⟨_, none, _⟩ := listed
    cases none
  | cons machine later ih =>
    rw [foldl_cons]
    by_cases hit : machine.sendId = sendId
    · have first : refreshSender core rows machine sendId =
          some { row with state := ticket.state, bytesDone := ticket.bytesDone } := by
        subst hit
        simp only [refreshSender, known, has]
        exact update_self ..
      by_cases again : ∃ machine ∈ later, machine.sendId = sendId
      · exact (ih first again).trans rfl
      · rw [refresh_senders_other fun other mem same => again ⟨other, mem, same⟩]
        exact first
    · have before : refreshSender core rows machine sendId = some row :=
        (refresh_sender_other hit).trans known
      obtain ⟨other, mem, same⟩ := listed
      rcases mem_cons.mp mem with rfl | inside
      · exact absurd same hit
      · exact ih before ⟨other, inside, same⟩

end Rows

/-- Every id names its transfer: the tables and the links agree. -/
structure Named (desk : Desk) (daemon : Daemon) : Prop where
  unique : ∀ left ∈ daemon.links, ∀ right ∈ daemon.links, ∀ machine ∈ left.core.senders,
    ∀ other ∈ right.core.senders, machine.sendId = other.sendId → left.conn = right.conn
  issued : ∀ entry ∈ daemon.writers, ∀ link ∈ daemon.links, ∀ machine ∈ link.core.senders,
    machine.sendId = entry.2.sendId → link.conn = entry.1 ∧ machine.cleared = true
  once : (daemon.writers.map (·.2.sendId)).Nodup
  rows : ∀ link ∈ daemon.links, ∀ machine ∈ link.core.senders, ∃ row,
    desk.transfers machine.sendId = some row ∧ row.sendId = machine.sendId ∧
    row.peerId = link.peer ∧ row.destId = machine.destId ∧
    (link.conn ∉ desk.owed → (link.core.ticket machine.sendId).map (·.state) = some row.state)
  ticketed : ∀ link ∈ daemon.links, ∀ machine ∈ link.core.senders,
    machine.sendId ∈ link.core.tickets.map (·.sendId)
  pointers : ∀ link ∈ daemon.links, ∀ machine ∈ link.core.senders, machine.cleared = false →
    ⟨link.conn, machine.sendId, desk.sendSrcPtrs machine.sendId⟩ ∈ desk.registered
  pending : ∀ entry ∈ daemon.writers,
    ⟨entry.1, entry.2.sendId, desk.sendSrcPtrs entry.2.sendId⟩ ∈ desk.registered
  homes : ∀ pointer ∈ desk.registered, ∃ link ∈ daemon.links, link.conn = pointer.conn ∧
    pointer.sendId ≤ link.core.seq
  keyed : ∀ pointer ∈ desk.registered, ∀ other ∈ desk.registered, pointer.conn = other.conn →
    pointer.sendId = other.sendId → pointer = other
  slabless : desk.slab = false → ∀ sendId, desk.sendSrcPtrs sendId = none
  reads : ∀ read ∈ desk.reads, read ∈ desk.registered

section Tables

variable {desk next : Desk} {before after : Daemon} {touched : Nat → Prop}

theorem Named.evolve (named : Named desk before) (conns : (before.links.map Link.conn).Nodup)
    (after_conns : (after.links.map Link.conn).Nodup) (evolved : Evolved touched before after)
    {world : World} {owed : List Nat}
    (all : ∀ conn, conn ∈ desk.owed ∨ touched conn → conn ∈ owed) : Named { desk with
      world := world, transfers := relayed before after desk.transfers, owed := owed } after := by
  -- every running transfer was running on the same link
  have origin : ∀ link ∈ after.links, ∀ machine ∈ link.core.senders,
      ∃ old ∈ before.links, old.conn = link.conn ∧ old.peer = link.peer ∧
        old.core.tickets.map (·.sendId) = link.core.tickets.map (·.sendId) ∧
        ∃ earlier ∈ old.core.senders, Continues earlier machine ∧
          (¬ touched link.conn → link.core.ticket machine.sendId = old.core.ticket machine.sendId) := by
    intro link mem machine listed
    rcases evolved.links link mem with ⟨empty, _⟩ | ⟨old, there, conn, peer, _, keys, senders⟩
    · rw [empty] at listed
      cases listed
    · obtain ⟨⟨earlier, known, continues⟩, calm⟩ := senders machine listed
      exact ⟨old, there, conn, peer, keys, earlier, known, continues, calm⟩
  -- a writer that is new took a transfer that was not cleared
  have writers : ∀ entry ∈ after.writers, entry ∈ before.writers ∨
      (∃ old ∈ before.links, old.conn = entry.1 ∧ ∃ machine ∈ old.core.senders,
        machine.sendId = entry.2.sendId ∧ machine.cleared = false) ∧
      ∀ link ∈ after.links, link.conn = entry.1 → ∀ machine ∈ link.core.senders,
        machine.sendId = entry.2.sendId → machine.cleared = true := by
    intro entry there
    rcases evolved.writers with same | ⟨conn, write, more, known, cleared⟩
    · exact .inl (same ▸ there)
    rw [more] at there
    rcases mem_append.mp there with old | new
    · exact .inl old
    · rw [mem_singleton.mp new]
      exact .inr ⟨known, cleared⟩
  refine { named with
    unique := ?unique, issued := ?issued, once := ?once, rows := ?rows, ticketed := ?ticketed
    pointers := ?pointers, pending := ?pending, homes := ?homes }
  case unique =>
    intro left leftMember right rightMember machine listed other otherListed same
    obtain ⟨first, firstListed, firstConn, _, _, one, oneListed, oneSame, _⟩ :=
      origin left leftMember machine listed
    obtain ⟨second, secondListed, secondConn, _, _, two, twoListed, twoSame, _⟩ :=
      origin right rightMember other otherListed
    rw [← firstConn, ← secondConn]
    exact named.unique first firstListed second secondListed one oneListed two twoListed
      (by rw [← oneSame.sendId, same, twoSame.sendId])
  case issued =>
    intro entry there link mem machine listed same
    obtain ⟨old, oldListed, conn, _, _, earlier, known, continues, _⟩ := origin link mem machine listed
    have id := continues.sendId.symm.trans same
    rcases writers entry there with was | ⟨⟨first, firstListed, firstConn, one, oneListed, oneId, _⟩, fresh⟩
    · obtain ⟨toward, cleared⟩ := named.issued entry was old oldListed earlier known id
      exact ⟨conn.symm.trans toward, continues.stays_cleared cleared⟩
    · have toward : link.conn = entry.1 := by
        rw [← conn, ← firstConn]
        exact named.unique old oldListed first firstListed earlier known one oneListed
          (id.trans oneId.symm)
      exact ⟨toward, fresh link mem toward machine listed same⟩
  case once =>
    rcases evolved.writers with same | ⟨conn, write, more, ⟨old, oldListed, _, machine, listed, id, uncleared⟩, _⟩
    · rw [same]
      exact named.once
    rw [more]
    refine keys_append_nodup named.once fun entry there clash => ?_
    have cleared := (named.issued entry there old oldListed machine listed (id.trans clash.symm)).2
    rw [uncleared] at cleared
    cases cleared
  case rows =>
    intro link mem machine listed
    obtain ⟨old, oldListed, conn, peer, _, earlier, known, continues, calm⟩ :=
      origin link mem machine listed
    obtain ⟨row, found, id, rowPeer, dest, state⟩ := named.rows old oldListed earlier known
    have unreported : relayed before after desk.transfers machine.sendId =
        desk.transfers machine.sendId := by
      apply relayed_other
      intro other otherMember was wasFound running
      obtain ⟨wasListed, wasConn⟩ := link_listed wasFound
      obtain ⟨sender, found⟩ := Option.isSome_iff_exists.mp running
      obtain ⟨senderListed, senderId⟩ := sender_listed found
      have sameLink := named.unique old oldListed was wasListed earlier known
        sender senderListed (by rw [senderId, continues.sendId])
      have only := inj_on_of_nodup_map after_conns otherMember mem
        (by rw [← wasConn, ← sameLink, conn])
      rw [only]
      cases lookup : link.core.sender machine.sendId with
      | some _ => rfl
      | none => exact absurd rfl (lookup_none.mp lookup machine listed)
    refine ⟨row, ?_, ?_, rowPeer.trans peer, ?_, ?_⟩
    · exact unreported.trans (continues.sendId ▸ found)
    · rw [id, continues.sendId]
    · rw [dest, continues.destId]
    · intro unowed
      rw [calm fun hit => unowed (all _ (.inr hit)), continues.sendId]
      exact state fun hit => unowed (all _ (.inl (conn ▸ hit)))
  case ticketed =>
    intro link mem machine listed
    obtain ⟨old, oldListed, _, _, keys, earlier, known, continues, _⟩ := origin link mem machine listed
    rw [← keys, continues.sendId]
    exact named.ticketed old oldListed earlier known
  case pointers =>
    intro link mem machine listed uncleared
    obtain ⟨old, oldListed, conn, _, _, earlier, known, continues, _⟩ := origin link mem machine listed
    rw [← conn, continues.sendId]
    exact named.pointers old oldListed earlier known (continues.cleared uncleared)
  case pending =>
    intro entry there
    rcases writers entry there with was | ⟨⟨old, oldListed, conn, machine, listed, id, uncleared⟩, _⟩
    · exact named.pending entry was
    · rw [← conn, ← id]
      exact named.pointers old oldListed machine listed uncleared
  case homes =>
    intro pointer listed
    obtain ⟨old, there, conn, below⟩ := named.homes pointer listed
    obtain ⟨link, mem, same⟩ := evolved.kept old there
    refine ⟨link, mem, same.trans conn, ?_⟩
    rcases evolved.links link mem with ⟨_, fresh⟩ | ⟨was, wasListed, wasConn, _, seq, _, _⟩
    · exact absurd same.symm (fresh old there)
    · have only := inj_on_of_nodup_map conns wasListed there (wasConn.trans same)
      rw [← seq, only]
      exact below

theorem Named.start (named : Named desk before) {link : Link} {hub : Hub} {destId : String}
    {action : Action} {payload : Bytes} {address : Int} (mem : link ∈ before.links)
    (conns : (before.links.map Link.conn).Nodup) (sound : link.core.Sound)
    (free : ∀ other ∈ before.links, ∀ machine ∈ other.core.senders,
      machine.sendId ≠ link.core.seq + 1)
    (idle : ∀ entry ∈ before.writers, entry.2.sendId ≠ link.core.seq + 1)
    (opened : Opened destId (before.hub link) hub) :
    Named (desk.startSend action link destId payload address) (settled before link hub) := by
  let next := desk.startSend action link destId payload address
  have ptrs : ∀ sendId, sendId ≠ link.core.seq + 1 →
      next.sendSrcPtrs sendId = desk.sendSrcPtrs sendId := by
    intro sendId ne
    simp only [next, Desk.startSend]
    cases desk.slab
    · rfl
    · exact update_of_ne ne _ _
  have ptr : ⟨link.conn, link.core.seq + 1, next.sendSrcPtrs (link.core.seq + 1)⟩ ∈
      next.registered := by
    refine mem_append_right _ (mem_singleton.mpr ?_)
    simp only [next, Desk.startSend]
    cases slab : desk.slab
    · exact congrArg (Pointer.mk _ _) (named.slabless slab _)
    · exact congrArg (Pointer.mk _ _) (update_self ..)
  have links : (settled before link hub).links =
      rewritten before.links { link with core := hub.core } := rfl
  have writers : (settled before link hub).writers = before.writers := by
    show before.writers ++ hub.spawned.map _ = before.writers
    rw [opened.spawned]
    exact append_nil _
  have tickets : ∀ sendId, sendId ≠ link.core.seq + 1 →
      hub.core.ticket sendId = link.core.ticket sendId := by
    intro sendId ne
    obtain ⟨total, more⟩ := opened.tickets
    have apart : (before.hub link).core.seq + 1 ≠ sendId := ne.symm
    unfold Core.ticket
    rw [more, lookup_append_single, if_neg apart]
    exact Option.or_none
  have started : (hub.core.ticket (link.core.seq + 1)).map (·.state) = some .negotiating := by
    obtain ⟨total, more⟩ := opened.tickets
    have none : lookup SenderTicket.sendId (link.core.seq + 1) link.core.tickets = none := by
      apply lookup_none.mpr
      intro ticket listed same
      obtain ⟨start, known, id, _⟩ := sound.tickets ticket listed
      have below := sound.numbered start known
      rw [id, same] at below
      exact Nat.not_succ_le_self _ below
    have begun : ((before.hub link).core.tickets) = link.core.tickets := rfl
    unfold Core.ticket
    rw [more, lookup_append_single, begun, none]
    simp [Daemon.hub]
  -- a sender is one that was running, or the new one
  have origin : ∀ other ∈ (settled before link hub).links, ∀ machine ∈ other.core.senders,
      (∃ old ∈ before.links, old.conn = other.conn ∧ old.peer = other.peer ∧
        ∃ earlier ∈ old.core.senders, Continues earlier machine ∧
          other.core.ticket machine.sendId = old.core.ticket machine.sendId) ∨
      other = { link with core := hub.core } ∧ machine.sendId = link.core.seq + 1 ∧
        machine.destId = destId := by
    intro other listed machine there
    rcases mem_rewritten (links ▸ listed) with rfl | ⟨old, _⟩
    · rcases opened.senders machine there with ⟨earlier, known, continues⟩ | new
      · refine .inl ⟨link, mem, rfl, rfl, earlier, known, continues, tickets _ ?_⟩
        rw [continues.sendId]
        exact free link mem earlier known
      · exact .inr ⟨rfl, new⟩
    · exact .inl ⟨other, old, rfl, rfl, machine, there, .refl machine, rfl⟩
  have fresh : ∀ pointer ∈ desk.registered, pointer.conn = link.conn →
      pointer.sendId ≠ link.core.seq + 1 := by
    intro pointer listed same clash
    obtain ⟨old, there, conn, below⟩ := named.homes pointer listed
    have only := inj_on_of_nodup_map conns there mem (conn.trans same)
    rw [only, clash] at below
    exact Nat.not_succ_le_self _ below
  refine { named with
    unique := ?unique, issued := ?issued, once := ?once, rows := ?rows, ticketed := ?ticketed
    pointers := ?pointers, pending := ?pending, homes := ?homes, keyed := ?keyed
    slabless := ?slabless
    reads := fun read listed => mem_append_left _ (named.reads read listed) }
  case unique =>
    intro left leftListed right rightListed machine there other otherThere same
    rcases origin left leftListed machine there with
      ⟨first, firstListed, firstConn, _, one, oneListed, oneSame, _⟩ | ⟨rfl, id, _⟩ <;>
    rcases origin right rightListed other otherThere with
      ⟨second, secondListed, secondConn, _, two, twoListed, twoSame, _⟩ | ⟨rfl, otherId, _⟩
    · rw [← firstConn, ← secondConn]
      exact named.unique first firstListed second secondListed one oneListed two twoListed
        (by rw [← oneSame.sendId, same, twoSame.sendId])
    · exact absurd (oneSame.sendId.symm.trans (same.trans otherId)) (free first firstListed one oneListed)
    · exact absurd (twoSame.sendId.symm.trans (same.symm.trans id)) (free second secondListed two twoListed)
    · rfl
  case issued =>
    rw [writers]
    intro entry listed other otherListed machine there same
    rcases origin other otherListed machine there with
      ⟨old, oldListed, conn, _, earlier, known, continues, _⟩ | ⟨_, id, _⟩
    · obtain ⟨toward, cleared⟩ := named.issued entry listed old oldListed earlier known
        (continues.sendId.symm.trans same)
      exact ⟨conn.symm.trans toward, continues.stays_cleared cleared⟩
    · exact absurd (same.symm.trans id) (idle entry listed)
  case once =>
    rw [writers]
    exact named.once
  case rows =>
    intro other otherListed machine there
    rcases origin other otherListed machine there with
      ⟨old, oldListed, conn, peer, earlier, known, continues, ticket⟩ | ⟨rfl, id, dest⟩
    · obtain ⟨found, known, rowId, rowPeer, rowDest, state⟩ := named.rows old oldListed earlier known
      have apart := continues.sendId.symm ▸ free old oldListed earlier ‹_›
      refine ⟨found, ?_, ?_, rowPeer.trans peer, ?_, ?_⟩
      · exact (update_of_ne apart _ _).trans (continues.sendId ▸ known)
      · rw [rowId, continues.sendId]
      · rw [rowDest, continues.destId]
      · rw [ticket, continues.sendId, ← conn]
        exact state
    · rw [id]
      exact ⟨_, update_self .., rfl, rfl, dest.symm, fun _ => started⟩
  case ticketed =>
    intro other otherListed machine there
    obtain ⟨total, more⟩ := opened.tickets
    rcases mem_rewritten (links ▸ otherListed) with rfl | ⟨old, _⟩
    · rw [more, map_append]
      rcases opened.senders machine there with ⟨earlier, known, continues⟩ | new
      · rw [continues.sendId]
        exact mem_append_left _ (named.ticketed link mem earlier known)
      · rw [new.1]
        exact mem_append_right _ mem_cons_self
    · exact named.ticketed other old machine there
  case pointers =>
    intro other otherListed machine there uncleared
    rcases origin other otherListed machine there with
      ⟨old, oldListed, conn, _, earlier, known, continues, _⟩ | ⟨rfl, id, _⟩
    · have apart := continues.sendId.symm ▸ free old oldListed earlier known
      rw [ptrs _ apart, ← conn, continues.sendId]
      exact mem_append_left _
        (named.pointers old oldListed earlier known (continues.cleared uncleared))
    · rw [id]
      exact ptr
  case pending =>
    rw [writers]
    intro entry listed
    rw [ptrs _ (idle entry listed)]
    exact mem_append_left _ (named.pending entry listed)
  case homes =>
    intro pointer listed
    have present : ({ link with core := hub.core } : Link) ∈ (settled before link hub).links :=
      rewritten_mem mem rfl
    have grown := opened.seq
    rcases mem_append.mp listed with old | new
    · obtain ⟨home, there, conn, below⟩ := named.homes pointer old
      by_cases here : home.conn = link.conn
      · have only := inj_on_of_nodup_map conns there mem here
        refine ⟨_, present, here.symm.trans conn, ?_⟩
        rw [only] at below
        exact grown ▸ Nat.le_succ_of_le below
      · exact ⟨home, mem_rewritten_other there here, conn, below⟩
    · rw [mem_singleton.mp new]
      exact ⟨_, present, rfl, grown.ge⟩
  case keyed =>
    intro pointer listed other otherListed conn id
    rcases mem_append.mp listed with old | new <;>
    rcases mem_append.mp otherListed with otherOld | otherNew
    · exact named.keyed pointer old other otherOld conn id
    · rw [mem_singleton.mp otherNew] at conn id
      exact absurd id (fresh pointer old conn)
    · rw [mem_singleton.mp new] at conn id
      exact absurd id.symm (fresh other otherOld conn.symm)
    · rw [mem_singleton.mp new, mem_singleton.mp otherNew]
  case slabless =>
    intro slab
    have none : desk.slab = false := slab
    simp only [Desk.startSend, none]
    exact named.slabless none

/-- The pointer leaves the table, the read is recorded. -/
abbrev Desk.taking (desk : Desk) (conn : Nat) (write : RdmaWrite) : Desk := { desk with
  sendSrcPtrs := update desk.sendSrcPtrs write.sendId none
  reads := desk.reads ++ [⟨conn, write.sendId, desk.sendSrcPtrs write.sendId⟩] }

theorem Named.take (named : Named desk before) {position : Nat} {conn : Nat} {write : RdmaWrite}
    (found : before.writers[position]? = some (conn, write)) :
    Named (desk.taking conn write) (rewriting before (before.writers.eraseIdx position)) := by
  have mem := mem_of_getElem? found
  have rest : ∀ entry ∈ before.writers.eraseIdx position,
      entry ∈ before.writers ∧ entry.2.sendId ≠ write.sendId := by
    obtain ⟨inside, value⟩ := List.getElem?_eq_some_iff.mp found
    have order := (getElem_cons_eraseIdx_perm inside).map (·.2.sendId)
    have apart := order.nodup_iff.mpr named.once
    rw [map_cons, nodup_cons, value] at apart
    intro entry listed
    exact ⟨mem_of_mem_eraseIdx listed, fun same =>
      apart.1 (same ▸ mem_map_of_mem (f := fun entry : Nat × RdmaWrite => entry.2.sendId) listed)⟩
  have kept : ∀ sendId, sendId ≠ write.sendId →
      (desk.taking conn write).sendSrcPtrs sendId = desk.sendSrcPtrs sendId :=
    fun _ ne => update_of_ne ne _ _
  refine { named with
    issued := fun entry listed => named.issued entry (rest entry listed).1
    once := named.once.sublist ((eraseIdx_sublist ..).map _)
    pointers := ?pointers, pending := ?pending, slabless := ?slabless
    reads := forall_mem_concat named.reads (named.pending _ mem) }
  case pointers =>
    intro link listed machine there uncleared
    have apart : machine.sendId ≠ write.sendId := by
      intro same
      have cleared := (named.issued _ mem link listed machine there same).2
      rw [uncleared] at cleared
      cases cleared
    rw [kept _ apart]
    exact named.pointers link listed machine there uncleared
  case pending =>
    intro entry listed
    rw [kept _ (rest entry listed).2]
    exact named.pending entry (rest entry listed).1
  case slabless =>
    intro none sendId
    by_cases hit : sendId = write.sendId
    · exact hit ▸ update_self ..
    · exact (kept sendId hit).trans (named.slabless none sendId)

theorem Named.refresh (named : Named desk before) (conns : (before.links.map Link.conn).Nodup)
    {link : Link} (mem : link ∈ before.links) : Named { desk with
      transfers := link.core.senders.foldl (refreshSender link.core) desk.transfers
      owed := desk.owed.filter (· ≠ link.conn) } before := by
  refine { named with rows := ?_ }
  intro other listed machine there
  obtain ⟨row, found, id, peer, dest, state⟩ := named.rows other listed machine there
  by_cases here : other.conn = link.conn
  · obtain rfl := inj_on_of_nodup_map conns listed mem here
    cases has : other.core.ticket machine.sendId with
    | none =>
      obtain ⟨ticket, ticketListed, same⟩ := mem_map.mp (named.ticketed other listed machine there)
      exact absurd same (lookup_none.mp has ticket ticketListed)
    | some ticket =>
      exact ⟨_, refresh_senders_self found has ⟨machine, there, rfl⟩, id, peer, dest, fun _ => rfl⟩
  · refine ⟨row, ?_, id, peer, dest, fun unowed => state fun hit => unowed ?_⟩
    · exact (refresh_senders_other fun sender senderListed same =>
        here (named.unique other listed link mem machine there sender senderListed same.symm)).trans found
    · exact mem_filter.mpr ⟨hit, by simpa using here⟩

end Tables

/-! ### runs -/

/-- A send is started only under a number that no running transfer and no waiting writer of
the daemon has. -/
def Distinct (desk : Desk) : DeskAction → Prop
  | .step (.send name peer _ _ _ _ _) _ => name = desk.name → IfFound (desk.daemon.linkTo peer) fun link =>
    (∀ other ∈ desk.daemon.links, ∀ machine ∈ other.core.senders,
      machine.sendId ≠ link.core.seq + 1) ∧
    ∀ entry ∈ desk.daemon.writers, entry.2.sendId ≠ link.core.seq + 1
  | _ => True

instance (desk : Desk) (action : DeskAction) : Decidable (Distinct desk action) := by
  cases action with
  | step action now =>
    apply @Action.casesOn (Decidable <| Distinct desk <| .step · now) action <;> intros <;>
      dsimp only [Distinct] <;> infer_instance
  | _ => dsimp only [Distinct]; infer_instance

def DistinctRun (desk : Desk) : List DeskAction → Prop
  | [] => True
  | action :: rest => Distinct desk action ∧ DistinctRun (desk.act action) rest

instance decidableDistinctRun (desk : Desk) (actions : List DeskAction) :
    Decidable (DistinctRun desk actions) :=
  match actions with
  | [] => inferInstanceAs (Decidable True)
  | action :: rest =>
    have := decidableDistinctRun (desk.act action) rest
    inferInstanceAs (Decidable (_ ∧ _))

section Runs

variable {ends : Nat → String × String} {desk : Desk}

theorem Named.report {daemon : Daemon} (named : Named desk daemon) {ticket : SenderTicket}
    (ended : ∀ link ∈ daemon.links, ∀ machine ∈ link.core.senders, machine.sendId ≠ ticket.sendId) :
    Named { desk with transfers := refreshTransfer desk.transfers ticket } daemon := by
  refine { named with rows := ?_ }
  intro link listed machine running
  obtain ⟨row, found, facts⟩ := named.rows link listed machine running
  exact ⟨row, (refresh_transfer_other (ended link listed machine running).symm).trans found, facts⟩

theorem Named.observe (named : Named desk desk.daemon) (coherent : Coherent ends desk.world)
    {action : Action} (foreign : Foreign desk.name action) {owed : List Nat}
    (all : ∀ conn, conn ∈ desk.owed ∨ conn ∈ owes desk.name action → conn ∈ owed) :
    Named { desk.observe (act desk.world action) with owed := owed }
      ((act desk.world action).daemons desk.name) := by
  obtain ⟨_, reaches⟩ := act_coherent coherent action
  have evolved := act_evolved coherent foreign
  exact named.evolve (coherent.conns desk.name) (reaches.coherent.conns desk.name) evolved all

theorem write_remote_found {world : World} {daemon : Daemon} {position conn : Nat} {write : RdmaWrite}
    {link : Link} (now : ℚ) (found : daemon.writers[position]? = some (conn, write))
    (lookup : daemon.link conn = some link) : ∃ store, writeRemote world daemon position now =
        (world.set (patched (world link.peer) store)).settle
          (rewriting daemon (daemon.writers.eraseIdx position)) link
          (rdmaWriteFinished now write.sendId (daemon.hub link)) := by
  have issued : ({ daemon with writers := daemon.writers.eraseIdx position } : Daemon).link conn =
    some link := lookup
  unfold writeRemote
  rw [found]
  simp only [issued]
  exact ⟨_, rfl⟩

/-- The daemon once a writer has begun. -/
abbrev Desk.issuing (desk : Desk) (position : Nat) : Daemon :=
  rewriting desk.daemon (desk.daemon.writers.eraseIdx position)

/-- The world is coherent and the tables of the desk agree with its links. -/
structure Desk.Sound (ends : Nat → String × String) (desk : Desk) : Prop where
  coherent : Coherent ends desk.world
  named : Named desk desk.daemon

theorem Desk.Sound.write (sound : Desk.Sound ends desk) (position : Nat) (now : ℚ) (raises : Bool) :
    Desk.Sound ends (desk.write position now raises) := by
  obtain ⟨coherent, named⟩ := sound
  have self := coherent.named desk.name
  unfold Desk.write
  split
  · exact ⟨coherent, named⟩
  next conn write found =>
  have issuer : (desk.issuing position).name = desk.name := self
  have issued := coherent.set issuer rfl rfl
  have after : (desk.world.set (desk.issuing position)).daemons desk.name = desk.issuing position :=
    set_self issuer
  have taken := named.take found
  have conns := coherent.conns desk.name
  simp only
  split
  · refine ⟨issued.coherent, ?_⟩
    have same : Evolved (fun _ => False) (desk.issuing position)
        ((desk.world.set (desk.issuing position)).daemons desk.name) := by
      rw [after]
      exact .same rfl rfl
    exact taken.evolve conns (issued.coherent.conns desk.name) same
      fun _ => (Or.elim · id False.elim)
  next link lookup =>
  obtain ⟨mem, sameConn⟩ := link_listed lookup
  split
  · have there : link ∈ ((desk.world.set (desk.issuing position)).daemons desk.name).links := by
      rw [after]
      exact mem
    obtain ⟨failedCoherent, evolved⟩ :=
      fail_write_coherent (fun _ => False) now issued.coherent write.sendId there
    have told : Named ((desk.taking conn write).observe
        (failWrite now (desk.world.set (desk.issuing position)) desk.name link write.sendId))
        ((failWrite now (desk.world.set (desk.issuing position)) desk.name link write.sendId).daemons
          desk.name) := by
      rw [after] at evolved
      exact taken.evolve conns (failedCoherent.conns desk.name) evolved
        fun _ => (Or.elim · id False.elim)
    split
    · next ticket gone has =>
      refine ⟨failedCoherent, told.report fun other listed machine running same => ?_⟩
      -- a running transfer of this number would be the one of the writer
      have key := lookup_key has
      have id := same.trans key
      rw [after] at evolved
      rcases evolved.links other listed with ⟨empty, _⟩ | ⟨old, oldListed, _, _, _, _, senders⟩
      · rw [empty] at running
        cases running
      obtain ⟨⟨earlier, known, continues⟩, _⟩ := senders machine running
      have toward := (named.issued _ (mem_of_getElem? found) old oldListed earlier known
        (continues.sendId.symm.trans id)).1
      have only := inj_on_of_nodup_map (coherent.conns desk.name) oldListed mem
        (toward.trans sameConn.symm)
      exact lookup_none.mp gone earlier (only ▸ known) (continues.sendId.symm.trans id)
    · exact ⟨failedCoherent, told⟩
  · obtain ⟨store, same⟩ := write_remote_found now found lookup
    have spoken : Spoken (desk.daemon.hub link) (rdmaWriteFinished now write.sendId (desk.daemon.hub link)) :=
      (Spoken.refl (coherent.sound desk.name link mem) rfl).works rdma_write_finished_works
    have reaches := coherent.write mem store (desk.daemon.writers.eraseIdx position) spoken
    have final : (Peer.act desk.world (.rdmaWrite desk.name position now)).daemons desk.name =
        settled (desk.issuing position) link
          (rdmaWriteFinished now write.sendId (desk.daemon.hub link)) := by
      show (writeRemote desk.world desk.daemon position now).daemons desk.name = _
      rw [same, settle_self issuer]
    have evolved : Evolved (· = conn) (desk.issuing position)
        ((Peer.act desk.world (.rdmaWrite desk.name position now)).daemons desk.name) := by
      rw [final]
      exact .settle mem rdma_write_finished_works (.inl sameConn) rfl rfl rfl rfl rfl
    refine ⟨?_, ?_⟩
    · show Coherent ends (writeRemote desk.world desk.daemon position now)
      rw [same]
      exact reaches.coherent
    refine taken.evolve conns ?_ evolved ?_
    · show (((writeRemote desk.world desk.daemon position now).daemons desk.name).links.map
        Link.conn).Nodup
      rw [same]
      exact reaches.coherent.conns desk.name
    · rintro other (owed | rfl)
      · exact mem_cons_of_mem _ owed
      · exact mem_cons_self

theorem Desk.Sound.start (sound : Desk.Sound ends desk) {peer destId : String} {now : ℚ}
    {payload : Bytes} {overwrite : Bool} {info : Info} {link : Link} {address : Int}
    (found : (desk.daemon.registered peer).bind desk.daemon.link = some link)
    (free : ∀ other ∈ desk.daemon.links, ∀ machine ∈ other.core.senders,
      machine.sendId ≠ link.core.seq + 1)
    (idle : ∀ entry ∈ desk.daemon.writers, entry.2.sendId ≠ link.core.seq + 1) :
    Desk.Sound ends (desk.startSend (.send desk.name peer now destId payload overwrite info) link destId
      payload address) := by
  obtain ⟨coherent, named⟩ := sound
  have mem := (bind_link_listed found).2
  have sameName : desk.daemon.name = desk.name := coherent.named desk.name
  have step : Peer.act desk.world (.send desk.name peer now destId payload overwrite info) =
      desk.world.settle desk.daemon link
        (Peer.startSend now destId payload overwrite info (desk.daemon.hub link)) := by
    have lookup : ((desk.world desk.name).registered peer).bind
      (desk.world desk.name).link = some link := found
    simp only [Peer.act, lookup]
    rfl
  have spoken : Spoken (desk.daemon.hub link)
      (Peer.startSend now destId payload overwrite info (desk.daemon.hub link)) :=
    start_send_spoken (.refl (coherent.sound desk.name link mem) rfl)
  have final : (desk.startSend (.send desk.name peer now destId payload overwrite info) link destId
      payload address).daemon = settled desk.daemon link
        (Peer.startSend now destId payload overwrite info (desk.daemon.hub link)) := by
    show (Peer.act desk.world _).daemons desk.name = _
    rw [step, settle_self sameName]
  constructor
  · show Coherent ends (Peer.act desk.world (.send desk.name peer now destId payload overwrite info))
    rw [step]
    exact (coherent.settle mem sameName rfl (.inl rfl) rfl rfl rfl spoken).coherent
  rw [final]
  exact named.start mem (coherent.conns desk.name) (coherent.sound desk.name link mem) free idle
    start_send_opened

theorem Desk.Sound.act (sound : Desk.Sound ends desk) {action : DeskAction}
    (distinct : Distinct desk action) : ∃ more, Desk.Sound more (desk.act action) := by
  obtain ⟨coherent, named⟩ := sound
  have observe : ∀ action owed, Foreign desk.name action →
      (∀ conn, conn ∈ desk.owed ∨ conn ∈ owes desk.name action → conn ∈ owed) →
      ∃ more, Desk.Sound more { desk.observe (Peer.act desk.world action) with owed := owed } := by
    intro action owed foreign all
    obtain ⟨more, reaches⟩ := act_coherent coherent action
    exact ⟨more, reaches.coherent, named.observe coherent foreign all⟩
  have wider : ∀ action conn, conn ∈ desk.owed ∨ conn ∈ owes desk.name action →
      conn ∈ owes desk.name action ++ desk.owed :=
    fun action conn either => mem_append.mpr either.symm
  cases action with
  | refresh conn =>
    simp only [Desk.act]
    split
    · exact ⟨ends, coherent, named⟩
    next link lookup =>
    obtain ⟨mem, rfl⟩ := link_listed lookup
    exact ⟨ends, coherent, named.refresh (coherent.conns desk.name) mem⟩
  | failWrite position now => exact ⟨ends, Desk.Sound.write ⟨coherent, named⟩ position now true⟩
  | step action address =>
    cases action with
    | send name peer now destId payload overwrite info =>
      simp only [Desk.act]
      split
      · next own =>
        subst own
        have free := distinct rfl
        rw [Daemon.linkTo] at free
        split
        · exact ⟨ends, coherent, named⟩
        next link found =>
        rw [found] at free
        exact ⟨ends, Desk.Sound.start ⟨coherent, named⟩ found free.1 free.2⟩
      · next other =>
        exact observe (.send name peer now destId payload overwrite info) desk.owed other
          fun _ either => either.elim id fun none => (not_mem_nil none).elim
    | rdmaWrite name position now =>
      simp only [Desk.act]
      split
      · next own => exact ⟨ends, Desk.Sound.write ⟨coherent, named⟩ position now false⟩
      · next other =>
        exact observe (.rdmaWrite name position now) desk.owed other
          fun _ either => either.elim id fun none => (not_mem_nil none).elim
    | connect | adopt | drop | deliver | tick | lease | unlease | dispatch | route | land | rdmaUp =>
      exact observe _ _ trivial (wider _)

theorem Desk.Sound.run {actions : List DeskAction} (sound : Desk.Sound ends desk)
    (distinct : DistinctRun desk actions) : ∃ more, Desk.Sound more (desk.run actions) := by
  induction actions generalizing desk ends with
  | nil => exact ⟨ends, sound⟩
  | cons action rest ih =>
    obtain ⟨more, next⟩ := sound.act distinct.1
    exact ih next distinct.2

end Runs

/-- A daemon that has not met a peer. -/
structure Desk.Fresh (desk : Desk) : Prop where
  world : desk.world.Fresh
  writers : desk.daemon.writers = []
  pointers : ∀ sendId, desk.sendSrcPtrs sendId = none
  registered : desk.registered = []
  reads : desk.reads = []

theorem Desk.Fresh.sound {desk : Desk} (fresh : desk.Fresh) :
    Desk.Sound (fun _ => ("", "")) desk := by
  have links : desk.daemon.links = [] := fresh.world.links desk.name
  refine ⟨fresh.world.coherent, ?_⟩
  constructor <;> simp [links, fresh.writers, fresh.registered, fresh.reads, fresh.pointers]

/-- If no send is started under the number of a running transfer or of a waiting writer, then
at every moment the status of a running transfer is its own, with its own state unless a core
has moved since the rows were refreshed; and every pointer that a writer has read is the one
that was registered for its transfer. -/
theorem send_id_names_transfer (desk : Desk) (fresh : desk.Fresh) (actions : List DeskAction)
    (distinct : DistinctRun desk actions) : let last := desk.run actions
    (∀ link ∈ last.daemon.links, ∀ machine ∈ link.core.senders, ∃ row,
      last.transferStatus machine.sendId = some row ∧ row.sendId = machine.sendId ∧
      row.peerId = link.peer ∧ row.destId = machine.destId ∧
      (link.conn ∉ last.owed → (link.core.ticket machine.sendId).map (·.state) = some row.state)) ∧
    ∀ read ∈ last.reads, read ∈ last.registered ∧ ∀ pointer ∈ last.registered,
      pointer.conn = read.conn → pointer.sendId = read.sendId → pointer.address = read.address := by
  obtain ⟨_, sound⟩ := fresh.sound.run distinct
  refine ⟨sound.named.rows, ?_⟩
  intro read listed
  have recorded := sound.named.reads read listed
  refine ⟨recorded, fun pointer known conn id => ?_⟩
  rw [sound.named.keyed pointer known read recorded conn id]

/-- A daemon with a slab, among daemons with two pages. -/
def sendingDesk : Desk := { name := "a", slab := true, world := twoPages }

theorem sending_desk_fresh : sendingDesk.Fresh where
  world := two_pages_fresh
  writers := rfl
  pointers _ := rfl
  registered := rfl
  reads := rfl

/-- The desk has links to `b` and `c`. -/
def linkedDesk : List DeskAction :=
  [.step (.connect "a" "b") 0, .step (.connect "a" "c") 0, .step (.adopt "a" 0 0) 0,
   .step (.adopt "a" 1 0) 0]

def twoSends : List DeskAction :=
  linkedDesk ++ [.step (.send "a" "b" 0 "x" [1, 2] false []) 100,
    .step (.send "a" "b" 0 "y" [3] false []) 200]

theorem send_id_names_transfer_two_sends : DistinctRun sendingDesk twoSends ∧
    ((sendingDesk.run twoSends).daemon.links.flatMap (·.core.senders)).map (·.destId) = ["x", "y"] ∧
    ∀ link ∈ (sendingDesk.run twoSends).daemon.links, ∀ machine ∈ link.core.senders, ∃ row,
      (sendingDesk.run twoSends).transferStatus machine.sendId = some row ∧
        row.destId = machine.destId := by
  refine ⟨by decide +kernel, by decide +kernel, ?_⟩
  intro link member machine running
  obtain ⟨row, status, _, _, dest, _⟩ := (send_id_names_transfer sendingDesk sending_desk_fresh twoSends
    (by decide +kernel)).1 link member machine running
  exact ⟨row, status, dest⟩

/-- A send to `c` takes the row and the pointer of the running send to `b`. -/
theorem sends_to_two_peers_share_id :
    let last := sendingDesk.run (linkedDesk ++ [.step (.send "a" "b" 0 "x" [1, 2] false []) 100,
      .step (.send "a" "c" 0 "y" [3] false []) 200])
    last.daemon.links.map (fun link => (link.peer, link.core.senders.map fun machine =>
      (machine.sendId, machine.destId))) = [("b", [(1, "x")]), ("c", [(1, "y")])] ∧
    (last.transferStatus 1).map (fun row => (row.peerId, row.destId)) = some ("c", "y") ∧
    last.registered = [⟨0, 1, some 100⟩, ⟨1, 1, some 200⟩] ∧ last.sendSrcPtrs 1 = some 200 := by
  decide +kernel

end Dataflow.Peer
