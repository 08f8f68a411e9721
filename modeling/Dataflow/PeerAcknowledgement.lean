import Dataflow.PeerExactlyOnce

/-!
What an acknowledgement is worth. A DONE_ACK on the wire, an id in the dedup ring
and a commit on its way back all have their execution in the receiver's history,
for the same connection and the same id, as long as no link to a peer is adopted
while a commit of an earlier link of that peer has not been routed. A transfer
that ends well is then one whose commit was executed.
-/

namespace Dataflow.Peer

open StatefulOutcome ByteRanges Service KeyedTable List Function

def Started (starts : List Start) (sendId : SendId) (destId : String) : Prop :=
  ∃ start ∈ starts, start.sendId = sendId ∧ start.destId = destId

theorem Started.mono {starts more : List Start} {sendId : SendId} {destId : String}
    (started : Started starts sendId destId) (grown : ∀ start ∈ starts, start ∈ more) :
    Started more sendId destId := by
  obtain ⟨start, known, facts⟩ := started
  exact ⟨start, grown start known, facts⟩

/-- What the code of a core does to everything an acknowledgement depends on. It queues
commits of its own link only and acknowledges only what it remembers as completed; a
transfer ends well only if it is in `acked`. -/
structure Addressed (starts : List Start) (acked : SendId → Prop) (base hub : Hub) : Prop where
  peer : hub.peer = base.peer
  conn : hub.conn = base.conn
  adoptions : hub.env.adoptions = base.env.adoptions
  completed : hub.core.completed = base.core.completed
  queue : ∃ added, hub.env.fifo = base.env.fifo ++ added ∧ ∀ commit ∈ added,
    commit.conn = base.conn ∧ commit.fromPeer = base.peer ∧
      Started starts commit.sendId commit.res.destId
  receivers : ∀ machine ∈ hub.core.receivers, Started starts machine.sendId machine.res.destId
  out : ∀ frame ∈ hub.out, ∀ sendId, frame.1 = .doneAck sendId → sendId ∈ base.core.completed
  tickets : ∀ ticket ∈ hub.core.tickets, ticket.state = .done →
    acked ticket.sendId ∨
      ∃ old ∈ base.core.tickets, old.sendId = ticket.sendId ∧ old.state = .done

section Hubs

variable {starts : List Start} {acked : SendId → Prop} {base hub next : Hub}
  {machine : ReceiverMachine} {sendId : SendId} {now : ℚ} {message : Message} {payload : Bytes}

theorem Addressed.refl (silent : hub.out = [])
    (receivers : ∀ machine ∈ hub.core.receivers, Started starts machine.sendId machine.res.destId) :
    Addressed starts acked hub hub where
  peer := rfl
  conn := rfl
  adoptions := rfl
  completed := rfl
  queue := ⟨[], (append_nil _).symm, forall_mem_nil _⟩
  receivers := receivers
  out frame mem := by rw [silent] at mem; cases mem
  tickets ticket mem done := .inr ⟨ticket, mem, rfl, done⟩

section

variable (held : Addressed starts acked base hub)
include held

theorem Addressed.sender (side : SenderSide acked hub next) : Addressed starts acked base next where
  peer := side.peer.trans held.peer
  conn := side.conn.trans held.conn
  adoptions := side.env ▸ held.adoptions
  completed := side.completed.trans held.completed
  queue := side.env ▸ held.queue
  receivers := side.receivers ▸ held.receivers
  out frame mem sendId same := by
    rcases side.out frame mem with old | other
    · exact held.out frame old sendId same
    · rw [same] at other
      exact (other trivial).elim
  tickets ticket mem done := by
    rcases side.tickets ticket mem done with now | ⟨middle, listed, same, ended⟩
    · exact .inl now
    · exact same ▸ held.tickets middle listed ended

theorem Addressed.send (known : ∀ sendId, message = .doneAck sendId → sendId ∈ hub.core.completed) :
    Addressed starts acked base (hub.send message payload) :=
  { held with out := forall_mem_concat held.out (held.completed ▸ known) }

theorem Addressed.abort : Addressed starts acked base (abortReceiver machine hub) :=
  { held with receivers := fun machine mem => held.receivers machine (mem_of_mem_filter mem) }

theorem Addressed.commit (started : Started starts machine.sendId machine.res.destId) :
    Addressed starts acked base (finishCommit now machine hub) := by
  obtain ⟨added, fifo, all⟩ := held.queue
  have queued : (finishCommit now machine hub).env.fifo = base.env.fifo ++ (added ++
      [{ res := machine.res, info := machine.info, sendId := machine.sendId
         fromPeer := hub.peer, conn := hub.conn }]) := by
    rw [← append_assoc, ← fifo]
    rfl
  exact { held with
    queue := ⟨_, queued, forall_mem_concat all ⟨held.conn, held.peer, started⟩⟩
    receivers := forall_mem_write held.receivers started }

theorem Addressed.receive {chunk : Nat} (genuine : Genuine starts chunk (message, payload))
    (receives : Receives now message hub next) : Addressed starts acked base next := by
  induction receives with
  | refl => exact held
  | reserve reserved =>
    obtain ⟨_, _, _, _, _, _, _, fifo, _, _, adoptions⟩ := try_reserve_cases reserved
    exact { held with adoptions := adoptions.trans held.adoptions, queue := fifo ▸ held.queue }
  | accept _ _ offered held =>
    subst offered
    obtain ⟨start, known, id, dest, _⟩ := genuine
    exact { held with receivers := forall_mem_concat held.receivers ⟨start, known, id, dest⟩ }
  | reply _ _ known held => exact held.send known
  | land _ _ _ held => exact { held with }
  | write _ listed id dest _ held =>
    have started := held.receivers _ listed
    rw [← id, ← dest] at started
    exact { held with receivers := forall_mem_write held.receivers started }
  | abort _ _ held => exact held.abort
  | commit _ listed held => exact held.commit (held.receivers _ listed)

theorem handle_addressed {chunk : Nat} (genuine : Genuine starts chunk (message, payload))
    (acks : ∀ sendId, message = .doneAck sendId → acked sendId) :
    Leaves (handle now message payload hub) (Addressed starts acked base) := by
  by_cases reply : message.IsReply
  · exact leaves_mono (handle_reply_sends reply) fun _ side => held.sender { side.toSenderSide with
      tickets := fun ticket mem done => (side.tickets ticket mem done).imp_left (acks _) }
  · exact ensures_mono (handle_receives reply) (fun _ => held.receive genuine)
      fun _ _ both => held.receive genuine both.1

theorem tick_addressed :
    Leaves (tick now hub) (Addressed starts acked base) := by
  have senders := leaves_mono (tick_senders_sends now hub acked)
    fun _ side => held.sender side.toSenderSide
  refine ensures_bind senders fun ticked held => ?_
  refine foldlRecOn _ _ held fun hub held machine _ => ?_
  rcases tick_receiver_cases now hub machine with same | ⟨_, same⟩
  · exact same.symm ▸ held
  · exact same.symm ▸ held.abort

theorem drop_hub_addressed : Leaves (dropHub now hub) (Addressed starts acked base) := by
  have aborted : Addressed starts acked base hub.aborted :=
    foldlRecOn _ _ held fun _ held _ _ => held.abort
  exact leaves_mono (drop_hub_sends acked) fun _ side => aborted.sender side.toSenderSide

end

theorem drop_hub_fifo : Leaves (dropHub now hub) fun next => next.env.fifo = hub.env.fifo := by
  have aborted : hub.aborted.env.fifo = hub.env.fifo :=
    foldlRecOn (motive := fun next : Hub => next.env.fifo = hub.env.fifo) _ _ rfl
      fun _ held _ _ => held
  exact leaves_mono (drop_hub_sends fun _ => False) fun _ side => side.env ▸ aborted

end Hubs

/-! ### daemons -/

namespace Daemon

/-- Commits that `commit_landed` has not looked a link up for. -/
def unrouted (daemon : Daemon) : List Commit :=
  daemon.waiting ++ (daemon.landing.filter (·.route.isNone)).map (·.commit)

def Executed (daemon : Daemon) (conn : Nat) (sendId : SendId) : Prop :=
  ∃ adoption ∈ daemon.env.adoptions, adoption.conn = conn ∧ adoption.sendId = sendId

end Daemon

structure Attested (starts : String → Nat → List Start) (daemon : Daemon) : Prop where
  registered : ∀ link ∈ daemon.links, link.alive = true →
    daemon.registered link.peer = some link.conn
  indexed : ∀ peer conn, daemon.registered peer = some conn → daemon.Home conn peer
  dead : ∀ link ∈ daemon.links, link.alive = false → link.core.receivers = []
  receivers : ∀ link ∈ daemon.links, ∀ machine ∈ link.core.receivers,
    Started (starts link.peer link.conn) machine.sendId machine.res.destId
  ring : ∀ link ∈ daemon.links, ∀ sendId ∈ link.core.completed, daemon.Executed link.conn sendId
  commits : ∀ commit ∈ daemon.waiting, daemon.Home commit.conn commit.fromPeer ∧
    Started (starts commit.fromPeer commit.conn) commit.sendId commit.res.destId
  unrouted : ∀ commit ∈ daemon.unrouted, ∀ conn,
    daemon.registered commit.fromPeer = some conn → conn = commit.conn
  routed : ∀ landing ∈ daemon.landing, ∀ conn, landing.route = some (some conn) →
    conn = landing.commit.conn
  landed : ∀ landing ∈ daemon.landing, daemon.Executed landing.commit.conn landing.commit.sendId
  adopted : ∀ adoption ∈ daemon.env.adoptions, daemon.Home adoption.conn adoption.fromPeer ∧
    Started (starts adoption.fromPeer adoption.conn) adoption.sendId adoption.destId

section Daemons

variable {starts more : String → Nat → List Start} {daemon next : Daemon} {link written : Link}
  {hub : Hub}

theorem executed_of_same (adoptions : next.env.adoptions = daemon.env.adoptions) {conn : Nat}
    {sendId : SendId} (executed : daemon.Executed conn sendId) : next.Executed conn sendId := by
  unfold Daemon.Executed
  rw [adoptions]
  exact executed

theorem mem_unrouted {commit : Commit} : commit ∈ daemon.unrouted ↔
    commit ∈ daemon.waiting ∨ (⟨commit, none⟩ : Landing) ∈ daemon.landing := by
  unfold Daemon.unrouted
  rw [mem_append, mem_map]
  constructor
  · rintro (waiting | ⟨⟨_, route⟩, listed, rfl⟩)
    · exact .inl waiting
    · obtain ⟨landing, free⟩ := mem_filter.mp listed
      cases route with
      | none => exact .inr landing
      | some target => cases free
  · rintro (waiting | landing)
    · exact .inl waiting
    · exact .inr ⟨_, mem_filter.mpr ⟨landing, rfl⟩, rfl⟩

theorem Attested.mono (attested : Attested starts daemon)
    (grown : ∀ peer conn, ∀ start ∈ starts peer conn, start ∈ more peer conn) :
    Attested more daemon := { attested with
  receivers := fun link mem machine listed =>
    (attested.receivers link mem machine listed).mono (grown _ _)
  commits := fun commit mem => ⟨(attested.commits commit mem).1,
    (attested.commits commit mem).2.mono (grown _ _)⟩
  adopted := fun adoption mem => ⟨(attested.adopted adoption mem).1,
    (attested.adopted adoption mem).2.mono (grown _ _)⟩ }

theorem Attested.relink (attested : Attested starts daemon)
    (conns : (daemon.links.map Link.conn).Nodup) (mem : link ∈ daemon.links)
    (conn : written.conn = link.conn) (peer : written.peer = link.peer)
    (links : next.links = rewritten daemon.links written)
    (receivers : ∀ machine ∈ written.core.receivers,
      Started (starts link.peer link.conn) machine.sendId machine.res.destId)
    (dead : written.alive = false → written.core.receivers = [])
    (ring : ∀ sendId ∈ written.core.completed, daemon.Executed link.conn sendId)
    (adoptions : next.env.adoptions = daemon.env.adoptions)
    (queue : ∀ commit ∈ next.waiting, commit ∈ daemon.waiting ∨ link.alive = true ∧
      commit.conn = link.conn ∧ commit.fromPeer = link.peer ∧
      Started (starts link.peer link.conn) commit.sendId commit.res.destId)
    (landing : ∀ entry ∈ next.landing, entry ∈ daemon.landing)
    (registered : ∀ other ∈ next.links, other.alive = true →
      next.registered other.peer = some other.conn)
    (index : ∀ peer conn, next.registered peer = some conn → daemon.registered peer = some conn) :
    Attested starts next := by
  have home : ∀ index name, daemon.Home index name → next.Home index name :=
    fun _ _ home => home.rewrite conns mem conn peer links
  have executed : ∀ {conn sendId}, daemon.Executed conn sendId → next.Executed conn sendId :=
    executed_of_same adoptions
  constructor
  · exact registered
  · exact fun peer conn found => home _ _ (attested.indexed peer conn (index peer conn found))
  · rw [links]
    exact forall_mem_write attested.dead dead
  · rw [links]
    exact forall_mem_write attested.receivers (conn ▸ peer ▸ receivers)
  · rw [links]
    exact forall_mem_write (fun other old sendId seen => executed (attested.ring other old sendId seen))
      (conn ▸ fun sendId seen => executed (ring sendId seen))
  · intro commit there
    rcases queue commit there with old | ⟨_, sameConn, samePeer, started⟩
    · exact ⟨home _ _ (attested.commits commit old).1, (attested.commits commit old).2⟩
    · rw [sameConn, samePeer]
      exact ⟨home _ _ ⟨link, mem, rfl, rfl⟩, started⟩
  · intro commit there target found
    have before := index _ _ found
    rcases mem_unrouted.mp there with waits | lands
    · rcases queue commit waits with old | ⟨alive, sameConn, samePeer, _⟩
      · exact attested.unrouted commit (mem_unrouted.mpr (.inl old)) target before
      · rw [samePeer, attested.registered link mem alive] at before
        exact sameConn ▸ (Option.some.inj before).symm
    · exact attested.unrouted commit (mem_unrouted.mpr (.inr (landing _ lands))) target before
  · exact fun entry there => attested.routed entry (landing entry there)
  · exact fun entry there => executed (attested.landed entry (landing entry there))
  · intro adoption there
    have old := attested.adopted adoption (adoptions ▸ there)
    exact ⟨home _ _ old.1, old.2⟩

/-- A core that is told of a commit acknowledges that one. -/
structure Told (sendId : SendId) (hub next : Hub) : Prop where
  env : next.env = hub.env
  receivers : ∀ machine ∈ next.core.receivers, machine ∈ hub.core.receivers
  completed : ∀ other ∈ next.core.completed, other ∈ hub.core.completed ∨ other = sendId
  tickets : next.core.tickets = hub.core.tickets
  out : ∀ frame ∈ next.out, frame ∈ hub.out ∨ frame.1 = .doneAck sendId

theorem commit_done_told (sendId : SendId) (hub : Hub) :
    Told sendId hub (commitDone sendId hub) := by
  unfold commitDone
  split
  · exact ⟨rfl, fun _ => id, fun _ => .inl, rfl, fun _ => .inl⟩
  constructor
  · rfl
  · exact fun _ mem => mem_of_mem_filter mem
  · exact fun _ mem => mem_remembered mem
  · rfl
  · exact forall_mem_append.mpr ⟨fun frame old => .inl old,
      fun frame new => .inr (congrArg Prod.fst (mem_singleton.mp new))⟩

theorem Attested.requeue (attested : Attested starts daemon) {fifo parked : List Commit}
    {landing : List Landing} (queue : ∀ commit ∈ fifo ++ parked, commit ∈ daemon.waiting)
    (fewer : ∀ entry ∈ landing, entry ∈ daemon.landing) : Attested starts { daemon with
      env := { daemon.env with fifo := fifo }, parked := parked, landing := landing } :=
  { attested with
    commits := fun commit there => attested.commits commit (queue commit there)
    unrouted := fun commit there => attested.unrouted commit
      (mem_unrouted.mpr ((mem_unrouted.mp there).imp (queue commit) (fewer _)))
    routed := fun entry there => attested.routed entry (fewer entry there)
    landed := fun entry there => attested.landed entry (fewer entry there) }

theorem Attested.execute (attested : Attested starts daemon) {commit : Commit} {rest : List Commit}
    (oldest : daemon.env.fifo = commit :: rest) {adoption : Adoption}
    (dest : adoption.destId = commit.res.destId) (number : adoption.sendId = commit.sendId)
    (peer : adoption.fromPeer = commit.fromPeer) (conn : adoption.conn = commit.conn) :
    Attested starts { daemon with
      env := { daemon.env with fifo := rest, adoptions := daemon.env.adoptions ++ [adoption] }
      landing := daemon.landing ++ [{ commit := commit }] } := by
  have executed : ∀ {conn sendId}, daemon.Executed conn sendId →
      ∃ entry ∈ daemon.env.adoptions ++ [adoption], entry.conn = conn ∧ entry.sendId = sendId := by
    rintro conn sendId ⟨old, there, facts⟩
    exact ⟨old, mem_append_left _ there, facts⟩
  have waiting : daemon.waiting = commit :: (rest ++ daemon.parked) := by
    unfold Daemon.waiting
    rw [oldest]
    rfl
  have first := waiting ▸ mem_cons_self
  have queue : ∀ other ∈ rest ++ daemon.parked, other ∈ daemon.waiting := fun other there =>
    waiting ▸ mem_cons_of_mem commit there
  have adopted : daemon.Home adoption.conn adoption.fromPeer ∧
      Started (starts adoption.fromPeer adoption.conn) adoption.sendId adoption.destId := by
    rw [conn, peer, number, dest]
    exact attested.commits commit first
  refine { attested with
    ring := fun link mem sendId seen => executed (attested.ring link mem sendId seen)
    commits := fun other there => attested.commits other (queue other there)
    unrouted := fun other there => attested.unrouted other ?_
    routed := forall_mem_concat attested.routed fun _ route => by cases route
    landed := forall_mem_concat (fun entry old => executed (attested.landed entry old))
      ⟨adoption, mem_append_right _ mem_cons_self, conn, number⟩
    adopted := forall_mem_concat attested.adopted adopted }
  rcases mem_unrouted.mp there with waits | lands
  · exact mem_unrouted.mpr (.inl (queue other waits))
  · rcases mem_append.mp lands with old | new
    · exact mem_unrouted.mpr (.inr old)
    · cases mem_singleton.mp new
      exact mem_unrouted.mpr (.inl first)

theorem Attested.dispatch (attested : Attested starts daemon) :
    Attested starts (dispatchCommit daemon) := by
  unfold dispatchCommit
  split
  · exact attested
  next commit rest oldest =>
  simp only
  split
  · refine attested.requeue (fun other moved => ?_) fun _ => id
    unfold Daemon.waiting
    rw [oldest]
    simp only [mem_append, mem_cons, not_mem_nil, or_false] at moved ⊢
    tauto
  · exact { attested.execute oldest rfl rfl rfl rfl with }

theorem dispatch_adoptions (daemon : Daemon) : ∀ adoption ∈ daemon.env.adoptions,
    adoption ∈ (dispatchCommit daemon).env.adoptions := by
  intro adoption there
  unfold dispatchCommit
  split
  · exact there
  simp only
  split
  · exact there
  · exact mem_append_left _ there

theorem route_adoptions (daemon : Daemon) (position : Nat) : ∀ adoption ∈ daemon.env.adoptions,
    adoption ∈ (routeLanding daemon position).env.adoptions := by
  intro adoption there
  unfold routeLanding
  split
  · exact there
  · exact there

theorem Attested.route (attested : Attested starts daemon) (position : Nat) :
    Attested starts (routeLanding daemon position) := by
  unfold routeLanding
  split
  next commit found =>
    have there := mem_of_getElem? found
    have listed : ∀ entry ∈ daemon.landing.set position
        { commit := commit, route := some (daemon.registered commit.fromPeer) },
        entry ∈ daemon.landing ∨
          entry = { commit := commit, route := some (daemon.registered commit.fromPeer) } :=
      fun entry present => mem_or_eq_of_mem_set present
    refine { attested with unrouted := ?_, routed := ?_, landed := ?_ }
    · intro other present
      apply attested.unrouted
      rcases mem_unrouted.mp present with waits | lands
      · exact mem_unrouted.mpr (.inl waits)
      · rcases listed _ lands with old | same
        · exact mem_unrouted.mpr (.inr old)
        · cases same
    · intro entry present conn route
      rcases listed entry present with old | rfl
      · exact attested.routed entry old conn route
      · exact attested.unrouted commit (mem_unrouted.mpr (.inr there)) conn (Option.some.inj route)
    · intro entry present
      rcases listed entry present with old | rfl
      · exact attested.landed entry old
      · exact attested.landed ⟨commit, none⟩ there
  · exact attested

theorem Attested.extend (attested : Attested starts daemon) {offer : Offer}
    (unused : ∀ link ∈ daemon.links, link.alive = true → link.peer ≠ offer.peer)
    (settled : ∀ commit ∈ daemon.unrouted, commit.fromPeer ≠ offer.peer) :
    Attested starts (extended daemon offer) := by
  refine { attested with
    registered := forall_mem_concat (fun link old alive => ?_) fun _ => update_self ..
    indexed := extended_indexed attested.indexed
    dead := forall_mem_concat attested.dead fun _ => rfl
    receivers := forall_mem_concat attested.receivers (forall_mem_nil _)
    ring := forall_mem_concat attested.ring (forall_mem_nil _)
    commits := fun commit there => (attested.commits commit there).imp_left .extend
    unrouted := ?_
    adopted := fun adoption there => (attested.adopted adoption there).imp_left .extend }
  · exact (update_of_ne (unused link old alive) _ _).trans (attested.registered link old alive)
  · intro commit there conn found
    have before := (update_of_ne (settled commit there) _ _).symm.trans found
    exact attested.unrouted commit there conn before

end Daemons

/-! ### runs -/

/-- A step that confuses no two links: a link is adopted only when every commit of its peer
has been routed, and an RTS is handled only on a link that was not dropped. -/
def Prompt (world : World) : Action → Prop
  | .adopt name conn _ => IfFound (world.offer name conn) fun offer =>
    ∀ commit ∈ (world.daemons name).unrouted, commit.fromPeer ≠ offer.peer
  | .deliver name conn frame _ => IfFound ((world.daemons name).link conn) fun link =>
    frame.message.isRts = true → link.alive = true
  | _ => True

instance (world : World) (action : Action) : Decidable (Prompt world action) := by
  apply @Action.casesOn (Decidable <| Prompt world ·) action <;> intros <;> dsimp only [Prompt] <;>
    infer_instance

def PromptRun (world : World) : List Action → Prop
  | [] => True
  | action :: rest => Prompt world action ∧ PromptRun (act world action) rest

instance decidablePromptRun (world : World) (actions : List Action) :
    Decidable (PromptRun world actions) :=
  match actions with
  | [] => inferInstanceAs (Decidable True)
  | action :: rest =>
    have := decidablePromptRun (act world action) rest
    inferInstanceAs (Decidable (_ ∧ _))

structure AllAttested (world : World) : Prop where
  daemons : ∀ name, Attested world.startsOn (world.daemons name)
  wire : ∀ frame ∈ world.wire, ∀ sendId, frame.message = .doneAck sendId →
    (world.daemons frame.sender).Executed frame.conn sendId
  tickets : ∀ name, ∀ link ∈ (world.daemons name).links, ∀ ticket ∈ link.core.tickets,
    ticket.state = .done → (world.daemons link.peer).Executed link.conn ticket.sendId

section Runs

variable {ends : Nat → String × String} {world next : World} {name : String} {link written : Link}
  {daemon : Daemon} {hub : Hub}

section

variable (attested : AllAttested world)
include attested

theorem AllAttested.change (grown : Grown world next)
    (self : Attested world.startsOn (next name))
    (away : ∀ other, other ≠ name → next other = world other)
    (kept : ∀ adoption ∈ (world name).env.adoptions,
      adoption ∈ (next name).env.adoptions)
    (wire : ∀ frame ∈ next.wire, frame ∈ world.wire ∨ frame.sender = name ∧
      ∀ sendId, frame.message = .doneAck sendId → (next name).Executed frame.conn sendId)
    (tickets : ∀ link ∈ (next name).links, ∀ ticket ∈ link.core.tickets,
      ticket.state = .done → (world link.peer).Executed link.conn ticket.sendId) :
    AllAttested next := by
  have executed : ∀ {other conn sendId}, (world other).Executed conn sendId →
      (next other).Executed conn sendId := by
    rintro other conn sendId ⟨adoption, there, facts⟩
    by_cases hit : other = name
    · subst hit
      exact ⟨adoption, kept adoption there, facts⟩
    · exact ⟨adoption, (away other hit).symm ▸ there, facts⟩
  constructor
  · intro other
    by_cases hit : other = name
    · exact hit ▸ self.mono grown.starts
    · exact away other hit ▸ (attested.daemons other).mono grown.starts
  · intro frame listed sendId same
    rcases wire frame listed with old | ⟨sender, fine⟩
    · exact executed (attested.wire frame old sendId same)
    · exact sender ▸ fine sendId same
  intro other link listed ticket mem done
  by_cases hit : other = name
  · exact executed (tickets link (hit ▸ listed) ticket mem done)
  · rw [away other hit] at listed
    exact executed (attested.tickets other link listed ticket mem done)

theorem AllAttested.set (name : String)
    (named : daemon.name = name) (links : daemon.links = (world name).links)
    (grown : Grown world (world.set daemon)) (self : Attested world.startsOn daemon)
    (kept : ∀ adoption ∈ (world name).env.adoptions, adoption ∈ daemon.env.adoptions) :
    AllAttested (world.set daemon) := by
  apply attested.change grown
  · rw [set_self named]
    exact self
  · exact fun other ne => set_other named ne
  · rw [set_self named]
    exact kept
  · exact fun frame listed => .inl listed
  · rw [set_self named, links]
    exact attested.tickets name

theorem AllAttested.settles (named : daemon.name = name)
    (links : (settled daemon written hub).links =
      rewritten (world name).links { written with core := hub.core })
    (self : Attested world.startsOn (settled daemon written hub))
    (adoptions : hub.env.adoptions = (world name).env.adoptions)
    (out : ∀ frame ∈ hub.out, ∀ sendId, frame.1 = .doneAck sendId →
      (world name).Executed written.conn sendId)
    (tickets : ∀ ticket ∈ hub.core.tickets, ticket.state = .done →
      (world written.peer).Executed written.conn ticket.sendId)
    (grown : Grown world (world.settle daemon written hub)) :
    AllAttested (world.settle daemon written hub) := by
  apply attested.change grown
  · rw [settle_self named]
    exact self
  · exact fun other ne => settle_other named ne
  · rw [settle_self named]
    exact fun adoption there => adoptions.symm ▸ there
  · intro frame listed
    rcases mem_append.mp listed with old | new
    · exact .inl old
    obtain ⟨sent, there, rfl⟩ := mem_map.mp new
    refine .inr ⟨named, fun sendId same => ?_⟩
    rw [settle_self named]
    exact executed_of_same adoptions (out sent there sendId same)
  · rw [settle_self named, links]
    exact forall_mem_write (attested.tickets name) tickets

theorem AllAttested.settle (coherent : Coherent ends world)
    (mem : link ∈ (world name).links) (named : daemon.name = name)
    (addressed : Addressed (world.startsOn link.peer link.conn)
      ((world link.peer).Executed link.conn) ((world name).hub link) hub)
    (conn : written.conn = link.conn) (peer : written.peer = link.peer)
    (links : (settled daemon written hub).links =
      rewritten (world name).links { written with core := hub.core })
    (parked : daemon.parked = (world name).parked)
    (landing : daemon.landing = (world name).landing)
    (dead : written.alive = false → hub.core.receivers = [])
    (silent : link.alive = false → hub.env.fifo = (world name).env.fifo)
    (registered : ∀ other ∈ (settled daemon written hub).links, other.alive = true →
      daemon.registered other.peer = some other.conn)
    (index : ∀ peer conn, daemon.registered peer = some conn →
      (world name).registered peer = some conn)
    (grown : Grown world (world.settle daemon written hub)) :
    AllAttested (world.settle daemon written hub) := by
  have own := attested.daemons name
  have self : Attested world.startsOn (settled daemon written hub) := by
    have sameConn : ({ written with core := hub.core } : Link).conn = link.conn := conn
    refine own.relink (coherent.conns name) mem sameConn peer links addressed.receivers dead ?_
      addressed.adoptions ?_ ?_ registered index
    · rw [addressed.completed]
      exact own.ring link mem
    · intro commit waits
      have moved : commit ∈ hub.env.fifo ++ daemon.parked := waits
      cases alive : link.alive with
      | false =>
        rw [silent alive, parked] at moved
        exact .inl moved
      | true =>
        obtain ⟨added, fifo, all⟩ := addressed.queue
        rw [fifo, parked] at moved
        rcases mem_append.mp moved with queued | rest
        · rcases mem_append.mp queued with old | new
          · exact .inl (mem_append_left _ old)
          · exact .inr ⟨rfl, all commit new⟩
        · exact .inl (mem_append_right _ rest)
    · exact fun entry there => landing ▸ there
  refine attested.settles named links self addressed.adoptions ?_ ?_ grown
  · intro sent there sendId same
    exact conn ▸ own.ring link mem sendId (addressed.out sent there sendId same)
  · intro ticket there done
    rw [conn, peer]
    rcases addressed.tickets ticket there done with now | ⟨before, listed, same, ended⟩
    · exact now
    · exact same ▸ attested.tickets name link mem before listed ended

theorem AllAttested.run (coherent : Coherent ends world)
    (mem : link ∈ (world name).links) (named : daemon.name = name)
    (addressed : Addressed (world.startsOn link.peer link.conn)
      ((world link.peer).Executed link.conn) ((world name).hub link) hub)
    (links : daemon.links = (world name).links)
    (parked : daemon.parked = (world name).parked)
    (landing : daemon.landing = (world name).landing)
    (registered : daemon.registered = (world name).registered)
    (idle : link.alive = false → hub.core.receivers = [] ∧ hub.env = (world name).env)
    (grown : Grown world (world.settle daemon link hub)) :
    AllAttested (world.settle daemon link hub) := by
  have final : (settled daemon link hub).links =
      rewritten (world name).links { link with core := hub.core } :=
    congrArg (rewritten · { link with core := hub.core }) links
  refine attested.settle coherent mem named addressed rfl rfl final parked landing
    (fun gone => (idle gone).1) (fun gone => congrArg Env.fifo (idle gone).2) ?_
    (fun _ _ => registered ▸ id) grown
  rw [final, registered]
  exact forall_mem_write (attested.daemons name).registered ((attested.daemons name).registered link mem)

end

theorem AllAttested.drop (now : ℚ) (attested : AllAttested world) (coherent : Coherent ends world)
    (mem : link ∈ (world name).links) :
    AllAttested (dropLink now world (world name) link) := by
  have reaches := drop_link_coherent now coherent mem
  by_cases gone : link.alive = false
  · rw [dropLink, if_pos gone]
    exact attested
  have alive : link.alive = true := by simpa using gone
  have own := attested.daemons name
  rw [drop_link_alive now world _ alive] at reaches ⊢
  refine attested.settle coherent mem (coherent.named name)
    (ensures_reached (drop_hub_addressed (.refl rfl (own.receivers link mem)))) rfl rfl closed_links
    rfl rfl (fun _ => ensures_reached drop_hub_receivers)
    (fun gone => absurd gone (by simp [alive])) ?_ closed_index reaches.grown
  rw [closed_links]
  exact closed_registered alive mem own.registered

theorem AllAttested.install (attested : AllAttested world) (coherent : Coherent ends world)
    {offer : Offer} (mem : offer ∈ world.offers) (holder : offer.holder = name)
    (gone : ∀ link ∈ (world name).links, link.alive = true → link.peer ≠ offer.peer)
    (settled : ∀ commit ∈ (world name).unrouted, commit.fromPeer ≠ offer.peer) :
    AllAttested (installed world name offer) := by
  subst holder
  have named : (extended (world offer.holder) offer).name = offer.holder :=
    coherent.named offer.holder
  apply attested.change (coherent.install mem).grown
  · rw [installed, set_self named]
    exact (attested.daemons offer.holder).extend gone settled
  · exact fun other ne => set_other named ne
  · rw [installed, set_self named]
    exact fun _ => id
  · exact fun frame listed => .inl listed
  rw [installed, set_self named]
  exact forall_mem_concat (attested.tickets offer.holder) fun _ none => by cases none

theorem drop_link_unrouted (now : ℚ) (coherent : Coherent ends world) (old : Link) :
    ((dropLink now world (world name) old).daemons name).unrouted =
      (world name).unrouted := by
  by_cases gone : old.alive = false
  · rw [dropLink, if_pos gone]
  have named : (closed (world name) old).name = name := coherent.named name
  have fifo : (reached (dropHub now ((world name).hub old))).env.fifo =
      (world name).env.fifo :=
    ensures_reached drop_hub_fifo
  rw [drop_link_alive now world _ (by simpa using gone), settle_self named]
  show (reached (dropHub now ((world name).hub old))).env.fifo ++ _ ++ _ = _
  rw [fifo]
  rfl

theorem AllAttested.adopt (now : ℚ) (attested : AllAttested world) (coherent : Coherent ends world)
    {offer : Offer} (mem : offer ∈ world.offers) (holder : offer.holder = name)
    (settled : ∀ commit ∈ (world name).unrouted, commit.fromPeer ≠ offer.peer) :
    AllAttested (adoptLink now world (world name) offer) := by
  have own := attested.daemons name
  rcases adopt_link_cases now (coherent.named name) offer with
    ⟨_, _, _, same⟩ | ⟨free, same⟩ | ⟨old, found, _, same⟩
  · rw [same]
    exact { attested with }
  · rw [same]
    exact attested.install coherent mem holder
      (unlinked_leaves_peer coherent own.registered free) settled
  have listed := (bind_link_listed found).2
  have dropped := attested.drop now coherent listed
  have reaches := drop_link_coherent now coherent listed
  have still : offer ∈ (dropLink now world (world name) old).offers :=
    offers_drop_link now world _ old ▸ mem
  rw [same]
  exact dropped.install reaches.coherent still holder
    (drop_leaves_peer now coherent own.indexed (dropped.daemons name).registered found)
    (drop_link_unrouted now coherent old ▸ settled)

section

variable (attested : AllAttested world)
include attested

theorem AllAttested.tell (coherent : Coherent ends world)
    (mem : link ∈ (world name).links) {position : Nat} {commit : Commit}
    (executed : (world name).Executed link.conn commit.sendId)
    (told : Told commit.sendId ((returned (world name) position commit).hub link) hub)
    (grown : Grown world (world.settle (returned (world name) position commit) link hub)) :
    AllAttested (world.settle (returned (world name) position commit) link hub) := by
  have own := attested.daemons name
  have named : (returned (world name) position commit).name = name := coherent.named name
  have adoptions := (congrArg Env.adoptions told.env :)
  have links : (settled (returned (world name) position commit) link hub).links =
      rewritten (world name).links { link with core := hub.core } := rfl
  have sameConn : ({ link with core := hub.core } : Link).conn = link.conn := rfl
  have ring : ∀ sendId ∈ hub.core.completed, (world name).Executed link.conn sendId := by
    intro sendId seen
    rcases told.completed sendId seen with old | rfl
    · exact own.ring link mem sendId old
    · exact executed
  refine attested.settles named links ?_ adoptions ?_ ?_ grown
  · refine own.relink (coherent.conns name) mem sameConn rfl links ?_ ?_ ring adoptions ?_ ?_ ?_ ?_
    · exact fun machine listed => own.receivers link mem machine (told.receivers machine listed)
    · intro gone
      have empty := own.dead link mem gone
      apply eq_nil_iff_forall_not_mem.mpr
      intro machine listed
      have before : machine ∈ link.core.receivers := told.receivers machine listed
      rw [empty] at before
      cases before
    · intro other waits
      have moved : other ∈ hub.env.fifo ++ (world name).parked := waits
      rw [told.env] at moved
      exact .inl moved
    · exact fun entry listed => mem_of_mem_eraseIdx listed
    · exact forall_mem_write own.registered (own.registered link mem)
    · exact fun _ _ => id
  · intro sent there sendId same
    have spoken := (told.out sent there).resolve_left nofun
    obtain rfl : commit.sendId = sendId := by
      cases spoken.symm.trans same
      rfl
    exact executed
  · exact told.tickets ▸ attested.tickets name link mem

theorem AllAttested.land (coherent : Coherent ends world)
    {position : Nat} (grown : Grown world (landCommit world (world name) position)) :
    AllAttested (landCommit world (world name) position) := by
  have own := attested.daemons name
  rcases land_commit_cases world (world name) position with
    same | ⟨commit, target, found, ⟨_, same⟩ | ⟨link, there, same⟩⟩
  · rw [same]
    exact attested
  · rw [same] at grown ⊢
    refine attested.set name ?_ rfl grown ?_ fun _ => id
    · exact coherent.named name
    · exact { own.requeue (fun _ => id) fun entry listed => mem_of_mem_eraseIdx listed with }
  obtain ⟨route, mem⟩ := bind_link_listed there
  have listed := mem_of_getElem? found
  -- the commit was routed to the link that it came from
  have conn := own.routed _ listed link.conn (congrArg some route)
  rw [same] at grown ⊢
  exact attested.tell coherent mem (conn ▸ own.landed _ listed) (commit_done_told _ _) grown

theorem AllAttested.write (coherent : Coherent ends world)
    (mem : link ∈ (world name).links) (now : ℚ) (sendId : SendId) (store : Store)
    (writers : List (Nat × RdmaWrite)) :
    AllAttested ((world.set (patched (world link.peer) store)).settle
      (rewriting (world name) writers) link
      (rdmaWriteFinished now sendId ((world name).hub link))) := by
  have named : (patched (world link.peer) store).name = link.peer :=
    coherent.named link.peer
  have issuer : (rewriting (world name) writers).name = name := coherent.named name
  have landed := coherent.set named rfl rfl
  have self : (world.set (patched (world link.peer) store)).daemons name =
      world name :=
    set_other named (coherent.joined name link mem).1
  have first :=
    attested.set link.peer named rfl landed.grown { attested.daemons link.peer with } fun _ => id
  have there := self.symm ▸ mem
  have side : ∀ acked, SenderSide acked ((world name).hub link)
      (rdmaWriteFinished now sendId ((world name).hub link)) :=
    fun acked => (rdma_write_finished_sends : Sends acked False _ _).toSenderSide
  have spoken : Spoken ((world name).hub link)
      (rdmaWriteFinished now sendId ((world name).hub link)) :=
    (Spoken.refl (coherent.sound name link mem) rfl).works rdma_write_finished_works
  have grown := (landed.coherent.settle there issuer (by rw [self]; rfl) (.inl (by rw [self]; rfl))
    rfl rfl rfl spoken).grown
  refine first.run landed.coherent there issuer ?_ ?_ ?_ ?_ ?_ ?_ grown
  · rw [self]
    refine Addressed.sender (.refl rfl ?_) (side _)
    exact (first.daemons name).receivers link there
  · rw [self]
    rfl
  · rw [self]
    rfl
  · rw [self]
    rfl
  · rw [self]
    rfl
  · rw [self]
    exact fun gone => ⟨(side fun _ => False).receivers.trans
      ((attested.daemons name).dead link mem gone), (side fun _ => False).env⟩

end

theorem act_attested (coherent : Coherent ends world) (attested : AllAttested world) {action : Action}
    (prompt : Prompt world action) : AllAttested (act world action) := by
  obtain ⟨_, reaches⟩ := act_coherent coherent action
  have grown := reaches.grown
  have own := attested.daemons
  have silent : ∀ {name link}, link ∈ (world name).links →
      Addressed (world.startsOn link.peer link.conn) ((world link.peer).Executed link.conn)
        ((world name).hub link) ((world name).hub link) :=
    fun {name link} mem => .refl rfl ((own name).receivers link mem)
  have idle : ∀ {name link}, link ∈ (world name).links → link.alive = false →
      ((world name).hub link).core.receivers = [] :=
    fun {name link} mem gone => (own name).dead link mem gone
  cases action with
  | connect left right =>
    simp only [act]
    split
    · exact attested
    · exact { attested with }
  | adopt name conn now =>
    simp only [act, Prompt, World.offer] at prompt ⊢
    split
    · exact attested
    next offer found =>
    have keyed := find?_some found
    simp only [decide_eq_true_eq] at keyed
    rw [found] at prompt
    exact attested.adopt now coherent (mem_of_find?_eq_some found) keyed.1 prompt
  | drop name conn now =>
    simp only [act]
    split
    · exact attested
    next link found => exact attested.drop now coherent (link_listed found).1
  | send name peer now destId payload overwrite info =>
    simp only [act] at grown ⊢
    split at grown
    · exact attested
    next link found =>
    have mem := (bind_link_listed found).2
    have side : SenderSide ((world link.peer).Executed link.conn)
      ((world name).hub link)
      (startSend now destId payload overwrite info ((world name).hub link)) := start_send_side
    exact attested.run coherent mem (coherent.named name) ((silent mem).sender side) rfl rfl rfl
      rfl (fun gone => ⟨side.receivers.trans (idle mem gone), side.env⟩) grown
  | deliver name conn frame now =>
    simp only [act, Prompt] at grown prompt ⊢
    split at grown
    · exact attested
    next link found =>
    rw [found] at prompt
    obtain ⟨mem, sameConn⟩ := link_listed found
    split at grown
    · next real =>
      rw [if_pos real]
      have genuine := coherent.wire frame real.1
      rw [real.2.1, real.2.2, ← sameConn] at genuine
      have acks : ∀ sendId, frame.message = .doneAck sendId →
          (world link.peer).Executed link.conn sendId := by
        intro sendId same
        have truth := attested.wire frame real.1 sendId same
        rwa [real.2.1, real.2.2, ← sameConn] at truth
      refine attested.run coherent mem (coherent.named name)
        (ensures_reached (handle_addressed (silent mem) genuine acks)) rfl rfl rfl rfl ?_ grown
      intro gone
      refine ensures_reached (handle_without_receivers ?_ (idle mem gone))
      cases kind : frame.message.isRts with
      | false => rfl
      | true => exact absurd (gone.symm.trans (prompt kind)) (by decide)
    · next unreal =>
      rw [if_neg unreal]
      exact attested
  | tick name conn now =>
    simp only [act] at grown ⊢
    split at grown
    · exact attested
    next link found =>
    have mem := (link_listed found).1
    exact attested.run coherent mem (coherent.named name)
      (ensures_reached (tick_addressed (silent mem))) rfl rfl rfl rfl
      (fun gone => ensures_reached (tick_without_receivers (idle mem gone))) grown
  | lease name object =>
    exact attested.set name (by exact coherent.named name) rfl grown { own name with } fun _ => id
  | unlease name object =>
    have queue : ∀ commit ∈ (world name).waiting ++ [], commit ∈ (world name).waiting := by
      rw [append_nil]
      exact fun _ => id
    exact attested.set name (by exact coherent.named name) rfl grown
      { (own name).requeue queue fun _ => id with } fun _ => id
  | dispatch name =>
    obtain ⟨same, links, _, _⟩ := dispatch_same (world name)
    exact attested.set name (same.trans (coherent.named name)) links grown (own name).dispatch
      (dispatch_adoptions (world name))
  | route name position =>
    obtain ⟨same, links, _, _⟩ := route_same (world name) position
    exact attested.set name (same.trans (coherent.named name)) links grown ((own name).route position)
      (route_adoptions (world name) position)
  | land name position => exact attested.land coherent grown
  | rdmaUp name conn =>
    simp only [act] at grown ⊢
    split at grown
    · exact attested
    next link found =>
    have mem := (link_listed found).1
    have named : ((world name).setLink { link with
      rdmaReady := true, core := { link.core with rdmaWriter := true } }).name = name :=
      coherent.named name
    apply attested.change grown
    · rw [set_self named]
      have conn : ({ link with rdmaReady := true, core := { link.core with rdmaWriter := true } } :
        Link).conn = link.conn := rfl
      refine (own name).relink (coherent.conns name) mem conn rfl rfl
        ((own name).receivers link mem) ((own name).dead link mem)
        ((own name).ring link mem) rfl (fun _ => .inl) (fun _ => id) ?_ fun _ _ => id
      exact forall_mem_write (own name).registered ((own name).registered link mem)
    · exact fun other ne => set_other named ne
    · rw [set_self named]
      exact fun _ => id
    · exact fun frame listed => .inl listed
    · rw [set_self named]
      exact forall_mem_write (attested.tickets name) (attested.tickets name link mem)
  | rdmaWrite name position now =>
    simp only [act]
    rcases write_remote_cases world (world name) position now with
      same | ⟨conn, write, _, ⟨_, same⟩ | ⟨link, store, found, same⟩⟩
    · rw [same]
      exact attested
    · have named : (rewriting (world name)
        ((world name).writers.eraseIdx position)).name = name := coherent.named name
      rw [same]
      exact attested.set name named rfl (coherent.set named rfl rfl).grown { own name with }
        fun _ => id
    · rw [same]
      exact attested.write coherent (link_listed found).1 now write.sendId _ _

theorem run_attested {actions : List Action} (coherent : Coherent ends world)
    (attested : AllAttested world) (prompt : PromptRun world actions) :
    AllAttested (runActions world actions) := by
  induction actions generalizing world ends with
  | nil => exact attested
  | cons action rest ih =>
    obtain ⟨_, reaches⟩ := act_coherent coherent action
    exact ih reaches.coherent (act_attested coherent attested prompt.1) prompt.2

end Runs

theorem World.Fresh.attested {world : World} (fresh : world.Fresh) : AllAttested world where
  wire frame mem := by simp [fresh.wire] at mem
  tickets name link mem := by simp [fresh.links name] at mem
  daemons name := by
    have unrouted : (world name).unrouted = [] := by
      simp [Daemon.unrouted, fresh.waiting name, fresh.landing name]
    constructor <;> simp [fresh.links, fresh.registered, fresh.waiting, unrouted, fresh.landing,
      fresh.adoptions]

theorem Joins.peer_eq {ends : Nat → String × String} {conn : Nat} {left middle right : String}
    (first : Joins ends conn left middle) (second : Joins ends conn middle right) : right = left := by
  obtain ⟨apart, here | here⟩ := first <;> obtain ⟨_, there | there⟩ := second
  · exact absurd (congrArg Prod.fst (here.symm.trans there)) apart
  · exact (congrArg Prod.fst (here.symm.trans there)).symm
  · exact (congrArg Prod.snd (here.symm.trans there)).symm
  · exact absurd (congrArg Prod.snd (here.symm.trans there)) apart

/-- The commit of `x` waits while both daemons reconnect; routed by the name of the peer,
it acknowledges the first send of the new link. -/
def overtakenTransfer : List Action :=
  offeredTransfer ++ [.drop "b" 0 0, .drop "a" 0 0, .connect "a" "b", .adopt "a" 1 0, .adopt "b" 1 0,
    .send "a" "b" 0 "y" [3, 4] false [],
    .deliver "b" 1 ⟨1, "a", .rts 1 "y" 2 [] false true, [3, 4]⟩ 0,
    .dispatch "b", .route "b" 0, .land "b" 0, .deliver "a" 1 ⟨1, "b", .doneAck 1, []⟩ 0]

end Dataflow.Peer
