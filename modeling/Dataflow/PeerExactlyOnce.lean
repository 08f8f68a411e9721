import Dataflow.PeerOwnership

/-!
Exactly once, over whole runs. `Linear` is the invariant of a daemon: the ledger
with every open transfer and every waiting commit, one unfinished commit for
each receiver that commits, and, for an id the dedup ring has not forgotten, one
execution or one waiting commit for each time the id was accepted. It holds
along every run in which no transfer is disturbed while its commit waits.
-/

namespace Dataflow.Peer

open StatefulOutcome ByteRanges Service KeyedTable List Function

namespace Daemon

def waiting (daemon : Daemon) : List Commit := daemon.env.fifo ++ daemon.parked

def unfinished (daemon : Daemon) : List Commit :=
  daemon.waiting ++ daemon.landing.map (·.commit)

/-- How often a transfer of a connection was executed. -/
def adopted (daemon : Daemon) (conn : Nat) (sendId : SendId) : Nat :=
  daemon.env.adoptions.countP fun adoption => adoption.conn = conn ∧ adoption.sendId = sendId

/-- Every reservation that is neither released nor adopted. -/
def held (daemon : Daemon) : List Hold :=
  daemon.links.flatMap (fun link => openHolds link.core.receivers) ++ queuedHolds daemon.waiting

end Daemon

/-- The transfers of one link. -/
structure LinkLinear (starts : List Start) (chunk : Nat) (daemon : Daemon) (link : Link) : Prop where
  rdma : link.rdmaReady = false
  distinct : (link.core.receivers.map (·.sendId)).Nodup
  filling : ∀ machine ∈ link.core.receivers,
    ∃ start ∈ starts, Filling chunk daemon.env.store.slab machine start
  fresh : ∀ machine ∈ link.core.receivers, machine.sendId ∉ link.core.completed
  dead : link.alive = false → link.core.receivers = []
  registered : link.alive = true → daemon.registered link.peer = some link.conn
  keyed : ∀ sendId,
    pending daemon.unfinished link.conn sendId = committing link.core.receivers sendId
  once : ∀ sendId ∉ link.core.forgotten,
    daemon.adopted link.conn sendId + pending daemon.waiting link.conn sendId =
      (if sendId ∈ link.core.completed then 1 else 0) + committing link.core.receivers sendId

def Daemon.Home (daemon : Daemon) (conn : Nat) (peer : String) : Prop :=
  ∃ link ∈ daemon.links, link.conn = conn ∧ link.peer = peer

structure Linear (starts : String → Nat → List Start) (chunk : String → Nat) (daemon : Daemon) :
    Prop where
  ledger : Ledger daemon.env daemon.held
  links : ∀ link ∈ daemon.links, LinkLinear (starts link.peer link.conn) (chunk link.peer) daemon link
  commits : ∀ commit ∈ daemon.waiting, ∃ start ∈ starts commit.fromPeer commit.conn,
    Arrived daemon.env.store.slab commit start
  homes : ∀ commit ∈ daemon.unfinished, daemon.Home commit.conn commit.fromPeer
  routes : ∀ landing ∈ daemon.landing, ∀ target, landing.route = some target →
    target = some landing.commit.conn
  indexed : ∀ peer conn, daemon.registered peer = some conn → daemon.Home conn peer
  adoptedHomes : ∀ adoption ∈ daemon.env.adoptions, daemon.Home adoption.conn adoption.fromPeer
  truthful : ∀ adoption ∈ daemon.env.adoptions,
    ∃ start ∈ starts adoption.fromPeer adoption.conn, start.sendId = adoption.sendId ∧
      start.destId = adoption.destId ∧ start.payload = adoption.bytes

section Homes

variable {daemon next : Daemon} {link written : Link} {offer : Offer} {index : Nat} {name : String}

theorem Daemon.Home.rewrite (conns : (daemon.links.map Link.conn).Nodup) (mem : link ∈ daemon.links)
    (conn : written.conn = link.conn) (peer : written.peer = link.peer)
    (links : next.links = rewritten daemon.links written) (home : daemon.Home index name) :
    next.Home index name := by
  obtain ⟨old, listed, rfl, rfl⟩ := home
  by_cases here : old.conn = written.conn
  · have only := inj_on_of_nodup_map conns listed mem (here.trans conn)
    exact ⟨written, links ▸ rewritten_mem listed here, here.symm, only ▸ peer⟩
  · exact ⟨old, links ▸ mem_rewritten_other listed here, rfl, rfl⟩

theorem Daemon.Home.extend : daemon.Home index name → (extended daemon offer).Home index name :=
  fun ⟨link, mem, facts⟩ => ⟨link, mem_append_left _ mem, facts⟩

theorem extended_indexed
    (indexed : ∀ peer conn, daemon.registered peer = some conn → daemon.Home conn peer)
    (peer : String) (conn : Nat) (found : (extended daemon offer).registered peer = some conn) :
    (extended daemon offer).Home conn peer := by
  by_cases here : peer = offer.peer
  · subst here
    have value : (extended daemon offer).registered offer.peer = some offer.conn := update_self ..
    exact ⟨_, mem_append_right _ mem_cons_self, Option.some.inj (value.symm.trans found), rfl⟩
  · exact (indexed peer conn ((update_of_ne here _ _).symm.trans found)).extend

end Homes

section Daemons

variable {starts more : String → Nat → List Start} {chunk : String → Nat} {daemon next : Daemon}
  {link written : Link} {hub : Hub}

theorem Linear.mono (linear : Linear starts chunk daemon)
    (grown : ∀ name conn, ∀ start ∈ starts name conn, start ∈ more name conn) :
    Linear more chunk daemon := by
  refine { linear with links := ?_, commits := ?_, truthful := ?_ }
  · intro link mem
    have old := linear.links link mem
    refine { old with filling := ?_ }
    intro machine listed
    obtain ⟨start, known, filling⟩ := old.filling machine listed
    exact ⟨start, grown _ _ start known, filling⟩
  · intro commit mem
    obtain ⟨start, known, arrived⟩ := linear.commits commit mem
    exact ⟨start, grown _ _ start known, arrived⟩
  · intro adoption mem
    obtain ⟨start, known, facts⟩ := linear.truthful adoption mem
    exact ⟨start, grown _ _ start known, facts⟩

def restOf (daemon : Daemon) (link : Link) : List Hold :=
  (remove Link.conn link.conn daemon.links).flatMap
    (fun other => openHolds other.core.receivers) ++ queuedHolds daemon.parked

theorem queued_append (left right : List Commit) :
    queuedHolds (left ++ right) = queuedHolds left ++ queuedHolds right :=
  map_append

theorem held_perm {others : List Link} (order : daemon.links.Perm (link :: others)) :
    daemon.held.Perm (openHolds link.core.receivers ++ (queuedHolds daemon.env.fifo ++
      (others.flatMap (fun other => openHolds other.core.receivers) ++
        queuedHolds daemon.parked))) := by
  have first := (order.flatMap_right fun other => openHolds other.core.receivers).append_right
    (queuedHolds daemon.waiting)
  rw [flatMap_cons] at first
  refine first.trans ?_
  unfold Daemon.waiting
  rw [queued_append, append_assoc]
  apply Perm.append_left
  rw [← append_assoc, ← append_assoc]
  exact (perm_append_comm).append_right _

theorem Linear.owned (linear : Linear starts chunk daemon)
    (conns : (daemon.links.map Link.conn).Nodup) (mem : link ∈ daemon.links) :
    Owned (starts link.peer link.conn) (chunk link.peer) (restOf daemon link)
      (daemon.hub link) (daemon.hub link) := by
  have own := linear.links link mem
  have order := perm_remove conns (lookup_of_mem conns mem)
  constructor
  · rfl
  · rfl
  · exact own.rdma
  · exact linear.ledger.perm (held_perm order)
  · exact fun _ _ _ _ => rfl
  · rfl
  · exact ⟨[], (append_nil _).symm, forall_mem_nil _⟩
  · exact own.distinct
  · exact own.filling
  · exact own.fresh
  · rfl
  · rfl
  · exact fun _ => rfl

theorem pending_zero {commits : List Commit} {conn other : Nat} (apart : conn ≠ other)
    (all : ∀ commit ∈ commits, commit.conn = other) (sendId : SendId) :
    pending commits conn sendId = 0 := by
  apply countP_eq_zero.mpr
  intro commit mem holds
  simp only [decide_eq_true_eq] at holds
  exact apart (holds.1.symm.trans (all commit mem))

theorem Linear.settle (linear : Linear starts chunk daemon)
    (conns : (daemon.links.map Link.conn).Nodup) (mem : link ∈ daemon.links)
    (owned : Owned (starts link.peer link.conn) (chunk link.peer) (restOf daemon link)
      (daemon.hub link) hub) {alive : Bool} {links : List Link} {registry : String → Option Nat}
    (relinked : links = rewritten daemon.links { link with alive := alive, core := hub.core })
    (dead : alive = false → hub.core.receivers = [])
    (registered : ∀ other ∈ links, other.alive = true → registry other.peer = some other.conn)
    (index : ∀ peer conn, registry peer = some conn → daemon.registered peer = some conn) :
    Linear starts chunk { daemon with links := links, env := hub.env, registered := registry } := by
  let written : Link := { link with alive := alive, core := hub.core }
  let next : Daemon := { daemon with links := links, env := hub.env, registered := registry }
  have own := linear.links link mem
  have gave : next.links.Perm (written :: remove Link.conn link.conn daemon.links) := by
    have there : lookup Link.conn link.conn daemon.links = some link := lookup_of_mem conns mem
    show links.Perm _
    rw [relinked]
    exact update_perm written conns there
  have home : ∀ index name, daemon.Home index name → next.Home index name :=
    fun _ _ home => home.rewrite conns mem (by rfl) (by rfl) relinked
  obtain ⟨added, fifo, arrived⟩ := owned.queue
  have adoptions : next.env.adoptions = daemon.env.adoptions := owned.adoptions
  have waiting : next.waiting = daemon.env.fifo ++ added ++ daemon.parked :=
    congrArg (· ++ daemon.parked) fifo
  -- the counts of a link move by what was queued for it
  have pendings : ∀ index sendId, pending next.waiting index sendId =
      pending daemon.waiting index sendId + pending added index sendId := by
    intro index sendId
    rw [waiting]
    unfold Daemon.waiting
    simp only [pending_append]
    omega
  have unfinished : ∀ index sendId, pending next.unfinished index sendId =
      pending daemon.unfinished index sendId + pending added index sendId := by
    intro index sendId
    have lands : next.landing = daemon.landing := rfl
    unfold Daemon.unfinished
    rw [lands, pending_append, pending_append, pendings]
    omega
  have moved : ∀ sendId, pending added link.conn sendId + committing link.core.receivers sendId =
      committing hub.core.receivers sendId := by
    intro sendId
    have balance := owned.balance sendId
    rw [fifo, owned.conn, pending_append] at balance
    simp only [Daemon.hub] at balance
    omega
  have adopted : ∀ index sendId, next.adopted index sendId = daemon.adopted index sendId := by
    intro index sendId
    unfold Daemon.adopted
    rw [adoptions]
  have mine : ∀ commit ∈ added, commit.conn = link.conn := fun commit listed =>
    (arrived commit listed).1
  have roomy := (linear.owned conns mem).ledger.roomy
  constructor
  · exact owned.ledger.perm (held_perm gave).symm
  · intro other (listed : other ∈ links)
    have present := relinked ▸ listed
    rcases mem_rewritten present with rfl | ⟨there, elsewhere⟩
    · refine ⟨own.rdma, owned.distinct, owned.filling, owned.fresh, dead, registered _ listed, ?_, ?_⟩
      · intro sendId
        have before := own.keyed sendId
        have change := moved sendId
        show pending next.unfinished link.conn sendId = committing hub.core.receivers sendId
        rw [unfinished]
        omega
      intro sendId unforgotten
      have before := own.once sendId (by rwa [owned.forgotten] at unforgotten)
      have change := moved sendId
      show next.adopted link.conn sendId + pending next.waiting link.conn sendId =
        (if sendId ∈ hub.core.completed then 1 else 0) + committing hub.core.receivers sendId
      have same : (daemon.hub link).core.completed = link.core.completed := rfl
      rw [adopted, pendings, owned.completed, same]
      omega
    have old := linear.links other there
    refine ⟨old.rdma, old.distinct, ?_, old.fresh, old.dead, registered other listed, ?_, ?_⟩
    · intro machine present
      obtain ⟨start, known, filling⟩ := old.filling machine present
      refine ⟨start, known, ?_⟩
      cases finished : machine.committing with
      | true =>
        exact { filling with filled := fun open_ => absurd (finished.symm.trans open_) (by decide) }
      | false =>
        have held : machine.res.hold ∈ queuedHolds daemon.env.fifo ++ restOf daemon link := by
          apply mem_append_right
          apply mem_append_left
          refine mem_flatMap.mpr ⟨other, mem_remove_other there elsewhere, ?_⟩
          exact mem_map_of_mem (mem_filter.mpr ⟨present, by simpa using finished⟩)
        exact filling.untouched (fun _ => owned.kept _ held) (roomy _ (mem_append_right _ held))
    · intro sendId
      rw [unfinished, pending_zero elsewhere mine, old.keyed]
      rfl
    · intro sendId unforgotten
      rw [adopted, pendings, pending_zero elsewhere mine]
      exact old.once sendId unforgotten
  · intro commit listed
    rw [waiting] at listed
    have stays : commit.res.hold ∈ queuedHolds daemon.env.fifo ++ restOf daemon link →
        commit ∈ daemon.waiting → ∃ start ∈ starts commit.fromPeer commit.conn,
          Arrived hub.env.store.slab commit start := by
      intro held there
      obtain ⟨start, known, content⟩ := linear.commits commit there
      exact ⟨start, known, content.untouched (owned.kept _ held) (roomy _ (mem_append_right _ held))⟩
    rcases mem_append.mp listed with queued | parkedOne
    · rcases mem_append.mp queued with old | new
      · exact stays (mem_append_left _ (mem_map_of_mem old)) (mem_append_left _ old)
      obtain ⟨sameConn, samePeer, start, known, content⟩ := arrived commit new
      rw [sameConn, samePeer]
      exact ⟨start, known, content⟩
    · exact stays (mem_append_right _ (mem_append_right _ (mem_map_of_mem parkedOne)))
        (mem_append_right _ parkedOne)
  · intro commit listed
    by_cases new : commit ∈ added
    · obtain ⟨sameConn, samePeer, _⟩ := arrived commit new
      exact home _ _ ⟨link, mem, sameConn.symm, samePeer.symm⟩
    apply home
    apply linear.homes
    have there : commit ∈ next.waiting ++ daemon.landing.map (·.commit) := listed
    unfold Daemon.unfinished Daemon.waiting
    grind
  · exact linear.routes
  · exact fun peer conn found => home _ _ (linear.indexed peer conn (index peer conn found))
  · rw [adoptions]
    exact fun adoption listed => home _ _ (linear.adoptedHomes adoption listed)
  · rw [adoptions]
    exact linear.truthful

theorem pending_perm {left right : List Commit} (order : left.Perm right) (conn : Nat)
    (sendId : SendId) : pending left conn sendId = pending right conn sendId :=
  order.countP_eq _

section

variable (linear : Linear starts chunk daemon)
include linear

theorem Linear.requeue {fifo parked : List Commit} (order : (fifo ++ parked).Perm daemon.waiting) :
    Linear starts chunk { daemon with
      env := { daemon.env with fifo := fifo }, parked := parked } := by
  have unfinished : (fifo ++ parked ++ daemon.landing.map (·.commit)).Perm daemon.unfinished :=
    order.append_right _
  refine { linear with
    ledger := { linear.ledger.perm ((order.symm.map _).append_left _) with }
    links := fun link mem => ?_
    commits := fun commit mem => linear.commits commit (order.mem_iff.mp mem)
    homes := fun commit mem => linear.homes commit (unfinished.mem_iff.mp mem) }
  have old := linear.links link mem
  refine { old with
    keyed := fun sendId => (pending_perm unfinished _ _).trans (old.keyed sendId)
    once := fun sendId unforgotten => ?_ }
  show _ + pending (fifo ++ parked) _ _ = _
  rw [pending_perm order]
  exact old.once sendId unforgotten

theorem Linear.execute {commit : Commit} {rest : List Commit}
    {store : Store} (queued : daemon.env.fifo = commit :: rest)
    (adopts : daemon.env.store.adoptInbound commit.res.destId commit.res.extent commit.res.length
      commit.info = some store) :
    Linear starts chunk { daemon with
      env := { daemon.env with
        fifo := rest
        store := store
        adoptions := daemon.env.adoptions ++
          [{ rid := commit.res.rid, destId := commit.res.destId, sendId := commit.sendId
             fromPeer := commit.fromPeer, conn := commit.conn
             bytes := daemon.env.buffer commit.res }] }
      landing := daemon.landing ++ [{ commit := commit }] } := by
  have waiting : daemon.waiting = commit :: (rest ++ daemon.parked) := by
    unfold Daemon.waiting
    rw [queued]
    rfl
  have first := waiting ▸ mem_cons_self
  have slab := (adopt_inbound_cases adopts).1
  obtain ⟨start, known, arrived⟩ := linear.commits commit first
  have front : daemon.held.Perm (commit.res.hold ::
      (daemon.links.flatMap (fun link => openHolds link.core.receivers) ++
        queuedHolds (rest ++ daemon.parked))) := by
    unfold Daemon.held
    rw [waiting]
    exact perm_middle
  constructor
  · exact { (linear.ledger.perm front).adopt rfl adopts with }
  · intro link mem
    have old := linear.links link mem
    refine { old with filling := slab ▸ old.filling, keyed := ?_, once := ?_ }
    · intro sendId
      rw [← old.keyed]
      apply pending_perm
      show (_ ++ (daemon.landing ++ [_]).map _).Perm (daemon.waiting ++ _)
      rw [waiting, map_append, ← append_assoc]
      exact perm_append_singleton commit _
    intro sendId unforgotten
    have before := old.once sendId unforgotten
    have counted : pending daemon.waiting link.conn sendId =
        pending (rest ++ daemon.parked) link.conn sendId +
          (if commit.conn = link.conn ∧ commit.sendId = sendId then 1 else 0) := by
      rw [waiting]
      unfold pending
      rw [countP_cons]
      simp
    show countP _ (daemon.env.adoptions ++ [_]) + pending (rest ++ daemon.parked) _ _ = _
    rw [countP_append, ← before]
    unfold Daemon.adopted
    simp only [countP_cons, countP_nil, decide_eq_true_eq]
    omega
  · intro other mem
    obtain ⟨begun, listed, content⟩ := linear.commits other (waiting ▸ mem_cons_of_mem commit mem)
    exact ⟨begun, listed, slab.symm ▸ content⟩
  · intro other mem
    apply linear.homes
    unfold Daemon.unfinished at mem ⊢
    rw [waiting]
    simp only [map_append, mem_append, map_cons, map_nil, mem_cons] at mem ⊢
    rcases mem with there | there | same | none
    · exact .inl (.inr (mem_append.mp there))
    · exact .inr there
    · exact .inl (.inl same)
    · cases none
  · exact forall_mem_concat linear.routes nofun
  · exact linear.indexed
  · exact forall_mem_concat linear.adoptedHomes (linear.homes commit (mem_append_left _ first))
  · exact forall_mem_concat linear.truthful
      ⟨start, known, arrived.id, arrived.dest, arrived.bytes.symm⟩

theorem Linear.dispatch : Linear starts chunk (dispatchCommit daemon) := by
  unfold dispatchCommit
  split
  · exact linear
  next commit rest queued =>
  simp only
  split
  · refine linear.requeue ?_
    show (rest ++ (daemon.parked ++ [commit])).Perm (daemon.env.fifo ++ daemon.parked)
    rw [queued, ← append_assoc]
    exact perm_append_singleton commit _
  next store adopts => exact linear.execute queued adopts

theorem Linear.receiver_of {commit : Commit} (mem : commit ∈ daemon.unfinished) :
    ∃ link ∈ daemon.links, link.conn = commit.conn ∧ link.peer = commit.fromPeer ∧
      daemon.registered commit.fromPeer = some commit.conn ∧
      ∃ machine ∈ link.core.receivers, machine.committing = true ∧
        machine.sendId = commit.sendId := by
  obtain ⟨link, listed, conn, peer⟩ := linear.homes commit mem
  have own := linear.links link listed
  have counted : 0 < pending daemon.unfinished link.conn commit.sendId :=
    countP_pos_iff.mpr ⟨commit, mem, by simp [conn]⟩
  rw [own.keyed] at counted
  obtain ⟨machine, present, commits⟩ := countP_pos_iff.mp counted
  simp only [Bool.decide_and, Bool.decide_eq_true, Bool.and_eq_true, decide_eq_true_eq] at commits
  have alive : link.alive = true := by
    by_contra gone
    have empty := own.dead (by simpa using gone)
    rw [empty] at present
    cases present
  exact ⟨link, listed, conn, peer, peer ▸ conn ▸ own.registered alive, machine, present, commits⟩

theorem Linear.route (position : Nat) : Linear starts chunk (routeLanding daemon position) := by
  unfold routeLanding
  split
  next commit found =>
    have listed := mem_of_getElem? found
    have mem : commit ∈ daemon.unfinished := mem_append_right _ (mem_map.mpr ⟨_, listed, rfl⟩)
    obtain ⟨_, _, _, _, registered, _⟩ := linear.receiver_of mem
    have commits : ∀ route, (daemon.landing.set position ⟨commit, route⟩).map (·.commit) =
        daemon.landing.map (·.commit) := by
      intro route
      obtain ⟨inside, value⟩ := List.getElem?_eq_some_iff.mp found
      have there : (daemon.landing.map (·.commit)).get ⟨position, by simpa using inside⟩ = commit := by
        simp [value]
      rw [map_set, ← there]
      exact set_getElem_self _
    refine { linear with links := ?_, homes := ?_, routes := ?_ }
    · intro link present
      have old := linear.links link present
      refine { old with keyed := ?_ }
      intro sendId
      rw [← old.keyed]
      unfold Daemon.unfinished
      simp only [commits]
      rfl
    · intro other present
      apply linear.homes
      unfold Daemon.unfinished at present ⊢
      simp only [commits] at present
      exact present
    · intro landing present target routed
      rcases mem_or_eq_of_mem_set present with old | rfl
      · exact linear.routes landing old target routed
      · exact (Option.some.inj routed).symm.trans registered
  · exact linear

end

theorem mem_remember {core : Core} {sendId other : SendId}
    (kept : other ∉ (rememberCompleted sendId core).forgotten) : other ∉ core.forgotten ∧
      (other ∈ (rememberCompleted sendId core).completed ↔ other ∈ core.completed ∨ other = sendId) := by
  simp only [rememberCompleted, mem_append, not_or] at kept ⊢
  refine ⟨kept.1, ?_⟩
  have ring : other ∈ (if sendId ∈ core.completed then core.completed
      else core.completed ++ [sendId]) ↔ other ∈ core.completed ∨ other = sendId := by
    split_ifs with seen
    · exact ⟨.inl, fun either => either.elim id fun same => same ▸ seen⟩
    · simp
  rw [← ring]
  constructor
  · exact mem_of_mem_drop
  · intro listed
    rw [← take_append_drop (length _ - dedupRingSize) (ite _ _ _)] at listed
    exact (mem_append.mp listed).resolve_left kept.2

theorem mem_remembered {core : Core} {sendId other : SendId}
    (listed : other ∈ (rememberCompleted sendId core).completed) :
    other ∈ core.completed ∨ other = sendId := by
  simp only [rememberCompleted] at listed
  have inRing := mem_of_mem_drop listed
  split_ifs at inRing
  · exact .inl inRing
  · simpa using inRing

/-- The link after its core was told that a commit is done. -/
def Link.told (link : Link) (sendId : SendId) : Link :=
  { link with core := rememberCompleted sendId (link.core.popReceiver sendId) }

theorem Linear.land (linear : Linear starts chunk daemon)
    (conns : (daemon.links.map Link.conn).Nodup) {position : Nat} {commit : Commit}
    {target : Option Nat} (found : daemon.landing[position]? = some ⟨commit, some target⟩)
    (inflight : String → Int) : ∃ link machine, target.bind daemon.link = some link ∧
      link.core.receiver commit.sendId = some machine ∧ Linear starts chunk { daemon with
        links := rewritten daemon.links (link.told commit.sendId)
        env := { daemon.env with inflight := inflight }
        landing := daemon.landing.eraseIdx position } := by
  have listed := mem_of_getElem? found
  have mem : commit ∈ daemon.unfinished := mem_append_right _ (mem_map.mpr ⟨_, listed, rfl⟩)
  obtain ⟨link, there, conn, peer, _, machine, present, commits, id⟩ := linear.receiver_of mem
  have own := linear.links link there
  have lookup := link_of_listed conns there
  have toward := linear.routes _ listed target rfl
  have machineFound := id ▸ lookup_of_mem own.distinct present
  refine ⟨link, machine, by rw [toward, ← conn]; exact lookup, machineFound, ?_⟩
  let next : Daemon := { daemon with
    links := rewritten daemon.links (link.told commit.sendId)
    env := { daemon.env with inflight := inflight }
    landing := daemon.landing.eraseIdx position }
  have receivers : link.core.receivers.Perm (machine :: (link.told commit.sendId).core.receivers) :=
    perm_remove own.distinct machineFound
  have order := perm_remove conns (lookup_of_mem conns there)
  have gave : next.links.Perm (link.told commit.sendId ::
      remove Link.conn link.conn daemon.links) := update_perm _ conns lookup
  have home : ∀ index name, daemon.Home index name → next.Home index name :=
    fun _ _ home => home.rewrite conns there (by rfl) (by rfl) rfl
  have erased : daemon.unfinished.Perm (commit :: next.unfinished) := by
    obtain ⟨inside, value⟩ := List.getElem?_eq_some_iff.mp found
    have perm := ((getElem_cons_eraseIdx_perm inside).map (·.commit)).symm
    rw [value] at perm
    exact (perm.append_left _).trans perm_middle
  have counts : ∀ index sendId, pending daemon.unfinished index sendId =
      pending next.unfinished index sendId +
        (if commit.conn = index ∧ commit.sendId = sendId then 1 else 0) := by
    intro index sendId
    rw [pending_perm erased]
    unfold pending
    rw [countP_cons]
    simp
  have commitsOf : ∀ sendId, committing link.core.receivers sendId =
      committing (link.told commit.sendId).core.receivers sendId +
        (if commit.sendId = sendId then 1 else 0) := by
    intro sendId
    rw [committing_perm receivers, committing_cons, id]
    simp [commits]
  have ledger : Ledger next.env daemon.held := { linear.ledger with }
  constructor
  · refine ledger.perm ((held_perm order).trans ?_)
    have opens := open_holds_perm receivers
    rw [open_holds_cons, if_neg (by simp [commits]), nil_append] at opens
    exact (opens.append_right _).trans (held_perm gave).symm
  · intro other remains
    rcases mem_rewritten remains with rfl | ⟨there, elsewhere⟩
    · refine ⟨own.rdma, keys_remove_nodup own.distinct,
        fun other listed => own.filling other (mem_of_mem_filter listed), ?_, ?_, own.registered,
        ?_, ?_⟩
      · intro other listed seen
        have parts := mem_filter.mp listed
        rcases mem_remembered seen with old | same
        · exact own.fresh other parts.1 old
        · simp [same] at parts
      · intro gone
        have empty := own.dead gone
        rw [empty] at receivers
        exact absurd receivers.symm.eq_nil (by simp)
      · intro sendId
        have before := own.keyed sendId
        have first := counts link.conn sendId
        have second := commitsOf sendId
        simp only [conn, true_and] at first before ⊢
        show pending next.unfinished link.conn sendId = _
        rw [conn]
        omega
      intro sendId unforgotten
      obtain ⟨kept, ring⟩ := mem_remember unforgotten
      have before := own.once sendId kept
      have second := commitsOf sendId
      have unseen := id ▸ own.fresh machine present
      show daemon.adopted link.conn sendId + pending daemon.waiting link.conn sendId = _
      by_cases same : commit.sendId = sendId
      · subst same
        have now : commit.sendId ∈ (link.told commit.sendId).core.completed := ring.mpr (.inr rfl)
        rw [if_neg unseen] at before
        rw [if_pos rfl] at second
        rw [if_pos now]
        omega
      · have still : sendId ∈ (link.told commit.sendId).core.completed ↔
            sendId ∈ link.core.completed :=
          ring.trans ⟨fun either => either.resolve_right (Ne.symm same), .inl⟩
        rw [if_neg same] at second
        simp only [still]
        omega
    · have old := linear.links other there
      refine { old with keyed := fun sendId => ?_ }
      have before := counts other.conn sendId
      rw [if_neg (fun both => elsewhere (both.1.symm.trans conn.symm))] at before
      rw [← old.keyed, before]
      rfl
  · exact linear.commits
  · intro other present
    exact home _ _ (linear.homes other (erased.mem_iff.mpr (mem_cons_of_mem _ present)))
  · exact fun other present => linear.routes other (mem_of_mem_eraseIdx present)
  · exact fun peer conn found => home _ _ (linear.indexed peer conn found)
  · exact fun adoption present => home _ _ (linear.adoptedHomes adoption present)
  · exact linear.truthful

theorem Linear.extend (linear : Linear starts chunk daemon) {offer : Offer}
    (unused : ∀ link ∈ daemon.links, link.conn ≠ offer.conn)
    (gone : ∀ link ∈ daemon.links, link.alive = true → link.peer ≠ offer.peer) :
    Linear starts chunk (extended daemon offer) := by
  have strange : ∀ index name, daemon.Home index name → index ≠ offer.conn := by
    rintro index name ⟨link, mem, rfl, _⟩
    exact unused link mem
  refine { linear with
    ledger := linear.ledger.perm ?_, links := ?_
    homes := fun commit mem => (linear.homes commit mem).extend
    indexed := extended_indexed linear.indexed
    adoptedHomes := fun adoption mem => (linear.adoptedHomes adoption mem).extend }
  · unfold Daemon.held extended
    simp [openHolds, Daemon.waiting]
  · refine forall_mem_concat (fun link old => ?_) ?_
    · have own := linear.links link old
      refine { own with registered := ?_ }
      intro alive
      exact (update_of_ne (gone link old alive) _ _).trans (own.registered alive)
    have nothing : ∀ sendId, pending daemon.unfinished offer.conn sendId = 0 := by
      intro sendId
      apply countP_eq_zero.mpr
      intro commit present holds
      simp only [decide_eq_true_eq] at holds
      exact strange _ _ (linear.homes commit present) holds.1
    refine ⟨rfl, nodup_nil, forall_mem_nil _,
      forall_mem_nil _, fun _ => rfl,
      fun _ => update_self .., nothing, ?_⟩
    intro sendId _
    have waiting : pending daemon.waiting offer.conn sendId = 0 := by
      have all := nothing sendId
      unfold Daemon.unfinished at all
      rw [pending_append] at all
      omega
    have adopted : daemon.adopted offer.conn sendId = 0 := by
      apply countP_eq_zero.mpr
      intro adoption present holds
      simp only [decide_eq_true_eq] at holds
      exact strange _ _ (linear.adoptedHomes adoption present) holds.1
    show daemon.adopted offer.conn sendId + pending daemon.waiting offer.conn sendId = _
    rw [waiting, adopted]
    rfl

end Daemons

/-! ### runs -/

def Quiet (link : Link) : Prop := ∀ machine ∈ link.core.receivers, machine.committing = false

instance (link : Link) : Decidable (Quiet link) := decidableBAll _ _

def Message.isRts : Message → Bool
  | .rts .. => true
  | _ => false

def IfFound {Item : Type} (item : Option Item) (fact : Item → Prop) : Prop :=
  match item with
  | none => True
  | some item => fact item

instance {Item : Type} (item : Option Item) (fact : Item → Prop) [DecidablePred fact] :
    Decidable (IfFound item fact) :=
  match item with
  | none => inferInstanceAs (Decidable True)
  | some item => inferInstanceAs (Decidable (fact item))

def Daemon.linkTo (daemon : Daemon) (peer : String) : Option Link :=
  (daemon.registered peer).bind daemon.link

def World.offer (world : World) (name : String) (conn : Nat) : Option Offer :=
  world.offers.find? fun offer => offer.holder = name ∧ offer.conn = conn

/-- A frame may be handled: an RTS only on a link that was not dropped, a CHUNK or DONE
not for a transfer whose commit waits. -/
def Timely (message : Message) (link : Link) : Prop :=
  (message.isRts = true → link.alive = true) ∧ ∀ machine ∈ link.core.receivers,
    message.advances = some machine.sendId → machine.committing = false

instance (message : Message) (link : Link) : Decidable (Timely message link) :=
  inferInstanceAs (Decidable (_ ∧ _))

/-- A step that disturbs no transfer whose commit waits: frames are timely, no link is
dropped or replaced while one of its receivers commits, and the RDMA lane is not used. -/
def Orderly (world : World) : Action → Prop
  | .deliver name conn frame _ => IfFound ((world.daemons name).link conn) (Timely frame.message)
  | .drop name conn _ => IfFound ((world.daemons name).link conn) Quiet
  | .adopt name conn _ => IfFound (world.offer name conn) fun offer =>
    IfFound ((world.daemons name).linkTo offer.peer) Quiet
  | .rdmaUp _ _ => False
  | .rdmaWrite _ _ _ => False
  | _ => True

instance (world : World) (action : Action) : Decidable (Orderly world action) := by
  cases action <;> dsimp only [Orderly] <;> infer_instance

def OrderlyRun (world : World) : List Action → Prop
  | [] => True
  | action :: rest => Orderly world action ∧ OrderlyRun (act world action) rest

instance decidableOrderlyRun (world : World) (actions : List Action) :
    Decidable (OrderlyRun world actions) :=
  match actions with
  | [] => inferInstanceAs (Decidable True)
  | action :: rest =>
    have := decidableOrderlyRun (act world action) rest
    inferInstanceAs (Decidable (_ ∧ _))

def AllLinear (world : World) : Prop :=
  ∀ name, Linear world.startsOn world.chunkOf (world.daemons name)

section Runs

variable {ends : Nat → String × String} {world next : World} {name : String} {link written : Link}
  {daemon : Daemon} {hub : Hub}

theorem AllLinear.set (linear : AllLinear world) (grown : Grown world next)
    (self : Linear world.startsOn world.chunkOf (next name))
    (away : ∀ other, other ≠ name → next other = world other) : AllLinear next := by
  have chunk := funext grown.chunk
  intro other
  rw [chunk]
  by_cases hit : other = name
  · exact hit ▸ self.mono grown.starts
  · exact away other hit ▸ (linear other).mono grown.starts

theorem AllLinear.change (linear : AllLinear world) (name : String) (named : daemon.name = name)
    (grown : Grown world (world.set daemon)) (self : Linear world.startsOn world.chunkOf daemon) :
    AllLinear (world.set daemon) := by
  refine linear.set grown ?_ fun other ne => set_other named ne
  rw [set_self named]
  exact self

theorem AllLinear.settle (linear : AllLinear world) (coherent : Coherent ends world)
    (mem : link ∈ (world name).links)
    (owned : Owned (world.startsOn link.peer link.conn) (world.chunkOf link.peer)
      (restOf (world name) link) ((world name).hub link) hub)
    (dead : link.alive = false → hub.core.receivers = [])
    (grown : Grown world (world.settle (world name) link hub)) :
    AllLinear (world.settle (world name) link hub) := by
  refine linear.set grown ?_ fun other ne => settle_other (coherent.named name) ne
  rw [settle_self (coherent.named name)]
  have settled := (linear name).settle (coherent.conns name) mem owned rfl dead
    (forall_mem_write (fun other old => ((linear name).links other old).registered)
      ((linear name).links link mem).registered) fun _ _ => id
  exact { settled with links := fun other listed => { settled.links other listed with } }

theorem AllLinear.drop (now : ℚ) (linear : AllLinear world) (coherent : Coherent ends world)
    (mem : link ∈ (world name).links) (quiet : Quiet link) :
    AllLinear (dropLink now world (world name) link) := by
  have reaches := drop_link_coherent now coherent mem
  by_cases gone : link.alive = false
  · rw [dropLink, if_pos gone]
    exact linear
  have alive : link.alive = true := by simpa using gone
  have owned := (linear name).owned (coherent.conns name) mem
  rw [drop_link_alive now world _ alive] at reaches ⊢
  have named : (closed (world name) link).name = name := coherent.named name
  refine linear.set reaches.grown ?_ fun other ne => settle_other named ne
  rw [settle_self named]
  have dropped : Owned _ _ _ _ (reached (dropHub now ((world name).hub link))) :=
    ensures_reached (drop_hub_owned owned quiet)
  have settled := (linear name).settle (coherent.conns name) mem dropped closed_links
    (fun _ => ensures_reached drop_hub_receivers) (by
      rw [closed_links]
      exact closed_registered alive mem fun other old => ((linear name).links other old).registered)
    closed_index
  exact { settled with links := fun other listed => { settled.links other listed with } }

theorem starts_distinct (coherent : Coherent ends world) (name : String) (conn : Nat) :
    ((world.startsOn name conn).map (·.sendId)).Nodup := by
  unfold World.startsOn
  split
  · exact nodup_nil
  · next link found => exact (coherent.sound name link (link_listed found).1).distinct

/-- Nothing is received, and the daemon behind the core is left alone. -/
def Deserted (hub next : Hub) : Prop := next.core.receivers = [] ∧ next.env = hub.env

theorem handle_without_receivers {now : ℚ} {message : Message} {payload : Bytes}
    (other : message.isRts = false) (empty : hub.core.receivers = []) :
    Leaves (handle now message payload hub) (Deserted hub) := by
  have absent : ∀ sendId, hub.core.receiver sendId = none := by
    intro sendId
    unfold Core.receiver
    rw [empty]
    rfl
  have replies : message.IsReply → Leaves (handle now message payload hub) (Deserted hub) :=
    fun reply => leaves_mono (handle_reply_sends reply) fun _ side => ⟨side.receivers.trans empty, side.env⟩
  cases message with
  | rts => cases other
  | chunk sendId seq last =>
    simp only [handle]
    split
    · simp only [handleChunk, absent]
      exact ⟨empty, rfl⟩
    · simp only [landChunk, handleChunk, absent]
      exact ⟨empty, rfl⟩
  | done sendId checksum =>
    simp only [handle, handleDone, absent]
    split
    · exact ⟨empty, rfl⟩
    · exact ⟨empty, rfl⟩
  | cts | addr | nack | doneAck => exact replies trivial

theorem tick_without_receivers {now : ℚ} (empty : hub.core.receivers = []) :
    Leaves (tick now hub) (Deserted hub) := by
  have senders : Leaves _ (Deserted hub) := leaves_mono (tick_senders_sends now hub fun _ => False)
    fun _ side => ⟨side.receivers.trans empty, side.env⟩
  refine ensures_bind senders fun ticked held => ?_
  rw [held.1]
  exact held

theorem drop_leaves_peer (now : ℚ) (coherent : Coherent ends world) {peer : String} {old : Link}
    (indexed : ∀ peer conn, (world name).registered peer = some conn →
      (world name).Home conn peer)
    (still : ∀ link ∈ ((dropLink now world (world name) old).daemons name).links,
      link.alive = true →
      ((dropLink now world (world name) old).daemons name).registered link.peer =
        some link.conn)
    (found : ((world name).registered peer).bind (world name).link = some old) :
    ∀ link ∈ ((dropLink now world (world name) old).daemons name).links,
      link.alive = true → link.peer ≠ peer := by
  intro link present alive clash
  obtain ⟨target, listed⟩ := bind_link_listed found
  have there := still link present alive
  obtain ⟨same, sameListed, conn, toward⟩ := indexed _ _ target
  have only : ∀ other ∈ (world name).links, other.conn = old.conn → other = old :=
    fun other present conn => inj_on_of_nodup_map (coherent.conns name) present listed conn
  by_cases up : old.alive = true
  · -- the old link was up: its peer is registered nowhere now
    have named : (closed (world name) old).name = name := coherent.named name
    rw [drop_link_alive now world _ up, settle_self named] at there
    have none : (closed (world name) old).registered link.peer = none := by
      rw [clash, ← toward, only same sameListed conn]
      exact update_self ..
    cases none.symm.trans there
  · have unchanged : dropLink now world (world name) old = world := by
      rw [dropLink, if_pos (by simpa using up)]
    rw [unchanged, clash, target] at there
    rw [unchanged] at present
    exact up (only link present (Option.some.inj there).symm ▸ alive)

theorem unlinked_leaves_peer (coherent : Coherent ends world) {peer : String}
    (registered : ∀ link ∈ (world name).links, link.alive = true →
      (world name).registered link.peer = some link.conn)
    (free : ((world name).registered peer).bind (world name).link = none) :
    ∀ link ∈ (world name).links, link.alive = true → link.peer ≠ peer := by
  intro link listed alive clash
  have lookup := link_of_listed (coherent.conns name) listed
  rw [← clash, registered link listed alive, Option.bind_some, lookup] at free
  cases free

theorem AllLinear.install (linear : AllLinear world) (coherent : Coherent ends world) {offer : Offer}
    (mem : offer ∈ world.offers) (holder : offer.holder = name)
    (gone : ∀ link ∈ (world name).links, link.alive = true → link.peer ≠ offer.peer) :
    AllLinear (installed world name offer) := by
  subst holder
  have named : (extended (world offer.holder) offer).name = offer.holder :=
    coherent.named offer.holder
  refine linear.set (coherent.install mem).grown ?_ fun other ne =>
    set_other named ne
  rw [installed, set_self named]
  exact (linear offer.holder).extend (lookup_none.mp (coherent.unadopted offer mem)) gone

theorem AllLinear.adopt (now : ℚ) (linear : AllLinear world) (coherent : Coherent ends world)
    {offer : Offer} (mem : offer ∈ world.offers) (holder : offer.holder = name)
    (quiet : IfFound ((world name).linkTo offer.peer) Quiet) :
    AllLinear (adoptLink now world (world name) offer) := by
  have registered : ∀ link ∈ (world name).links, link.alive = true →
      (world name).registered link.peer = some link.conn :=
    fun link listed => ((linear name).links link listed).registered
  rcases adopt_link_cases now (coherent.named name) offer with
    ⟨_, _, _, same⟩ | ⟨free, same⟩ | ⟨old, found, _, same⟩
  · rw [same]
    exact linear
  · rw [same]
    exact linear.install coherent mem holder (unlinked_leaves_peer coherent registered free)
  obtain ⟨target, listed⟩ := bind_link_listed found
  have dropped := linear.drop now coherent listed
    (by rw [Daemon.linkTo, found] at quiet; exact quiet)
  have reaches := drop_link_coherent now coherent listed
  have still : offer ∈ (dropLink now world (world name) old).offers :=
    offers_drop_link now world _ old ▸ mem
  rw [same]
  exact dropped.install reaches.coherent still holder (drop_leaves_peer now coherent
    (linear name).indexed (fun link present => ((dropped name).links link present).registered) found)

theorem act_linear (coherent : Coherent ends world) (linear : AllLinear world) {action : Action}
    (orderly : Orderly world action) : AllLinear (act world action) := by
  obtain ⟨_, reaches⟩ := act_coherent coherent action
  have grown := reaches.grown
  cases action with
  | connect left right =>
    simp only [act]
    split
    · exact linear
    · exact linear
  | adopt name conn now =>
    simp only [act, Orderly, World.offer] at orderly ⊢
    split
    · exact linear
    next offer found =>
    have keyed := find?_some found
    simp only [decide_eq_true_eq] at keyed
    rw [found] at orderly
    exact linear.adopt now coherent (mem_of_find?_eq_some found) keyed.1 orderly
  | drop name conn now =>
    simp only [act, Orderly] at orderly ⊢
    split
    · exact linear
    next link found =>
    rw [found] at orderly
    exact linear.drop now coherent (link_listed found).1 orderly
  | send name peer now destId payload overwrite info =>
    simp only [act] at grown ⊢
    split at grown
    · exact linear
    next link found =>
    have mem := (bind_link_listed found).2
    have side : SenderSide (fun _ => False) ((world name).hub link)
      (startSend now destId payload overwrite info ((world name).hub link)) := start_send_side
    exact linear.settle coherent mem (((linear name).owned (coherent.conns name) mem).sender side)
      (fun gone => side.receivers.trans (((linear name).links link mem).dead gone)) grown
  | deliver name conn frame now =>
    simp only [act, Orderly] at grown orderly ⊢
    split at grown
    · exact linear
    next link found =>
    rw [found] at orderly
    obtain ⟨mem, sameConn⟩ := link_listed found
    split at grown
    · next real =>
      rw [if_pos real]
      have genuine := coherent.wire frame real.1
      rw [real.2.1, real.2.2, ← sameConn] at genuine
      refine linear.settle coherent mem (ensures_reached (handle_owned
        ((linear name).owned (coherent.conns name) mem)
        (starts_distinct coherent link.peer link.conn) genuine orderly.2)) ?_ grown
      intro gone
      refine (ensures_reached (handle_without_receivers ?_
        (((linear name).links link mem).dead gone))).1
      cases kind : frame.message.isRts with
      | false => rfl
      | true => exact absurd (gone.symm.trans (orderly.1 kind)) (by decide)
    · next unreal =>
      rw [if_neg unreal]
      exact linear
  | tick name conn now =>
    simp only [act] at grown ⊢
    split at grown
    · exact linear
    next link found =>
    have mem := (link_listed found).1
    exact linear.settle coherent mem
      (ensures_reached (tick_owned ((linear name).owned (coherent.conns name) mem)))
      (fun gone => (ensures_reached (tick_without_receivers
        (((linear name).links link mem).dead gone))).1) grown
  | lease name object =>
    exact linear.change name (by exact coherent.named name) grown
      { linear name with
        ledger := (linear name).ledger.lease object _
        links := fun link mem => { (linear name).links link mem with } }
  | unlease name object =>
    have queued := (linear name).requeue (.of_eq (append_nil (world name).waiting))
    exact linear.change name (by exact coherent.named name) grown
      { queued with
        ledger := queued.ledger.lease object _
        links := fun link mem => { queued.links link mem with } }
  | dispatch name =>
    exact linear.change name ((dispatch_same _).1.trans (coherent.named name)) grown (linear name).dispatch
  | route name position =>
    exact linear.change name ((route_same _ _).1.trans (coherent.named name)) grown
      ((linear name).route position)
  | land name position =>
    simp only [act] at grown ⊢
    rcases land_commit_cases world (world name) position with
      same | ⟨commit, target, found, ⟨none, same⟩ | ⟨link, there, same⟩⟩
    · rw [same]
      exact linear
    · -- a commit is never routed to a link that does not exist
      obtain ⟨link, _, there, _⟩ := (linear name).land (coherent.conns name) found fun _ => 0
      cases none.symm.trans there
    rw [same] at grown ⊢
    obtain ⟨known, machine, lookup, receiver, lands⟩ :=
      (linear name).land (coherent.conns name) found _
    obtain rfl := Option.some.inj (there.symm.trans lookup)
    have named : (returned (world name) position commit).name = name := coherent.named name
    refine linear.set grown ?_ fun other ne => settle_other named ne
    rw [settle_self named]
    have told : commitDone commit.sendId
        ((returned (world name) position commit).hub link) =
        (((returned (world name) position commit).hub link).setCore
          (link.told commit.sendId).core).send (.doneAck commit.sendId) := by
      have same : ((returned (world name) position commit).hub link).core.receiver
        commit.sendId = some machine := receiver
      rw [commitDone, same]
      rfl
    rw [told]
    exact { lands with links := fun other mem => { lands.links other mem with } }
  | rdmaUp name conn => exact orderly.elim
  | rdmaWrite name position now => exact orderly.elim

theorem run_linear {actions : List Action} (coherent : Coherent ends world)
    (linear : AllLinear world) (orderly : OrderlyRun world actions) :
    AllLinear (runActions world actions) := by
  induction actions generalizing world ends with
  | nil => exact linear
  | cons action rest ih =>
    obtain ⟨_, reaches⟩ := act_coherent coherent action
    exact ih reaches.coherent (act_linear coherent linear orderly.1) orderly.2

end Runs

/-- Daemons that have not met: no links, no transfers, and stores whose free list and
catalog share no byte. -/
structure World.Fresh (world : World) : Prop where
  named : ∀ name, (world.daemons name).name = name
  links : ∀ name, (world.daemons name).links = []
  registered : ∀ name peer, (world.daemons name).registered peer = none
  waiting : ∀ name, (world.daemons name).waiting = []
  landing : ∀ name, (world.daemons name).landing = []
  numbers : ∀ name, (world.daemons name).env.nextRid = 0
  releases : ∀ name, (world.daemons name).env.releases = []
  adoptions : ∀ name, (world.daemons name).env.adoptions = []
  freeSized : ∀ name, Sized (world.daemons name).env.store.allocator.free
  objectsSized : ∀ name, Sized (extents (world.daemons name).env.store.objects)
  ids : ∀ name, ((world.daemons name).env.store.objects.map Service.ObjectRecord.id).Nodup
  apart : ∀ name byte, cover (world.daemons name).env.store.allocator.free byte +
    cover (extents (world.daemons name).env.store.objects) byte ≤ 1
  wire : world.wire = []
  offers : world.offers = []

theorem World.Fresh.coherent {world : World} (fresh : world.Fresh) :
    Coherent (fun _ => ("", "")) world := by
  constructor <;> simp [fresh.named, fresh.links, fresh.offers, fresh.wire]

theorem World.Fresh.linear {world : World} (fresh : world.Fresh) : AllLinear world := by
  intro name
  have held : (world name).held = [] := by
    simp [Daemon.held, fresh.links name, fresh.waiting name, queuedHolds]
  have unfinished : (world name).unfinished = [] := by
    simp [Daemon.unfinished, fresh.waiting name, fresh.landing name]
  constructor
  · rw [held]
    refine ⟨?_, fresh.freeSized name, fresh.objectsSized name, fresh.ids name, ?_, ?_⟩
    · simp [fresh.releases name, fresh.adoptions name, fresh.numbers name]
    · exact fun byte => fresh.apart name byte
    · exact forall_mem_nil _
  all_goals
    simp [fresh.links, fresh.waiting, unfinished, fresh.landing, fresh.registered, fresh.adoptions]

def twoPages : World where
  daemons name :=
    { name := name
      config := .small 60
      env :=
        { store := { slab := fun _ => 0, allocator := { capacity := 8192, free := [⟨0, 8192⟩] } }
          quota := 8192 } }

theorem two_pages_fresh : twoPages.Fresh where
  named _ := rfl
  links _ := rfl
  registered _ _ := rfl
  waiting _ := rfl
  landing _ := rfl
  numbers _ := rfl
  releases _ := rfl
  adoptions _ := rfl
  freeSized _ extent mem := by
    obtain rfl := mem_singleton.mp mem
    decide
  objectsSized _ extent mem := by cases mem
  ids _ := nodup_nil
  apart _ byte := by
    show cover [⟨0, 8192⟩] byte + cover [] byte ≤ 1
    simp only [cover_cons, cover_nil]
    split <;> decide
  wire := rfl
  offers := rfl

/-- One small payload from `a` to `b`, up to the arrival of its RTS. -/
def offeredTransfer : List Action :=
  [.connect "a" "b", .adopt "a" 0 0, .adopt "b" 0 0, .send "a" "b" 0 "x" [1, 2] false [],
   .deliver "b" 0 ⟨0, "a", .rts 1 "x" 2 [] false true, [1, 2]⟩ 0]

def finishedTransfer : List Action :=
  offeredTransfer ++ [.dispatch "b", .route "b" 0, .land "b" 0,
    .deliver "a" 0 ⟨0, "b", .doneAck 1, []⟩ 0]

end Dataflow.Peer
