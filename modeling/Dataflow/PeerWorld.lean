import Dataflow.PeerFrames

/-!
Coherence of a world of daemons, for every run of actions. Connections are
numbered and joined at two named ends, an end is adopted at most once, and every
frame on the wire speaks about a send that its sender has started on that very
connection.
-/

namespace Dataflow.Peer

open StatefulOutcome ByteRanges Service KeyedTable List

/-- The sends that a daemon has started on a connection. -/
def World.startsOn (world : World) (name : String) (conn : Nat) : List Start :=
  match (world.daemons name).link conn with
  | none => []
  | some link => link.core.starts

def World.chunkOf (world : World) (name : String) : Nat :=
  (world.daemons name).config.chunkBytes

/-- The two ends of a connection, as one of them sees it. -/
def Joins (ends : Nat → String × String) (conn : Nat) (holder peer : String) : Prop :=
  holder ≠ peer ∧ (ends conn = (holder, peer) ∨ ends conn = (peer, holder))

structure Coherent (ends : Nat → String × String) (world : World) : Prop where
  named : ∀ name, (world.daemons name).name = name
  conns : ∀ name, ((world.daemons name).links.map Link.conn).Nodup
  config : ∀ name, ∀ link ∈ (world.daemons name).links,
    link.core.config = (world.daemons name).config
  sound : ∀ name, ∀ link ∈ (world.daemons name).links, link.core.Sound
  below : ∀ name, ∀ link ∈ (world.daemons name).links, link.conn < world.nextConn
  offered : ∀ offer ∈ world.offers, offer.conn < world.nextConn
  offers : (world.offers.map fun offer => (offer.holder, offer.conn)).Nodup
  unadopted : ∀ offer ∈ world.offers, (world.daemons offer.holder).link offer.conn = none
  wire : ∀ frame ∈ world.wire, Genuine (world.startsOn frame.sender frame.conn)
    (world.chunkOf frame.sender) (frame.message, frame.payload)
  promised : ∀ offer ∈ world.offers, Joins ends offer.conn offer.holder offer.peer
  joined : ∀ name, ∀ link ∈ (world.daemons name).links, Joins ends link.conn name link.peer

section Links

variable {daemon : Daemon} {link written : Link} {conn other : Nat}

theorem link_listed (found : daemon.link conn = some link) :
    link ∈ daemon.links ∧ link.conn = conn :=
  ⟨lookup_mem found, lookup_key found⟩

theorem link_of_listed (distinct : (daemon.links.map Link.conn).Nodup)
    (mem : link ∈ daemon.links) : daemon.link link.conn = some link :=
  lookup_of_mem distinct mem

def rewritten (links : List Link) (link : Link) : List Link :=
  update Link.conn link.conn (fun _ => link) links

theorem conns_rewritten (links : List Link) (link : Link) :
    (rewritten links link).map Link.conn = links.map Link.conn :=
  keys_write rfl

theorem mem_rewritten {links : List Link} (mem : link ∈ rewritten links written) :
    link = written ∨ link ∈ links ∧ link.conn ≠ written.conn :=
  mem_update mem

theorem rewritten_mem {links : List Link} (mem : link ∈ links) (same : link.conn = written.conn) :
    written ∈ rewritten links written :=
  mem_map.mpr ⟨link, mem, by simp [same]⟩

theorem mem_rewritten_other {links : List Link} (mem : link ∈ links)
    (other : link.conn ≠ written.conn) : link ∈ rewritten links written :=
  mem_map.mpr ⟨link, mem, by simp [other]⟩

end Links

section Worlds

variable {ends : Nat → String × String} {world next : World} {name : String} {link written : Link} {daemon : Daemon} {hub : Hub}

theorem starts_on_listed (coherent : Coherent ends world) (mem : link ∈ (world name).links) :
    world.startsOn name link.conn = link.core.starts := by
  unfold World.startsOn
  rw [link_of_listed (coherent.conns name) mem]

theorem set_all (fact : String → Daemon → Prop) (same : daemon.name = name) (here : fact name daemon)
    (away : ∀ other, fact other (world other)) (other : String) :
    fact other ((world.set daemon).daemons other) := by
  by_cases hit : other = name
  · simpa [World.set, same, hit] using here
  · simpa [World.set, same, hit] using away other

theorem set_self (same : daemon.name = name) : (world.set daemon).daemons name = daemon := by
  simp [World.set, same]

theorem set_other (same : daemon.name = name) {other : String} (ne : other ≠ name) :
    (world.set daemon).daemons other = world other := by
  simp [World.set, same, ne]

def settled (daemon : Daemon) (link : Link) (hub : Hub) : Daemon :=
  { daemon.setLink { link with core := hub.core } with
    env := hub.env
    writers := daemon.writers ++ hub.spawned.map fun write => (link.conn, write) }

theorem settle_self (same : daemon.name = name) :
    (world.settle daemon link hub).daemons name = settled daemon link hub :=
  set_self same

theorem settle_other (same : daemon.name = name) {other : String} (ne : other ≠ name) :
    (world.settle daemon link hub).daemons other = world other := by
  have named : (settled daemon link hub).name = name := same
  exact set_other named ne

def framed (name : String) (conn : Nat) (out : List (Message × Bytes)) : List Frame :=
  out.map fun frame => { conn := conn, sender := name, message := frame.1, payload := frame.2 }

/-- What was started stays started, in chunks of the same size. -/
structure Grown (world next : World) : Prop where
  starts : ∀ name conn, ∀ start ∈ world.startsOn name conn, start ∈ next.startsOn name conn
  chunk : ∀ name, next.chunkOf name = world.chunkOf name

theorem Grown.refl (world : World) : Grown world world := ⟨fun _ _ _ => id, fun _ => rfl⟩

theorem Grown.trans {last : World} (first : Grown world next) (second : Grown next last) :
    Grown world last :=
  ⟨fun name conn start known => second.starts name conn start (first.starts name conn start known),
    fun name => (second.chunk name).trans (first.chunk name)⟩

theorem set_grown (same : daemon.name = name) (config : daemon.config = (world name).config)
    (conns : (daemon.links.map Link.conn).Nodup)
    (kept : ∀ old ∈ (world name).links, ∃ link ∈ daemon.links, link.conn = old.conn ∧
      ∀ start ∈ old.core.starts, start ∈ link.core.starts) : Grown world (world.set daemon) := by
  constructor
  · intro other index
    unfold World.startsOn
    by_cases hit : other = name
    · subst hit
      rw [set_self same]
      intro start started
      cases found : (world other).link index with
      | none => simp [found] at started
      | some old =>
        obtain ⟨listed, rfl⟩ := link_listed found
        obtain ⟨link, there, conn, more⟩ := kept old listed
        rw [found] at started
        rw [← conn, link_of_listed conns there]
        exact more start started
    · rw [set_other same hit]
      exact fun _ => id
  · intro other
    unfold World.chunkOf
    by_cases hit : other = name
    · rw [hit, set_self same, config]
    · rw [set_other same hit]

/-- A step of the world that keeps it coherent and forgets no start. -/
structure Reaches (ends : Nat → String × String) (world next : World) : Prop where
  coherent : Coherent ends next
  grown : Grown world next

theorem Coherent.stay (coherent : Coherent ends world) : Reaches ends world world :=
  ⟨coherent, .refl world⟩

theorem Reaches.trans {last : World} (first : Reaches ends world next)
    (second : Reaches ends next last) : Reaches ends world last :=
  ⟨second.coherent, first.grown.trans second.grown⟩

section

variable (coherent : Coherent ends world)
include coherent

theorem Coherent.change (same : daemon.name = name)
    (config : daemon.config = (world name).config)
    (conns : (daemon.links.map Link.conn).Nodup)
    (configs : ∀ link ∈ daemon.links, link.core.config = (world name).config)
    (sound : ∀ link ∈ daemon.links, link.core.Sound)
    (origin : ∀ link ∈ daemon.links, ∃ old ∈ (world name).links,
      old.conn = link.conn ∧ old.peer = link.peer)
    (kept : ∀ old ∈ (world name).links, ∃ link ∈ daemon.links, link.conn = old.conn ∧
      ∀ start ∈ old.core.starts, start ∈ link.core.starts)
    {conn : Nat} {out : List (Message × Bytes)}
    (genuine : ∀ frame ∈ out, ∃ link ∈ daemon.links, link.conn = conn ∧
      Genuine link.core.starts link.core.config.chunkBytes frame) :
    Reaches ends world { world.set daemon with wire := world.wire ++ framed name conn out } := by
  have grown := set_grown same config conns kept
  refine ⟨?_, grown.starts, grown.chunk⟩
  constructor
  · exact set_all (fun other daemon => daemon.name = other) same same coherent.named
  · exact set_all (fun _ daemon => (daemon.links.map Link.conn).Nodup) same conns coherent.conns
  · exact set_all (fun _ daemon => ∀ link ∈ daemon.links, link.core.config = daemon.config) same
      (config ▸ configs) coherent.config
  · exact set_all (fun _ daemon => ∀ link ∈ daemon.links, link.core.Sound) same sound coherent.sound
  · refine set_all (fun _ daemon => ∀ link ∈ daemon.links, link.conn < world.nextConn) same ?_
      coherent.below
    intro link listed
    obtain ⟨old, there, conn, _⟩ := origin link listed
    exact conn ▸ coherent.below name old there
  · exact coherent.offered
  · exact coherent.offers
  · intro offer listed
    have absent := lookup_none.mp (coherent.unadopted offer listed)
    apply lookup_none.mpr
    by_cases hit : offer.holder = name
    · rw [hit, set_self same]
      intro link present
      obtain ⟨old, there, conn, _⟩ := origin link present
      exact conn ▸ absent old (hit ▸ there)
    · rw [set_other same hit]
      exact absent
  · intro frame listed
    rcases mem_append.mp listed with old | new
    · show Genuine ((world.set daemon).startsOn _ _) ((world.set daemon).chunkOf _) _
      rw [grown.chunk]
      exact (coherent.wire frame old).mono (grown.starts _ _)
    obtain ⟨sent, there, rfl⟩ := mem_map.mp new
    obtain ⟨link, mem, rfl, fine⟩ := genuine sent there
    show Genuine ((world.set daemon).startsOn name link.conn) ((world.set daemon).chunkOf name) sent
    unfold World.startsOn
    rw [grown.chunk, set_self same, link_of_listed conns mem]
    rwa [configs link mem] at fine
  · exact coherent.promised
  · refine set_all (fun other daemon => ∀ link ∈ daemon.links, Joins ends link.conn other link.peer)
      same ?_ coherent.joined
    intro link listed
    obtain ⟨old, there, conn, peer⟩ := origin link listed
    exact conn ▸ peer ▸ coherent.joined name old there

theorem Coherent.set (same : daemon.name = name) (links : daemon.links = (world name).links)
    (config : daemon.config = (world name).config) :
    Reaches ends world (world.set daemon) := by
  have silent : ({ world.set daemon with wire := world.wire ++ framed name 0 [] } : World) =
      world.set daemon := by
    simp [framed, World.set]
  rw [← silent]
  apply coherent.change same config
  · exact links ▸ coherent.conns name
  · exact links ▸ coherent.config name
  · exact links ▸ coherent.sound name
  · exact fun link mem => ⟨link, links ▸ mem, rfl, rfl⟩
  · exact fun link mem => ⟨link, links ▸ mem, rfl, fun _ => id⟩
  · exact forall_mem_nil _

theorem Coherent.settle (mem : link ∈ (world name).links) (same : daemon.name = name)
    (config : daemon.config = (world name).config)
    (links : daemon.links = (world name).links ∨
      daemon.links = rewritten (world name).links written)
    (conn : written.conn = link.conn) (peer : written.peer = link.peer)
    {base : Hub} (begun : base.core = link.core) (spoken : Spoken base hub) :
    Reaches ends world (world.settle daemon written hub) := by
  have final : (daemon.setLink { written with core := hub.core }).links =
      rewritten (world name).links { written with core := hub.core } := by
    rcases links with kept | marked
    · exact congrArg (rewritten · { written with core := hub.core }) kept
    · exact (congrArg (rewritten · { written with core := hub.core }) marked).trans
        (update_update rfl)
  have present : ({ written with core := hub.core } : Link) ∈
      rewritten (world name).links { written with core := hub.core } :=
    rewritten_mem mem conn.symm
  show Reaches ends world { world.set { daemon.setLink { written with core := hub.core } with
    env := hub.env, writers := _ } with wire := world.wire ++ framed daemon.name written.conn hub.out }
  rw [same]
  apply coherent.change
  · exact same
  · exact config
  · rw [final, conns_rewritten]
    exact coherent.conns name
  · rw [final]
    refine forall_mem_write (coherent.config name) ?_
    exact (spoken.config.trans (congrArg Core.config begun)).trans (coherent.config name link mem)
  · rw [final]
    exact forall_mem_write (coherent.sound name) spoken.sound
  · rw [final]
    exact forall_mem_write (fun entry old => ⟨entry, old, rfl, rfl⟩) ⟨link, mem, conn.symm, peer.symm⟩
  · rw [final]
    intro old there
    by_cases here : old.conn = written.conn
    · have only : old = link := by
        have first := link_of_listed (coherent.conns name) there
        have second := link_of_listed (coherent.conns name) mem
        rw [here, conn, second] at first
        exact (Option.some.inj first).symm
      exact ⟨_, present, here.symm, only ▸ begun ▸ spoken.grown⟩
    · exact ⟨old, mem_rewritten_other there here, rfl, fun _ => id⟩
  · rw [final]
    exact fun frame there => ⟨_, present, rfl, spoken.genuine frame there⟩

def extended (daemon : Daemon) (offer : Offer) : Daemon :=
  { daemon with
    links := daemon.links ++
      [{ peer := offer.peer, conn := offer.conn, core := { config := daemon.config } }]
    registered := Function.update daemon.registered offer.peer (some offer.conn) }

def installed (world : World) (name : String) (offer : Offer) : World :=
  ({ world with offers := world.offers.filter (· ≠ offer) } : World).set
    (extended (world.daemons name) offer)

theorem offer_key {offer other : Offer} (mem : offer ∈ world.offers) (also : other ∈ world.offers)
    (holder : other.holder = offer.holder) (conn : other.conn = offer.conn) : other = offer :=
  inj_on_of_nodup_map coherent.offers also mem (by rw [holder, conn])

omit coherent in
theorem fresh_sound {config : Config} : ({ config := config } : Core).Sound :=
  ⟨nodup_nil, forall_mem_nil _,
    forall_mem_nil _, forall_mem_nil _⟩

theorem Coherent.install {offer : Offer}
    (mem : offer ∈ world.offers) : Reaches ends world (installed world offer.holder offer) := by
  have same : (extended (world offer.holder) offer).name = offer.holder :=
    coherent.named offer.holder
  have absent := coherent.unadopted offer mem
  have missing := lookup_none.mp absent
  have others : ∀ other ∈ world.offers.filter (· ≠ offer), other ∈ world.offers :=
    fun other listed => mem_of_mem_filter listed
  have conns : ((extended (world offer.holder) offer).links.map Link.conn).Nodup := by
    exact keys_append_nodup (coherent.conns _) missing
  have grown := set_grown same rfl conns fun old listed =>
      ⟨old, mem_append_left _ listed, rfl, fun _ => id⟩
  refine ⟨?_, grown.starts, grown.chunk⟩
  constructor
  · exact set_all (fun other daemon => daemon.name = other) same same coherent.named
  · exact set_all (fun _ daemon => (daemon.links.map Link.conn).Nodup) same conns coherent.conns
  · refine set_all (fun _ daemon => ∀ link ∈ daemon.links, link.core.config = daemon.config) same ?_
      coherent.config
    exact forall_mem_concat (coherent.config _) rfl
  · refine set_all (fun _ daemon => ∀ link ∈ daemon.links, link.core.Sound) same ?_ coherent.sound
    exact forall_mem_concat (coherent.sound _) fresh_sound
  · refine set_all (fun _ daemon => ∀ link ∈ daemon.links, link.conn < world.nextConn) same ?_
      coherent.below
    exact forall_mem_concat (coherent.below _) (coherent.offered offer mem)
  · exact fun other listed => coherent.offered other (others other listed)
  · exact coherent.offers.sublist (filter_sublist.map _)
  · intro other listed
    have apart : other ≠ offer := by simpa using (mem_filter.mp listed).2
    have before := coherent.unadopted other (others other listed)
    by_cases hit : other.holder = offer.holder
    · rw [hit, installed, set_self same]
      apply lookup_none.mpr
      exact forall_mem_concat (lookup_none.mp (hit ▸ before))
        (fun clash => apart (offer_key coherent mem (others other listed) hit clash.symm))
    · rw [installed, set_other same hit]
      exact before
  · intro frame listed
    have genuine := coherent.wire frame listed
    have chunk := grown.chunk frame.sender
    show Genuine ((world.set _).startsOn _ _) ((world.set _).chunkOf _) _
    rw [chunk]
    exact genuine.mono (grown.starts _ _)
  · exact fun other listed => coherent.promised other (others other listed)
  · refine set_all (fun other daemon => ∀ link ∈ daemon.links, Joins ends link.conn other link.peer)
      same ?_ coherent.joined
    exact forall_mem_concat (coherent.joined _) (coherent.promised offer mem)

theorem Coherent.forget (kept : Offer → Bool) :
    Reaches ends world { world with offers := world.offers.filter kept } where
  grown := ⟨fun _ _ _ => id, fun _ => rfl⟩
  coherent := { coherent with
    offered := fun offer mem => coherent.offered offer (mem_of_mem_filter mem)
    offers := coherent.offers.sublist (filter_sublist.map _)
    unadopted := fun offer mem => coherent.unadopted offer (mem_of_mem_filter mem)
    promised := fun offer mem => coherent.promised offer (mem_of_mem_filter mem) }

theorem Coherent.connect {left right : String} (ne : left ≠ right) :
    Reaches (Function.update ends world.nextConn (left, right)) world { world with
      nextConn := world.nextConn + 1
      offers := world.offers ++
        [{ conn := world.nextConn, holder := left, peer := right },
         { conn := world.nextConn, holder := right, peer := left }] } := by
  have kept : ∀ conn holder peer, conn < world.nextConn → Joins ends conn holder peer →
      Joins (Function.update ends world.nextConn (left, right)) conn holder peer := by
    intro conn holder peer below joins
    unfold Joins
    rw [Function.update_of_ne (Nat.ne_of_lt below)]
    exact joins
  have unused : ∀ holder, (world holder).link world.nextConn = none := fun holder =>
    lookup_none.mpr fun link listed => Nat.ne_of_lt (coherent.below holder link listed)
  refine ⟨{ coherent with
    below := fun name link mem => Nat.lt_succ_of_lt (coherent.below name link mem)
    offered := ?_, offers := ?_, unadopted := ?_, promised := ?_
    joined := fun name link mem =>
      kept _ _ _ (coherent.below name link mem) (coherent.joined name link mem) },
    fun _ _ _ => id, fun _ => rfl⟩
  · refine forall_mem_append.mpr ⟨fun offer old => Nat.lt_succ_of_lt (coherent.offered offer old), ?_⟩
    simp
  · rw [map_append]
    apply nodup_append.mpr
    refine ⟨coherent.offers, by simp [ne], ?_⟩
    intro old listed new added clash
    obtain ⟨offer, there, rfl⟩ := mem_map.mp listed
    have below := coherent.offered offer there
    have conn : new.2 = world.nextConn := by
      rcases mem_cons.mp added with rfl | last
      · rfl
      · rw [mem_singleton.mp last]
    rw [← clash] at conn
    exact absurd conn (Nat.ne_of_lt below)
  · exact forall_mem_append.mpr ⟨coherent.unadopted,
      forall_mem_cons.mpr ⟨unused left, forall_mem_singleton.mpr (unused right)⟩⟩
  · exact forall_mem_append.mpr ⟨fun offer old =>
      kept _ _ _ (coherent.offered offer old) (coherent.promised offer old),
      forall_mem_cons.mpr ⟨⟨ne, .inl (Function.update_self ..)⟩,
        forall_mem_singleton.mpr ⟨ne.symm, .inr (Function.update_self ..)⟩⟩⟩

end

/-- A daemon that has taken one of its links down. -/
def closed (daemon : Daemon) (link : Link) : Daemon :=
  { daemon.setLink { link with alive := false } with
    registered := Function.update daemon.registered link.peer none }

theorem closed_links : (settled (closed daemon link) { link with alive := false } hub).links =
    rewritten daemon.links { link with alive := false, core := hub.core } :=
  update_update rfl

theorem closed_index (peer : String) (conn : Nat)
    (found : (closed daemon link).registered peer = some conn) : daemon.registered peer = some conn := by
  by_cases here : peer = link.peer
  · subst here
    cases (Function.update_self ..).symm.trans found
  · exact (Function.update_of_ne here _ _).symm.trans found

theorem closed_registered {core : Core} (alive : link.alive = true) (mem : link ∈ daemon.links)
    (registered : ∀ other ∈ daemon.links, other.alive = true →
      daemon.registered other.peer = some other.conn) :
    ∀ other ∈ rewritten daemon.links { link with alive := false, core := core },
      other.alive = true → (closed daemon link).registered other.peer = some other.conn := by
  intro other listed there
  rcases mem_rewritten listed with rfl | ⟨old, apart⟩
  · cases there
  have target := registered other old there
  have ne : other.peer ≠ link.peer := by
    intro same
    rw [same, registered link mem alive] at target
    exact apart (Option.some.inj target).symm
  exact (Function.update_of_ne ne _ _).trans target

theorem drop_link_alive (now : ℚ) (world : World) (daemon : Daemon) (alive : link.alive = true) :
    dropLink now world daemon link = world.settle (closed daemon link) { link with alive := false }
      (reached (dropHub now (daemon.hub link))) := by
  rw [dropLink, if_neg (by simp [alive])]
  rfl

theorem drop_link_offers (now : ℚ) (world : World) (daemon : Daemon) (link : Link)
    (offers : List Offer) : dropLink now { world with offers := offers } daemon link =
      { dropLink now world daemon link with offers := offers } := by
  unfold dropLink
  split <;> rfl

theorem offers_drop_link (now : ℚ) (world : World) (daemon : Daemon) (link : Link) :
    (dropLink now world daemon link).offers = world.offers := by
  unfold dropLink
  split <;> rfl

theorem adopt_link_cases (now : ℚ) (named : (world name).name = name) (offer : Offer) :
    (∃ old, ((world name).registered offer.peer).bind (world name).link = some old ∧
      name < offer.peer ∧ adoptLink now world (world name) offer =
        { world with offers := world.offers.filter (· ≠ offer) }) ∨
    (((world name).registered offer.peer).bind (world name).link = none ∧
      adoptLink now world (world name) offer = installed world name offer) ∨
    ∃ old, ((world name).registered offer.peer).bind (world name).link = some old ∧
      ¬ name < offer.peer ∧ adoptLink now world (world name) offer =
        installed (dropLink now world (world name) old) name offer := by
  cases found : ((world name).registered offer.peer).bind (world name).link with
  | none =>
    refine .inr (.inl ⟨rfl, ?_⟩)
    simp only [adoptLink, found, installed, extended, named]
  | some old =>
    by_cases smaller : name < offer.peer
    · refine .inl ⟨old, rfl, smaller, ?_⟩
      simp only [adoptLink, found, named, smaller, if_true]
    · refine .inr (.inr ⟨old, rfl, smaller, ?_⟩)
      simp only [adoptLink, found, named, smaller, if_false, drop_link_offers, installed, extended,
        offers_drop_link]

theorem drop_link_coherent (now : ℚ) (coherent : Coherent ends world)
    (mem : link ∈ (world name).links) :
    Reaches ends world (dropLink now world (world name) link) := by
  have begun := coherent.sound name link mem
  unfold dropLink
  split
  · exact coherent.stay
  · exact coherent.settle mem (coherent.named name) rfl (.inr rfl) rfl rfl rfl
      ((Spoken.refl begun rfl).works (ensures_reached drop_hub_works))

theorem bind_link_listed {daemon : Daemon} {target : Option Nat}
    (found : target.bind daemon.link = some link) :
    target = some link.conn ∧ link ∈ daemon.links := by
  obtain ⟨conn, same, there⟩ := Option.bind_eq_some_iff.mp found
  obtain ⟨listed, conn⟩ := link_listed there
  exact ⟨same.trans (congrArg some conn.symm), listed⟩

theorem adopt_coherent (now : ℚ) (coherent : Coherent ends world) {offer : Offer}
    (mem : offer ∈ world.offers) (holder : offer.holder = name) :
    Reaches ends world (adoptLink now world (world name) offer) := by
  rcases adopt_link_cases now (coherent.named name) offer with
    ⟨_, _, _, same⟩ | ⟨_, same⟩ | ⟨old, found, _, same⟩
  · exact same ▸ coherent.forget _
  · exact same ▸ holder ▸ coherent.install mem
  have dropped := drop_link_coherent now coherent (bind_link_listed found).2
  have still : offer ∈ (dropLink now world (world name) old).offers :=
    offers_drop_link now world _ old ▸ mem
  have installs := dropped.coherent.install still
  rw [same]
  exact dropped.trans (holder ▸ installs)

/-- A daemon that has taken a commit back and returned its quota. -/
def returned (daemon : Daemon) (position : Nat) (commit : Commit) : Daemon :=
  { daemon with
    landing := daemon.landing.eraseIdx position
    env := { daemon.env with
      inflight := Function.update daemon.env.inflight commit.fromPeer
        (max 0 (daemon.env.inflight commit.fromPeer - commit.res.length)) } }

theorem land_commit_cases (world : World) (daemon : Daemon) (position : Nat) :
    landCommit world daemon position = world ∨ ∃ commit target,
      daemon.landing[position]? = some ⟨commit, some target⟩ ∧ ((target.bind daemon.link = none ∧
        landCommit world daemon position = world.set (returned daemon position commit)) ∨
      ∃ link, target.bind daemon.link = some link ∧ landCommit world daemon position =
        world.settle (returned daemon position commit) link
          (commitDone commit.sendId ((returned daemon position commit).hub link))) := by
  unfold landCommit
  split
  · next commit target found =>
    refine .inr ⟨commit, target, found, ?_⟩
    simp only
    split
    · next none => exact .inl ⟨none, rfl⟩
    · next link some => exact .inr ⟨link, some, rfl⟩
  · exact .inl rfl

theorem dispatch_same (daemon : Daemon) : (dispatchCommit daemon).name = daemon.name ∧
    (dispatchCommit daemon).links = daemon.links ∧ (dispatchCommit daemon).config = daemon.config ∧
    (dispatchCommit daemon).registered = daemon.registered := by
  unfold dispatchCommit
  split
  · exact ⟨rfl, rfl, rfl, rfl⟩
  · simp only
    split <;> exact ⟨rfl, rfl, rfl, rfl⟩

theorem route_same (daemon : Daemon) (position : Nat) :
    (routeLanding daemon position).name = daemon.name ∧
    (routeLanding daemon position).links = daemon.links ∧
    (routeLanding daemon position).config = daemon.config ∧
    (routeLanding daemon position).registered = daemon.registered := by
  unfold routeLanding
  split <;> exact ⟨rfl, rfl, rfl, rfl⟩

def patched (daemon : Daemon) (store : Store) : Daemon :=
  { daemon with env := { daemon.env with store := store } }

def rewriting (daemon : Daemon) (writers : List (Nat × RdmaWrite)) : Daemon :=
  { daemon with writers := writers }

/-- A writer thread that has run leaves the world as it is, or its daemon without the writer,
or the slab of the peer written and the core of the link told. -/
theorem write_remote_cases (world : World) (daemon : Daemon) (position : Nat) (now : ℚ) :
    writeRemote world daemon position now = world ∨ ∃ conn write,
      daemon.writers[position]? = some (conn, write) ∧
      ((daemon.link conn = none ∧ writeRemote world daemon position now =
        world.set (rewriting daemon (daemon.writers.eraseIdx position))) ∨
      ∃ link store, daemon.link conn = some link ∧ writeRemote world daemon position now =
        (world.set (patched (world link.peer) store)).settle
          (rewriting daemon (daemon.writers.eraseIdx position)) link
          (rdmaWriteFinished now write.sendId (daemon.hub link))) := by
  unfold writeRemote
  split
  · exact .inl rfl
  next conn write found =>
  refine .inr ⟨conn, write, found, ?_⟩
  simp only
  split
  · next none => exact .inl ⟨none, rfl⟩
  · next link some => exact .inr ⟨link, _, some, rfl⟩

section

variable (coherent : Coherent ends world)
include coherent

theorem Coherent.relink (mem : link ∈ (world name).links)
    (conn : written.conn = link.conn) (peer : written.peer = link.peer)
    (config : written.core.config = link.core.config) (sound : written.core.Sound)
    (starts : written.core.starts = link.core.starts) :
    Reaches ends world (world.set ((world name).setLink written)) := by
  have spoken : Spoken ((world name).hub link) ((world name).hub written) :=
    ⟨config, fun start known => starts ▸ known, sound, forall_mem_nil _⟩
  have settled := coherent.settle mem (coherent.named name) rfl (.inl rfl) conn peer rfl spoken
  simpa [World.settle, Daemon.hub, World.set, Daemon.setLink] using settled

theorem Coherent.write (mem : link ∈ (world name).links)
    (store : Store) (writers : List (Nat × RdmaWrite))
    (spoken : Spoken ((world name).hub link) hub) :
    Reaches ends world ((world.set (patched (world link.peer) store)).settle
      (rewriting (world name) writers) link hub) := by
  have apart := (coherent.joined name link mem).1
  have named : (patched (world link.peer) store).name = link.peer :=
    coherent.named link.peer
  have landed := coherent.set named rfl rfl
  have self : (world.set (patched (world link.peer) store)).daemons name =
    world name := set_other named apart
  have issuer := coherent.named name
  refine landed.trans (landed.coherent.settle ?_ issuer ?_ ?_ rfl rfl rfl spoken)
  · rw [self]
    exact mem
  · rw [self]
    rfl
  · rw [self]
    exact .inl rfl

theorem act_coherent (action : Action) : ∃ more, Reaches more world (act world action) := by
  have run : ∀ {name link hub}, link ∈ (world name).links →
      Spoken ((world name).hub link) hub →
      Reaches ends world (world.settle (world name) link hub) := fun mem spoken =>
    coherent.settle mem (coherent.named _) rfl (.inl rfl) rfl rfl rfl spoken
  have silent : ∀ {name link}, link ∈ (world name).links →
      Spoken ((world name).hub link) ((world name).hub link) :=
    fun mem => .refl (coherent.sound _ _ mem) rfl
  cases action with
  | connect left right =>
    simp only [act]
    split
    · exact ⟨ends, coherent.stay⟩
    · next ne => exact ⟨_, coherent.connect ne⟩
  | adopt name conn now =>
    simp only [act]
    split
    · exact ⟨ends, coherent.stay⟩
    · next offer found =>
      have keyed := find?_some found
      simp only [decide_eq_true_eq] at keyed
      exact ⟨ends, adopt_coherent now coherent (mem_of_find?_eq_some found) keyed.1⟩
  | drop name conn now =>
    simp only [act]
    split
    · exact ⟨ends, coherent.stay⟩
    · next link found => exact ⟨ends, drop_link_coherent now coherent (link_listed found).1⟩
  | send name peer now destId payload overwrite info =>
    simp only [act]
    split
    · exact ⟨ends, coherent.stay⟩
    · next link found =>
      have mem := (bind_link_listed found).2
      exact ⟨ends, run mem (start_send_spoken (silent mem))⟩
  | deliver name conn frame now =>
    simp only [act]
    split
    · exact ⟨ends, coherent.stay⟩
    next link found =>
    have mem := (link_listed found).1
    split
    · exact ⟨ends, run mem ((silent mem).works (ensures_reached handle_works))⟩
    · exact ⟨ends, coherent.stay⟩
  | tick name conn now =>
    simp only [act]
    split
    · exact ⟨ends, coherent.stay⟩
    · next link found =>
      have mem := (link_listed found).1
      exact ⟨ends, run mem ((silent mem).works (ensures_reached tick_works))⟩
  | lease name object => exact ⟨ends, coherent.set (coherent.named name) rfl rfl⟩
  | unlease name object => exact ⟨ends, coherent.set (coherent.named name) rfl rfl⟩
  | dispatch name =>
    obtain ⟨same, links, config, _⟩ := dispatch_same (world name)
    exact ⟨ends, coherent.set (same.trans (coherent.named name)) links config⟩
  | route name position =>
    obtain ⟨same, links, config, _⟩ := route_same (world name) position
    exact ⟨ends, coherent.set (same.trans (coherent.named name)) links config⟩
  | land name position =>
    refine ⟨ends, ?_⟩
    simp only [act]
    rcases land_commit_cases world (world name) position with
      same | ⟨commit, target, _, ⟨_, same⟩ | ⟨link, found, same⟩⟩
    · rw [same]
      exact coherent.stay
    · rw [same]
      exact coherent.set (coherent.named name) rfl rfl
    · have mem := (bind_link_listed found).2
      rw [same]
      exact coherent.settle mem (coherent.named name) rfl (.inl rfl) rfl rfl rfl
        ((Spoken.refl (coherent.sound name link mem) rfl).works commit_done_side.works)
  | rdmaUp name conn =>
    simp only [act]
    split
    · exact ⟨ends, coherent.stay⟩
    next link found =>
    have mem := (link_listed found).1
    exact ⟨ends, coherent.relink mem rfl rfl rfl { coherent.sound name link mem with } rfl⟩
  | rdmaWrite name position now =>
    refine ⟨ends, ?_⟩
    simp only [act]
    rcases write_remote_cases world (world name) position now with
      same | ⟨conn, write, _, ⟨_, same⟩ | ⟨link, store, found, same⟩⟩
    · rw [same]
      exact coherent.stay
    · rw [same]
      exact coherent.set (coherent.named name) rfl rfl
    · rw [same]
      exact coherent.write (link_listed found).1 store _
        ((Spoken.refl (coherent.sound name link (link_listed found).1) rfl).works rdma_write_finished_works)

theorem run_coherent (actions : List Action) :
    ∃ more, Coherent more (runActions world actions) := by
  induction actions generalizing world ends with
  | nil => exact ⟨ends, coherent⟩
  | cons action rest ih =>
    obtain ⟨more, next⟩ := act_coherent coherent action
    exact ih next.coherent

end

end Worlds

end Dataflow.Peer
