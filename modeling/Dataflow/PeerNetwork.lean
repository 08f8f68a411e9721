import Dataflow.PeerCore

/-!
Daemons and their links, after `service/peer/nm.py`. One action is one block
that runs under the network manager's lock, or one call of the dispatcher. The
wire keeps every frame that was sent on a connection, and a delivery takes any
of them: frames may arrive late, twice, in another order or never. A link stays
reachable after it was dropped, because its reader thread may still hold a
frame. A landed commit is routed to the peer's link of that moment, by name.
-/

namespace Dataflow.Peer

open StatefulOutcome ByteRanges Service Function

structure Link where
  peer : String
  conn : Nat
  alive : Bool := true
  rdmaReady : Bool := false
  core : Core

/-- An executed commit on its way back: `commit_landed` first looks the link up
and then tells its core. -/
structure Landing where
  commit : Commit
  route : Option (Option Nat) := none
  deriving DecidableEq

structure Daemon where
  name : String
  config : Config
  env : Env
  /-- Every link that was adopted, by its connection. -/
  links : List Link := []
  /-- `nm.links`: the link of each peer. -/
  registered : String → Option Nat := fun _ => none
  parked : List Commit := []
  landing : List Landing := []
  writers : List (Nat × RdmaWrite) := []

structure Frame where
  conn : Nat
  sender : String
  message : Message
  payload : Bytes
  deriving DecidableEq

/-- A connection that one end has not adopted yet. -/
structure Offer where
  conn : Nat
  holder : String
  peer : String
  deriving DecidableEq

structure World where
  daemons : String → Daemon
  wire : List Frame := []
  nextConn : Nat := 0
  offers : List Offer := []

/-- A world is read as its daemons by name. -/
instance : CoeFun World fun _ => String → Daemon := ⟨World.daemons⟩

inductive Action where
  | connect (left right : String)
  | adopt (daemon : String) (conn : Nat) (now : ℚ)
  | drop (daemon : String) (conn : Nat) (now : ℚ)
  | send (daemon peer : String) (now : ℚ) (destId : String) (payload : Bytes) (overwrite : Bool)
      (info : Info)
  | deliver (daemon : String) (conn : Nat) (frame : Frame) (now : ℚ)
  | tick (daemon : String) (conn : Nat) (now : ℚ)
  | lease (daemon : String) (object : String)
  | unlease (daemon : String) (object : String)
  | dispatch (daemon : String)
  | route (daemon : String) (position : Nat)
  | land (daemon : String) (position : Nat)
  | rdmaUp (daemon : String) (conn : Nat)
  | rdmaWrite (daemon : String) (position : Nat) (now : ℚ)

namespace Daemon

def link (daemon : Daemon) (conn : Nat) : Option Link :=
  KeyedTable.lookup Link.conn conn daemon.links

def setLink (daemon : Daemon) (link : Link) : Daemon :=
  { daemon with links := KeyedTable.update Link.conn link.conn (fun _ => link) daemon.links }

def hub (daemon : Daemon) (link : Link) : Hub :=
  { peer := link.peer, conn := link.conn, rdmaReady := link.rdmaReady
    core := link.core, env := daemon.env }

end Daemon

variable (world : World)

def World.set (daemon : Daemon) : World :=
  { world with daemons := update world.daemons daemon.name daemon }

/-- What a core leaves behind goes back to its daemon and onto the wire. -/
def World.settle (daemon : Daemon) (link : Link) (hub : Hub) : World :=
  let updated := { daemon.setLink { link with core := hub.core } with
    env := hub.env
    writers := daemon.writers ++ hub.spawned.map fun write => (link.conn, write) }
  { world.set updated with
    wire := world.wire ++ hub.out.map fun frame =>
      { conn := link.conn, sender := daemon.name, message := frame.1, payload := frame.2 } }

/-- Code that raises leaves its hub as it is at that point. -/
def reached (run : CoreRun Hub) : Hub :=
  match run with
  | .ok hub => hub
  | .error (_, hub) => hub

/-- `drop_link`: every receiver is aborted, then every sender ends in error. -/
def dropHub (now : ℚ) (hub : Hub) : CoreRun Hub :=
  let aborted := hub.core.receivers.foldl (fun hub machine => abortReceiver machine hub) hub
  (aborted.core.senders.map (·.sendId)).foldlM (fun hub sendId =>
    match hub.core.sender sendId with
    | none => .ok hub
    | some machine => finishSender now machine .error (some "TRANSFER_ABORTED peer_down") hub)
    aborted

def dropLink (now : ℚ) (world : World) (daemon : Daemon) (link : Link) : World :=
  if link.alive = false then world else
  let dead := { link with alive := false }
  let closed := { daemon.setLink dead with
    registered := update daemon.registered link.peer none }
  world.settle closed dead (reached (dropHub now (closed.hub dead)))

/-- `adopt_link`: on glare the smaller name keeps its link, the other replaces it. -/
def adoptLink (now : ℚ) (world : World) (daemon : Daemon) (offer : Offer) : World :=
  let taken := { world with offers := world.offers.filter (· ≠ offer) }
  let install (world : World) : World :=
    let daemon := world.daemons daemon.name
    world.set { daemon with
      links := daemon.links ++
        [{ peer := offer.peer, conn := offer.conn, core := { config := daemon.config } }]
      registered := update daemon.registered offer.peer (some offer.conn) }
  match (daemon.registered offer.peer).bind daemon.link with
  | none => install taken
  | some old =>
    if daemon.name < offer.peer then taken else install (dropLink now taken daemon old)

/-- The dispatcher runs the oldest commit, or parks it while its object is leased. -/
def dispatchCommit (daemon : Daemon) : Daemon :=
  match daemon.env.fifo with
  | [] => daemon
  | commit :: rest =>
    let env := { daemon.env with fifo := rest }
    match env.store.adoptInbound commit.res.destId commit.res.extent commit.res.length
        commit.info with
    | none => { daemon with env := env, parked := daemon.parked ++ [commit] }
    | some store =>
      { daemon with
        env := { env with
          store := store
          adoptions := env.adoptions ++
            [{ rid := commit.res.rid, destId := commit.res.destId, sendId := commit.sendId
               fromPeer := commit.fromPeer, conn := commit.conn
               bytes := env.buffer commit.res }] }
        landing := daemon.landing ++ [{ commit := commit }] }

/-- `commit_landed`, first part. -/
def routeLanding (daemon : Daemon) (position : Nat) : Daemon :=
  match daemon.landing[position]? with
  | some { commit, route := none } =>
    { daemon with
      landing := daemon.landing.set position
        { commit := commit, route := some (daemon.registered commit.fromPeer) } }
  | _ => daemon

/-- `commit_landed`, second part: the quota is returned, the core acknowledges. -/
def landCommit (daemon : Daemon) (position : Nat) : World :=
  match daemon.landing[position]? with
  | some { commit, route := some target } =>
    let peer := commit.fromPeer
    let settled := { daemon with
      landing := daemon.landing.eraseIdx position
      env := { daemon.env with
        inflight := update daemon.env.inflight peer
          (max 0 (daemon.env.inflight peer - commit.res.length)) } }
    match target.bind settled.link with
    | none => world.set settled
    | some link => world.settle settled link (commitDone commit.sendId (settled.hub link))
  | _ => world

/-- A remote write goes to the peer's slab wherever the address points. -/
def writeRemote (daemon : Daemon) (position : Nat) (now : ℚ) : World :=
  match daemon.writers[position]? with
  | none => world
  | some (conn, write) =>
    let issued := { daemon with writers := daemon.writers.eraseIdx position }
    match issued.link conn with
    | none => world.set issued
    | some link =>
      let target := world.daemons link.peer
      let landed := world.set { target with
        env := target.env.writeSlab (write.raddr - target.env.slabBase) write.payload }
      landed.settle issued link (rdmaWriteFinished now write.sendId (issued.hub link))

def act : Action → World
  | .connect left right =>
    if left = right then world else
    { world with
      nextConn := world.nextConn + 1
      offers := world.offers ++
        [{ conn := world.nextConn, holder := left, peer := right },
         { conn := world.nextConn, holder := right, peer := left }] }
  | .adopt name conn now =>
    match world.offers.find? fun offer => offer.holder = name ∧ offer.conn = conn with
    | none => world
    | some offer => adoptLink now world (world.daemons name) offer
  | .drop name conn now =>
    let daemon := world.daemons name
    match daemon.link conn with
    | none => world
    | some link => dropLink now world daemon link
  | .send name peer now destId payload overwrite info =>
    let daemon := world.daemons name
    match (daemon.registered peer).bind daemon.link with
    | none => world
    | some link =>
      world.settle daemon link (startSend now destId payload overwrite info (daemon.hub link))
  | .deliver name conn frame now =>
    let daemon := world.daemons name
    match daemon.link conn with
    | none => world
    | some link =>
      if frame ∈ world.wire ∧ frame.conn = conn ∧ frame.sender = link.peer then
        world.settle daemon link
          (reached (handle now frame.message frame.payload (daemon.hub link)))
      else world
  | .tick name conn now =>
    let daemon := world.daemons name
    match daemon.link conn with
    | none => world
    | some link => world.settle daemon link (reached (tick now (daemon.hub link)))
  | .lease name object =>
    let daemon := world.daemons name
    world.set { daemon with
      env := { daemon.env with store := daemon.env.store.lease object (· + 1) } }
  | .unlease name object =>
    let daemon := world.daemons name
    world.set { daemon with
      env := { daemon.env with
        store := daemon.env.store.lease object (· - 1)
        fifo := daemon.env.fifo ++ daemon.parked }
      parked := [] }
  | .dispatch name => world.set (dispatchCommit (world.daemons name))
  | .route name position => world.set (routeLanding (world.daemons name) position)
  | .land name position => landCommit world (world.daemons name) position
  | .rdmaUp name conn =>
    let daemon := world.daemons name
    match daemon.link conn with
    | none => world
    | some link => world.set (daemon.setLink { link with
        rdmaReady := true, core := { link.core with rdmaWriter := true } })
  | .rdmaWrite name position now => writeRemote world (world.daemons name) position now

def runActions (actions : List Action) : World :=
  actions.foldl act world

end Dataflow.Peer
