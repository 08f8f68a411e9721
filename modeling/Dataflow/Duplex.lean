import Dataflow.PeerNetwork

/-!
Two daemons on one link, thread by thread. Every thread that runs core code holds the
manager lock for as long as the core runs, and the core sends its frames from there: a
frame is written octet by octet under the write lock of the link, and an octet goes out
only while the socket has room. The reader of a link takes octets out of the socket only
between two core steps of its own. A `none` step is a thread that blocks.

Clock readings are arguments. The store may change between any two steps. Collectives,
bandwidth probes and the set-up of remote writes are not here.
-/

namespace Dataflow.Duplex

open StatefulOutcome ByteRanges Service Peer

inductive Side where
  | left
  | right
  deriving DecidableEq

inductive Wire where
  | ping
  | pong
  | core (message : Message) (payload : Bytes)
  deriving DecidableEq

def Wire.payload : Wire → Bytes
  | .core _ payload => payload
  | .ping | .pong => []

/-- One octet on the socket. The newline after a header tells the reader the frame. -/
inductive Octet where
  | plain
  | line (frame : Wire)
  deriving DecidableEq

/-- What a thread does in one `with self.lock` section. -/
inductive Task where
  | startSend (destId : String) (payload : Bytes) (overwrite : Bool) (info : Info)
  | commitDone (sendId : SendId)
  | commitRefused (sendId : SendId)
  | rdmaWriteFinished (sendId : SendId)
  | rdmaWriteFailed (machine : SenderMachine) (error : String)
  /-- Housekeeping copies the table of links; then a PING may be due and the peer may
  have been silent for too long. -/
  | listLinks (due silent : Bool)
  | tick
  | dropLink
  /-- `land_chunk` looks up the reservation before it takes the payload off the socket. -/
  | lookUp (message : Message) (payload : Bytes)
  | handle (message : Message) (payload : Bytes)
  /-- `after_core_step`. -/
  | refresh

namespace Task

/-- The sections of the threads that call into the manager. -/
def isCall : Task → Bool
  | .startSend .. | .commitDone _ | .commitRefused _ | .rdmaWriteFinished _
  | .rdmaWriteFailed .. => true
  | .listLinks .. | .tick | .dropLink | .lookUp .. | .handle .. | .refresh => false

def perform (now : ℚ) (hub : Hub) : Task → CoreRun Hub
  | .startSend destId payload overwrite info =>
    .ok (Peer.startSend now destId payload overwrite info hub)
  | .commitDone sendId => .ok (Peer.commitDone sendId hub)
  | .commitRefused sendId => .ok (hub.setCore (hub.core.popReceiver sendId))
  | .rdmaWriteFinished sendId => .ok (Peer.rdmaWriteFinished now sendId hub)
  | .rdmaWriteFailed machine error => finishSender now machine .error (some error) hub
  | .tick => Peer.tick now hub
  | .dropLink => dropHub now hub
  | .handle message payload => Peer.handle now message payload hub
  | .listLinks .. | .lookUp .. | .refresh => .ok hub

end Task

inductive Stage where
  /-- The reader is between two frames, housekeeping sleeps, a caller has returned. -/
  | free
  /-- The reader is inside a payload. -/
  | body (frame : Wire) (left : Nat)
  /-- At the manager lock. -/
  | wants (task : Task)
  /-- In `send_frame`, with the frames that are still to be sent; `locked` tells whether
  the thread holds the manager lock meanwhile. -/
  | emits (locked : Bool) (frames : List Wire) (after : Stage)
  /-- The socket is closed. -/
  | closed
  /-- An exception has ended the thread. -/
  | dead

def Task.after : Task → Stage
  | .startSend .. | .commitDone _ | .commitRefused _ | .refresh => .free
  | .rdmaWriteFinished _ | .handle .. | .tick => .wants .refresh
  | .rdmaWriteFailed .. => .wants .dropLink
  | .dropLink => .closed
  | .listLinks due silent =>
    let next := .wants (if silent then .dropLink else .tick)
    if due then .emits false [.ping] next else next
  | .lookUp message payload => .body (.core message payload) payload.length

def received : Wire → Stage
  | .ping => .emits false [.pong] .free
  | .pong => .free
  | .core message payload => .wants (.handle message payload)

def headed (frame : Wire) : Stage :=
  if frame.payload = [] then received frame else
  match frame with
  | .core (.chunk sendId seq last) payload => .wants (.lookUp (.chunk sendId seq last) payload)
  | _ => .body frame frame.payload.length

def Stage.read : Stage → Octet → Option Stage
  | .free, .plain => some .free
  | .free, .line frame => some (headed frame)
  | .body frame left, _ => some (if left ≤ 1 then received frame else .body frame (left - 1))
  | _, _ => none

/-- How much one `recv` asks for. -/
def Stage.asks : Stage → Nat
  | .free => 65536
  | .body _ left => min (2 ^ 22) left
  | _ => 0

abbrev reader : Nat := 0
abbrev housekeeping : Nat := 1

/-- One daemon: the reader of the link, the housekeeping thread, and callers. -/
structure Station where
  hub : Hub
  lock : Option Nat := none
  /-- The holder of the write lock with the rest of its frame. -/
  writing : Option (Nat × List Octet) := none
  threads : List Stage := [.free, .free]
  /-- What the reader has received and not used yet. -/
  buffer : List Octet := []
  /-- In the socket, towards the peer. -/
  outgoing : List Octet := []

/-- The length of every header, and the octets that fit into each direction. -/
structure Socket where
  header : Wire → Nat
  capacity : Side → Nat
  positive : ∀ side, 0 < capacity side

def octets (header : Wire → Nat) (frame : Wire) : List Octet :=
  List.replicate (header frame) .plain ++
    .line frame :: List.replicate frame.payload.length .plain

inductive Move where
  /-- A caller arrives. -/
  | call (task : Task)
  | storeChanges (env : Env)
  /-- Housekeeping wakes up. -/
  | wake (due silent : Bool)
  /-- A thread gets the manager lock and runs the core. -/
  | grant (thread : Nat) (now : ℚ)
  /-- A thread gets the write lock for its next frame. -/
  | openFrame (thread : Nat)
  | write
  | closeFrame
  | finish (thread : Nat)
  | recv (count : Nat)
  | read

def Move.isWork : Move → Bool
  | .call _ | .storeChanges _ | .wake .. => false
  | .grant .. | .openFrame _ | .write | .closeFrame | .finish _ | .recv _ | .read => true

namespace Station

def setThread (station : Station) (thread : Nat) (stage : Stage) : Station :=
  { station with threads := station.threads.set thread stage }

/-- The core run of a section, with no frames left over from another one. -/
def lockedRun (station : Station) (now : ℚ) (task : Task) : CoreRun Hub :=
  task.perform now { station.hub with out := [], spawned := [] }

/-- What a section leaves its thread to do. An exception leaves the `with` block. -/
def granted (station : Station) (now : ℚ) (task : Task) : Stage :=
  let run := station.lockedRun now task
  .emits true ((reached run).out.map fun frame => .core frame.1 frame.2)
    (match run with | .ok _ => task.after | .error _ => .dead)

/-- One move of a daemon, with what it does to its peer. -/
def move (header : Wire → Nat) (room : Nat) (me peer : Station) : Move → Option (Station × Station)
  | .call task =>
    if task.isCall then some ({ me with threads := me.threads ++ [.wants task] }, peer) else none
  | .storeChanges env => some ({ me with hub := { me.hub with env := env } }, peer)
  | .wake due silent =>
    match me.threads[housekeeping]? with
    | some .free => some (me.setThread housekeeping (.wants (.listLinks due silent)), peer)
    | _ => none
  | .grant thread now =>
    match me.threads[thread]?, me.lock with
    | some (.wants task), none =>
      let hub := reached (me.lockedRun now task)
      some ({ me.setThread thread (me.granted now task) with
        lock := some thread, hub := { hub with out := [], spawned := [] } }, peer)
    | _, _ => none
  | .openFrame thread =>
    match me.threads[thread]?, me.writing with
    | some (.emits locked (frame :: frames) after), none =>
      some ({ me.setThread thread (.emits locked frames after) with
        writing := some (thread, octets header frame) }, peer)
    | _, _ => none
  | .write =>
    match me.writing with
    | some (thread, octet :: rest) =>
      if me.outgoing.length < room then
        some ({ me with
          writing := some (thread, rest), outgoing := me.outgoing ++ [octet] }, peer)
      else none
    | _ => none
  | .closeFrame =>
    match me.writing with
    | some (_, []) => some ({ me with writing := none }, peer)
    | _ => none
  | .finish thread =>
    match me.threads[thread]? with
    | some (.emits locked [] after) =>
      if me.writing.map Prod.fst = some thread then none else
      some ({ me.setThread thread after with
        lock := if locked then none else me.lock }, peer)
    | _ => none
  | .recv count =>
    match me.threads[reader]?, me.buffer with
    | some stage, [] =>
      if 0 < count ∧ count ≤ stage.asks ∧ count ≤ peer.outgoing.length then
        some ({ me with buffer := peer.outgoing.take count },
          { peer with outgoing := peer.outgoing.drop count })
      else none
    | _, _ => none
  | .read =>
    match me.threads[reader]?, me.buffer with
    | some stage, octet :: rest =>
      match stage.read octet with
      | some next => some ({ me.setThread reader next with buffer := rest }, peer)
      | none => none
    | _, _ => none

end Station

structure Pair where
  left : Station
  right : Station

namespace Pair

/-- A fresh link: both readers between two frames, nothing sent. -/
def link (left right : Hub) : Pair := ⟨{ hub := left }, { hub := right }⟩

def step (socket : Socket) (pair : Pair) : Side → Move → Option Pair
  | .left, move =>
    (pair.left.move socket.header (socket.capacity .left) pair.right move).map
      fun next => ⟨next.1, next.2⟩
  | .right, move =>
    (pair.right.move socket.header (socket.capacity .right) pair.left move).map
      fun next => ⟨next.2, next.1⟩

def run (socket : Socket) (pair : Pair) (moves : List (Side × Move)) : Option Pair :=
  moves.foldlM (fun pair move => pair.step socket move.1 move.2) pair

end Pair

end Dataflow.Duplex
