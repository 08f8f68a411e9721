import Dataflow.PeerLedger
import Dataflow.VerbFootprint

/-!
The leases of a daemon and everybody who takes and gives them back: the dispatcher's
verbs, the snapshot and restore jobs of the payload thread, and the sends on its links
with their writer threads. A send's lease is released by its `on_finish`, which
`finish_sender` calls whenever it is called, so the writer thread of a failed remote
write releases it once more when the send had ended before. A failed restore first
removes what it created and gives its leases back in a later step.
-/

namespace Dataflow.Peer

open StatefulOutcome ByteRanges Service

theorem start_send_adds (now : ℚ) (destId : String) (payload : Bytes) (overwrite : Bool)
    (info : Info) (hub : Hub) : let next := startSend now destId payload overwrite info hub
    next.core.seq = hub.core.seq + 1 ∧
      next.core.senders.map SenderMachine.sendId =
        hub.core.senders.map SenderMachine.sendId ++ [hub.core.seq + 1] ∧
      next.env = hub.env ∧ next.spawned = hub.spawned := by
  unfold startSend
  simp only
  split_ifs
  · unfold openSend
    simp only
    split_ifs
    · refine ⟨rfl, ?_, rfl, rfl⟩
      exact (KeyedTable.keys_write rfl).trans List.map_append
    · refine ⟨rfl, ?_, rfl, rfl⟩
      exact (KeyedTable.keys_write rfl).trans List.map_append
  · exact ⟨rfl, List.map_append, rfl, rfl⟩

end Dataflow.Peer

namespace Dataflow.LeasePlane

open StatefulOutcome ByteRanges Service Peer

/-- A writer thread with the machine it was given and the object whose lease the
machine's `on_finish` releases. -/
structure Writer where
  conn : Nat
  machine : SenderMachine
  oid : String

/-- A restore that is over and has yet to release its leases; those on objects it
created are gone with the objects when it has failed. -/
structure Releasing where
  leaseIds : List String
  held : List String

structure Plane (Digest : Type) where
  engine : EngineState Digest
  config : Config
  /-- What the cores of the daemon share; the store is the engine's. -/
  env : Env
  links : List Link := []
  registered : String → Option Nat := fun _ => none
  nextConn : Nat := 0
  /-- The object of each send, by link: its `SendCompletion`. -/
  oid : Nat → SendId → String := fun _ _ => ""
  writers : List Writer := []
  releasing : List Releasing := []

inductive Action (Digest : Type) where
  /-- A call of the dispatcher other than `send_object`. -/
  | verb (call : EngineState.Call Digest)
  | send (oid peer asId : String) (overwrite releaseAfter : Bool) (now : ℚ)
  | adopt (peer : String)
  | rdmaUp (conn : Nat)
  | deliver (conn : Nat) (now : ℚ) (message : Message) (payload : Bytes)
  | tick (conn : Nat) (now : ℚ)
  | committed (conn : Nat) (sendId : SendId)
  | drop (conn : Nat) (now : ℚ)
  /-- A writer thread has moved its payload. -/
  | written (position : Nat) (now : ℚ)
  /-- A writer thread raises. -/
  | failed (position : Nat) (now : ℚ)
  | snapshotDone (index : Nat)
  | restoreRun (index : Nat)
  | restoreRelease (index : Nat)

namespace Plane

variable {Digest : Type}

def store (plane : Plane Digest) : Store := plane.engine.store

def withStore (plane : Plane Digest) (store : Store) : Plane Digest :=
  { plane with engine := plane.engine.withStore store }

variable (plane : Plane Digest)

def link (conn : Nat) : Option Link :=
  KeyedTable.lookup Link.conn conn plane.links

def putLink (link : Link) : Plane Digest :=
  { plane with links := KeyedTable.update Link.conn link.conn (fun _ => link) plane.links }

def hub (link : Link) : Hub :=
  { peer := link.peer, conn := link.conn, rdmaReady := link.rdmaReady, core := link.core
    env := { plane.env with store := plane.store } }

/-- The sends whose machines the core has popped: their `on_finish` has run. -/
def popped (link : Link) (after : Core) : List SendId :=
  (link.core.senders.map SenderMachine.sendId).filter fun sendId => (after.sender sendId).isNone

def settle (link : Link) (after : Hub) : Plane Digest :=
  { (plane.putLink { link with core := after.core }).withStore
      (after.env.store.releaseLeases ((popped link after.core).map (plane.oid link.conn))) with
    env := after.env
    writers := plane.writers ++ after.spawned.filterMap fun write =>
      (after.core.sender write.sendId).map fun machine =>
        ⟨link.conn, machine, plane.oid link.conn write.sendId⟩ }

/-- `drop_link` -/
def dropLink (link : Link) (now : ℚ) : Plane Digest :=
  if link.alive = false then plane else
  let dead := { link with alive := false }
  let closed := { plane.putLink dead with
    registered := Function.update plane.registered link.peer none }
  closed.settle dead (reached (dropHub now (closed.hub dead)))

def serve (machine : Machine) (plane : Plane Digest) (call : EngineState.Call Digest) : Plane Digest :=
  match call with
  | .sendObject _ _ _ _ => plane
  | call =>
    match plane.engine.handle machine call with
    | .ok engine => { plane with engine := engine }
    | .error (_, engine) => { plane with engine := engine }

/-- `send_object`: the lease is taken first and given back when no send starts. -/
def sendObject (oid peer asId : String) (overwrite releaseAfter : Bool) (now : ℚ) : Plane Digest :=
  match plane.store.object oid with
  | none => plane
  | some record =>
    if releaseAfter then plane else
    match plane.store.acquireLeases [oid] with
    | .error (_, store) => plane.withStore store
    | .ok leased =>
      match ((plane.registered peer).bind plane.link).filter Link.alive with
      | none => plane.withStore (leased.releaseLeases [oid])
      | some link =>
        let named := { plane.withStore leased with
          oid := fun conn sendId =>
            if conn = link.conn ∧ sendId = link.core.seq + 1 then oid
            else plane.oid conn sendId }
        named.settle link (startSend now (if asId = "" then oid else asId)
          (leased.bytes record) overwrite record.info (named.hub link))

def adopt (peer : String) : Plane Digest :=
  if ((plane.registered peer).bind plane.link).isSome then plane
  else { plane with
    links := plane.links ++ [{ peer := peer, conn := plane.nextConn, core := { config := plane.config } }]
    registered := Function.update plane.registered peer (some plane.nextConn)
    nextConn := plane.nextConn + 1 }

/-- `RdmaWriterHook.run`, after an exception: the send is finished once more when it had
ended before, and then the link goes down. -/
def failWrite (position : Nat) (now : ℚ) : Plane Digest :=
  match plane.writers[position]? with
  | none => plane
  | some writer =>
    let taken := { plane with writers := plane.writers.eraseIdx position }
    match taken.link writer.conn with
    | none => taken
    | some link =>
      let run := finishSender now writer.machine .error (some "TRANSFER_ABORTED rdma")
        (taken.hub link)
      let finished := taken.settle link (reached run)
      let released :=
        if (link.core.sender writer.machine.sendId).isSome then finished
        else finished.withStore (finished.store.releaseLeases [writer.oid])
      match run, released.link writer.conn with
      | .ok _, some current => released.dropLink current now
      | _, _ => released

def onLink (conn : Nat) (move : Hub → CoreRun Hub) : Plane Digest :=
  match plane.link conn with
  | none => plane
  | some link => plane.settle link (reached (move (plane.hub link)))

def snapshotDone (digest : Bytes → Digest) (plane : Plane Digest) (index : Nat) : Plane Digest :=
  match plane.engine.snapshotJobs[index]? with
  | none => plane
  | some job => { plane with
      engine := { plane.engine with
        store := (snapshotJob digest plane.store job).2
        snapshotJobs := plane.engine.snapshotJobs.eraseIdx index } }

/-- The work of a restore; a failed one removes what it created. -/
def restoreRun [DecidableEq Digest] (digest : Bytes → Digest) (plane : Plane Digest) (index : Nat) :
    Plane Digest :=
  match plane.engine.restoreJobs[index]? with
  | none => plane
  | some job =>
    let ended := { plane with
      engine := { plane.engine with restoreJobs := plane.engine.restoreJobs.eraseIdx index } }
    match restoreBody digest plane.store job with
    | .ok restored => { ended.withStore restored with
        releasing := plane.releasing ++ [⟨job.targets, job.targets⟩] }
    | .error (_, left) => { ended.withStore (left.rollbackCreated job.created) with
        releasing := plane.releasing ++
          [⟨job.targets, job.targets.filter (· ∉ job.created)⟩] }

def restoreRelease (index : Nat) : Plane Digest :=
  match plane.releasing[index]? with
  | none => plane
  | some restore => { plane.withStore (plane.store.releaseLeases restore.leaseIds) with
      releasing := plane.releasing.eraseIdx index }

def step [DecidableEq Digest] (machine : Machine) (digest : Bytes → Digest) (plane : Plane Digest) :
    Action Digest → Plane Digest
  | .verb call => plane.serve machine call
  | .send oid peer asId overwrite releaseAfter now =>
    plane.sendObject oid peer asId overwrite releaseAfter now
  | .adopt peer => plane.adopt peer
  | .rdmaUp conn =>
    match plane.link conn with
    | none => plane
    | some link => plane.putLink { link with
        rdmaReady := true, core := { link.core with rdmaWriter := true } }
  | .deliver conn now message payload => plane.onLink conn (Peer.handle now message payload)
  | .tick conn now => plane.onLink conn (Peer.tick now)
  | .committed conn sendId => plane.onLink conn fun hub => .ok (commitDone sendId hub)
  | .drop conn now =>
    match plane.link conn with
    | none => plane
    | some link => plane.dropLink link now
  | .written position now =>
    match plane.writers[position]? with
    | none => plane
    | some writer => { plane with writers := plane.writers.eraseIdx position }.onLink writer.conn
        fun hub => .ok (rdmaWriteFinished now writer.machine.sendId hub)
  | .failed position now => plane.failWrite position now
  | .snapshotDone index => plane.snapshotDone digest index
  | .restoreRun index => plane.restoreRun digest index
  | .restoreRelease index => plane.restoreRelease index

def run [DecidableEq Digest] (machine : Machine) (digest : Bytes → Digest) (plane : Plane Digest)
    (actions : List (Action Digest)) : Plane Digest :=
  actions.foldl (step machine digest) plane

def boot (slab : ByteRanges.Memory) (allocator : SlabAllocator) (programs : List ProgramEntry)
    (config : Config) (quota : Int) : Plane Digest :=
  let store : Store := { slab := slab, allocator := allocator }
  { engine := { store := store, programs := programs }, config := config
    env := { store := store, quota := quota } }

/-! ### who holds a lease -/

/-- The objects of the unfinished sends of a link. -/
def sending (link : Link) : List String :=
  link.core.senders.map fun machine => plane.oid link.conn machine.sendId

/-- One entry for each lease that an unfinished job took and has not released. -/
def holders : List String :=
  plane.engine.snapshotJobs.flatMap SnapshotJob.leaseIds ++
    plane.engine.restoreJobs.flatMap RestoreJob.targets ++
    plane.releasing.flatMap Releasing.held ++ plane.links.flatMap plane.sending

end Plane

end Dataflow.LeasePlane
