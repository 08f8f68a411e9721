import Dataflow.KeyedTable
import Dataflow.SlabLedger
import Dataflow.StoreVerbs

/-!
The extents of one daemon's slab and everyone who takes and returns them: the verbs
of `service/store.py` on the dispatcher, the runs' transients, and the link readers,
probe threads and housekeeping of `service/peer/nm.py`. Sizes are the integers that
clients and peers send. A block of code under a lock is one step, and so is each
partial socket read of a chunk. A composite verb (run, snapshot, restore, send) is
the sequence of its calls to the store. The bytes are not kept, only who may write where.

The slab is the pinned one, whose views have exactly the length asked for. An RTS that
the in-flight quota refuses never reaches the store, and an RTS for a completed transfer
is only acknowledged; neither is a request here.
-/

namespace Dataflow.SlabPlane

open ByteRanges Service KeyedTable

structure Resident where
  id : String
  sizeBytes : Int
  extent : Extent
  isProtected : Bool := false
  leaseRefs : Nat := 0
  version : Nat := 0
  deriving DecidableEq

/-- A receiver machine with its reservation. -/
structure Receiver where
  sendId : String
  destId : String
  /-- What the RTS asked for; read only when the extent is reserved. -/
  overwrite : Bool
  extent : Extent
  raddr : Bool
  expectBytes : Int
  nextSeq : Nat := 0
  received : Int := 0
  lastProgress : ℚ := 0
  committing : Bool := false
  deriving DecidableEq

/-- What a link's reader is doing between two lock-protected blocks. -/
inductive Reader where
  | idle
  /-- Filling the view of a chunk; `gotTotal` bytes of it have been read. -/
  | filling (sendId : String) (seq : Nat) (view : Range) (gotTotal : Nat)
  | draining (sendId : String) (seq : Nat)
  | dead
  deriving DecidableEq

structure Link where
  serial : Nat
  peer : String
  alive : Bool := true
  receivers : List Receiver := []
  bwprobeExt : Option Holding := none
  reader : Reader := .idle
  deriving DecidableEq

structure Commit where
  peer : String
  sendId : String
  destId : String
  overwrite : Bool
  sizeBytes : Int
  extent : Extent
  deriving DecidableEq

def Commit.key (commit : Commit) : String × String := (commit.peer, commit.sendId)

structure Token where
  count : Nat
  owner : String
  offset : Int
  deriving DecidableEq

structure Transient where
  token : Token
  holding : Holding
  deriving DecidableEq

/-- Scratch of a probe thread, a bench or a collective. -/
structure Scratch where
  handle : Nat
  holding : Holding
  deriving DecidableEq

structure Plane where
  peerName : String
  inactivity : ℚ
  allocator : SlabAllocator
  objects : List Resident := []
  links : List Link := []
  nextLink : Nat := 0
  /-- Commits on the dispatcher's queue or parked, in any order. -/
  commits : List Commit := []
  /-- Peer and send id of the commits that have adopted and not called back yet. -/
  landings : List (String × String) := []
  transients : List Transient := []
  scratch : List Scratch := []
  nextScratch : Nat := 0
  deriving DecidableEq

inductive Refusal where
  | error (code : ErrorCode) (id : String)
  | capacity (sizeBytes : Int)
  | nack (code : NackCode)
  /-- An exception that is not answered. -/
  | raised
  deriving DecidableEq

structure Reply where
  plane : Plane
  refusal : Option Refusal := none
  deriving DecidableEq

inductive Request where
  | put (id : String) (sizeBytes : Int)
  | release (id : String) (force : Bool)
  | wipe (scope : String) (force : Bool)
  | duplicate (src dst : String)
  | protect (id : String) (value : Bool)
  | acquireLeases (ids : List String)
  | releaseLeases (ids : List String)
  | rollbackCreated (ids : List String)
  | allocTransient (owner : String) (sizeBytes : Int)
  | freeTransient (token : Token)
  | allocScratch (nbytes : Int)
  | releaseScratch (handle : Nat)
  | rts (serial : Nat) (sendId destId : String) (nbytes : Int) (overwrite : Bool)
      (eager : Option Nat) (raddr : Bool) (now : ℚ)
  | chunk (serial : Nat) (sendId : String) (seq count : Nat)
  | fill (serial count : Nat)
  | landed (serial : Nat) (now : ℚ)
  | drained (serial : Nat) (now : ℚ)
  | done (serial : Nat) (sendId : String) (agrees : Bool) (now : ℚ)
  | eof (serial : Nat)
  | tick (serial : Nat) (now : ℚ)
  | commit (index : Nat)
  | landing (index : Nat)
  | connect (peer : String)
  | drop (serial : Nat)
  | probeReq (serial : Nat) (nbytes : Int)
  | probeDone (serial : Nat)
  deriving DecidableEq

namespace Plane

variable (plane : Plane)

def object (id : String) : Option Resident :=
  lookup Resident.id id plane.objects

def link (serial : Nat) : Option Link :=
  lookup Link.serial serial plane.links

def updateObject (id : String) (change : Resident → Resident) : Plane :=
  { plane with objects := update Resident.id id change plane.objects }

def putLink (link : Link) : Plane :=
  { plane with links := update Link.serial link.serial (fun _ => link) plane.links }

def refuse (refusal : Refusal) : Reply := ⟨plane, some refusal⟩

/-! ### the verbs of the store -/

def carve (id : String) (sizeBytes : Int) (version : Nat) : Reply :=
  match plane.allocator.alloc sizeBytes with
  | none => plane.refuse (.capacity sizeBytes)
  | some (extent, allocator) =>
    ⟨{ plane with
      allocator := allocator
      objects := plane.objects ++
        [{ id := id, sizeBytes := sizeBytes, extent := extent, version := version }] }, none⟩

def put (id : String) (sizeBytes : Int) : Reply :=
  match plane.object id with
  | none => plane.carve id sizeBytes 1
  | some record =>
    if 0 < record.leaseRefs then plane.refuse (.error .leased id)
    else if record.sizeBytes ≠ sizeBytes then plane.refuse (.error .bindingMismatch id)
    else ⟨plane.updateObject id fun record => { record with version := record.version + 1 }, none⟩

def dropRecord (record : Resident) : Plane :=
  { plane with
    allocator := plane.allocator.release record.extent
    objects := remove Resident.id record.id plane.objects }

def release (id : String) (force : Bool) : Reply :=
  match plane.object id with
  | none => ⟨plane, none⟩
  | some record =>
    if record.isProtected = true ∧ force = false then plane.refuse (.error .isProtected id)
    else if 0 < record.leaseRefs then plane.refuse (.error .leased id)
    else ⟨plane.dropRecord record, none⟩

def wipeLoop (force : Bool) : List String → Plane → Reply
  | [], plane => ⟨{ plane with
      allocator := { plane.allocator with peakBytes := plane.allocator.usedBytes } }, none⟩
  | id :: rest, plane =>
    match plane.object id with
    | none => wipeLoop force rest plane
    | some record =>
      if record.isProtected = true ∧ force = false then wipeLoop force rest plane
      else if 0 < record.leaseRefs then plane.refuse (.error .leased id)
      else wipeLoop force rest (plane.dropRecord record)

def wipe (scope : String) (force : Bool) : Reply :=
  if scope = "backing" ∨ scope = "all" then
    wipeLoop force ((plane.objects.map Resident.id).insertionSort (· ≤ ·)) plane
  else if scope = "fast" then wipeLoop force [] plane
  else plane.refuse (.error .badRequest scope)

def duplicate (src dst : String) : Reply :=
  match plane.object src with
  | none => plane.refuse (.error .unknownObject src)
  | some source =>
    match plane.object dst with
    | some _ => plane.refuse (.error .badRequest dst)
    | none => plane.carve dst source.sizeBytes 0

def protect (id : String) (value : Bool) : Reply :=
  match plane.object id with
  | none => plane.refuse (.error .unknownObject id)
  | some _ => ⟨plane.updateObject id fun record => { record with isProtected := value }, none⟩

def lease (change : Nat → Nat) (plane : Plane) (id : String) : Plane :=
  plane.updateObject id fun record => { record with leaseRefs := change record.leaseRefs }

def acquireLeases (ids : List String) : Reply :=
  match ids.find? fun id => (plane.object id).isNone with
  | some id => plane.refuse (.error .unknownObject id)
  | none => ⟨ids.foldl (lease (· + 1)) plane, none⟩

def releaseLeases (ids : List String) : Reply :=
  ⟨ids.foldl (lease (· - 1)) plane, none⟩

def rollback (id : String) : Plane :=
  match plane.object id with
  | none => plane
  | some record => plane.dropRecord record

def rollbackCreated (ids : List String) : Reply :=
  ⟨ids.foldl rollback plane, none⟩

/-- A token that is taken already is written over, as in a dict. -/
def allocTransient (owner : String) (sizeBytes : Int) : Reply :=
  match plane.allocator.alloc sizeBytes with
  | none => plane.refuse (.capacity sizeBytes)
  | some (extent, allocator) =>
    let token : Token := ⟨plane.transients.length, owner, extent.offset⟩
    let others := remove Transient.token token plane.transients
    ⟨{ plane with
      allocator := allocator
      transients := others ++ [⟨token, ⟨sizeBytes, extent⟩⟩] }, none⟩

def freeTransient (token : Token) : Reply :=
  match lookup Transient.token token plane.transients with
  | none => plane.refuse .raised
  | some freed =>
    ⟨{ plane with
      allocator := plane.allocator.release freed.holding.extent
      transients := remove Transient.token token plane.transients }, none⟩

def allocScratch (nbytes : Int) : Reply :=
  match plane.allocator.alloc nbytes with
  | none => plane.refuse (.capacity nbytes)
  | some (extent, allocator) =>
    ⟨{ plane with
      allocator := allocator
      scratch := plane.scratch ++ [⟨plane.nextScratch, ⟨nbytes, extent⟩⟩]
      nextScratch := plane.nextScratch + 1 }, none⟩

def releaseScratch (handle : Nat) : Reply :=
  match lookup Scratch.handle handle plane.scratch with
  | none => ⟨plane, none⟩
  | some freed =>
    ⟨{ plane with
      allocator := plane.allocator.release freed.holding.extent
      scratch := remove Scratch.handle handle plane.scratch }, none⟩

/-! ### inbound transfers -/

def receiver (link : Link) (sendId : String) : Option Receiver :=
  lookup Receiver.sendId sendId link.receivers

def abortReceiver (link : Link) (machine : Receiver) : Plane :=
  let freed : Plane := { plane with allocator := plane.allocator.release machine.extent }
  freed.putLink
    { link with receivers := remove Receiver.sendId machine.sendId link.receivers }

/-- The machine is marked and its commit goes to the dispatcher. -/
def finishCommit (link : Link) (machine : Receiver) (now : ℚ) : Plane :=
  let queued : Plane := { plane with
    commits := plane.commits ++ [{
      peer := link.peer, sendId := machine.sendId, destId := machine.destId
      overwrite := machine.overwrite, sizeBytes := machine.expectBytes
      extent := machine.extent }] }
  queued.putLink
    { link with
      receivers := update Receiver.sendId machine.sendId
        (fun _ => { machine with committing := true, lastProgress := now }) link.receivers }

/-- The refusal of the store, read off the object under the name. -/
def collision (plane : Plane) (destId : String) (nbytes : Int) (overwrite : Bool) :
    Option NackCode :=
  match plane.object destId with
  | none => none
  | some record =>
    if 0 < record.leaseRefs then some .busy
    else if overwrite = false then some .collision
    else if record.sizeBytes ≠ nbytes then some .collision
    else none

/-- An eager RTS carries its bytes: `eager` is how many. A view of negative length and a
payload of another length raise, after the extent has been taken and before any machine
knows of it; the reader thread ends there. -/
def handleRts (link : Link) (sendId destId : String) (nbytes : Int)
    (overwrite : Bool) (eager : Option Nat) (raddr : Bool) (now : ℚ) : Reply :=
  match receiver link sendId with
  | some _ => ⟨plane, none⟩
  | none =>
    match plane.collision destId nbytes overwrite with
    | some code => plane.refuse (.nack code)
    | none =>
      match plane.allocator.alloc nbytes with
      | none => plane.refuse (.capacity nbytes)
      | some (extent, allocator) =>
        let reserved : Plane := { plane with allocator := allocator }
        let machine : Receiver := {
          sendId := sendId, destId := destId, overwrite := overwrite, extent := extent
          raddr := raddr, expectBytes := nbytes, lastProgress := now }
        let opened : Link := { link with receivers := link.receivers ++ [machine] }
        if nbytes < 0 then (reserved.putLink { link with reader := .dead }).refuse .raised
        else
          match eager with
          | none => ⟨reserved.putLink opened, none⟩
          | some count =>
            if (count : Int) ≠ nbytes then
              (reserved.putLink { link with reader := .dead }).refuse .raised
            else ⟨(reserved.putLink opened).finishCommit opened machine now, none⟩

/-- The header of a chunk: the view is taken under the lock and filled outside it. -/
def beginChunk (link : Link) (sendId : String) (seq count : Nat) : Reply :=
  match receiver link sendId with
  | some machine =>
    if seq = machine.nextSeq ∧ machine.committing = false ∧ 0 < count ∧
        machine.received + count ≤ machine.expectBytes then
      let view : Range := ⟨machine.extent.offset + machine.received, count⟩
      ⟨plane.putLink { link with reader := .filling sendId seq view 0 }, none⟩
    else ⟨plane.putLink { link with reader := .draining sendId seq }, none⟩
  | none => ⟨plane.putLink { link with reader := .draining sendId seq }, none⟩

/-- The chunk reaches the machine, `count` bytes of it in the extent. -/
def handleChunk (link : Link) (sendId : String) (seq count : Nat) (now : ℚ) : Plane :=
  match receiver link sendId with
  | none => plane
  | some machine =>
    if seq ≠ machine.nextSeq then plane.abortReceiver link machine
    else plane.putLink { link with
      receivers := update Receiver.sendId sendId (fun _ => { machine with
        received := machine.received + count
        nextSeq := machine.nextSeq + 1
        lastProgress := now }) link.receivers }

def handleDone (link : Link) (sendId : String) (agrees : Bool) (now : ℚ) : Plane :=
  match receiver link sendId with
  | none => plane
  | some machine =>
    if machine.raddr = false ∧ (machine.received ≠ machine.expectBytes ∨ agrees = false) then
      plane.abortReceiver link machine
    else plane.finishCommit link machine now

def timedOut (machine : Receiver) (now : ℚ) : Bool :=
  !machine.committing && decide (plane.inactivity ≤ now - machine.lastProgress)

/-- Each reservation goes back in the order of the machines. -/
def releaseAll (machines : List Receiver) : Plane :=
  { plane with
    allocator := machines.foldl (fun allocator machine => allocator.release machine.extent)
      plane.allocator }

def tick (link : Link) (now : ℚ) : Plane :=
  (plane.releaseAll (link.receivers.filter (plane.timedOut · now))).putLink
    { link with receivers := link.receivers.filter fun machine => !plane.timedOut machine now }

/-- The probe's extent stays behind, and so does what the reader is doing. -/
def dropLink (link : Link) : Plane :=
  if link.alive then
    (plane.releaseAll link.receivers).putLink { link with alive := false, receivers := [] }
  else plane

def liveLink (peer : String) : Option Link :=
  plane.links.find? fun link => link.alive && decide (link.peer = peer)

/-- Two links to one peer: the one that the smaller name dialled stays. -/
def connect (peer : String) : Plane :=
  let adopt (plane : Plane) : Plane := { plane with
    links := plane.links ++ [{ serial := plane.nextLink, peer := peer }]
    nextLink := plane.nextLink + 1 }
  match plane.liveLink peer with
  | none => adopt plane
  | some old => if plane.peerName < peer then plane else adopt (plane.dropLink old)

def adoptInbound (index : Nat) (commit : Commit) : Reply :=
  let adopted : Resident :=
    { id := commit.destId, sizeBytes := commit.sizeBytes, extent := commit.extent, version := 1 }
  let served := { plane with
    commits := plane.commits.eraseIdx index
    landings := plane.landings ++ [commit.key] }
  match plane.object commit.destId with
  | none => ⟨{ served with objects := plane.objects ++ [adopted] }, none⟩
  | some old =>
    if 0 < old.leaseRefs then plane.refuse (.error .leased commit.destId)
    else ⟨{ served with
      allocator := plane.allocator.release old.extent
      objects := update Resident.id commit.destId (fun _ => { adopted with
        isProtected := old.isProtected, version := old.version + 1 }) plane.objects }, none⟩

/-- The callback of a commit goes to the link that has the peer's name by then. -/
def commitLanded (index : Nat) (key : String × String) : Plane :=
  let called := { plane with landings := plane.landings.eraseIdx index }
  match plane.liveLink key.1 with
  | none => called
  | some link => called.putLink { link with
      receivers := remove Receiver.sendId key.2 link.receivers }

/-! ### probes -/

/-- A request that comes before the last probe is done takes its place. -/
def probeReq (link : Link) (nbytes : Int) : Reply :=
  match plane.allocator.alloc nbytes with
  | none => plane.refuse (.capacity nbytes)
  | some (extent, allocator) =>
    let taken : Plane := { plane with allocator := allocator }
    ⟨taken.putLink { link with bwprobeExt := some ⟨nbytes, extent⟩ }, none⟩

def probeDone (link : Link) : Plane :=
  match link.bwprobeExt with
  | none => plane
  | some holding =>
    let freed : Plane := { plane with allocator := plane.allocator.release holding.extent }
    freed.putLink { link with bwprobeExt := none }

/-! ### steps -/

/-- A step of the link's reader between two messages. -/
def onIdle (serial : Nat) (step : Link → Reply) : Reply :=
  match plane.link serial with
  | none => ⟨plane, none⟩
  | some link => if link.reader = .idle then step link else ⟨plane, none⟩

def fill (link : Link) (count : Nat) : Plane :=
  match link.reader with
  | .filling sendId seq view gotTotal =>
    if (gotTotal + count : Int) ≤ view.size then
      plane.putLink { link with reader := .filling sendId seq view (gotTotal + count) }
    else plane
  | _ => plane

def landed (link : Link) (now : ℚ) : Plane :=
  match link.reader with
  | .filling sendId seq view gotTotal =>
    if (gotTotal : Int) = view.size then
      let freed := { link with reader := .idle }
      (plane.putLink freed).handleChunk freed sendId seq gotTotal now
    else plane
  | _ => plane

def drained (link : Link) (now : ℚ) : Plane :=
  match link.reader with
  | .draining sendId seq =>
    let freed := { link with reader := .idle }
    (plane.putLink freed).handleChunk freed sendId seq 0 now
  | _ => plane

/-- The reader finds the socket closed: it drops the link and ends. -/
def eof (link : Link) : Plane :=
  let ended := { link with reader := .dead }
  (plane.putLink ended).dropLink ended

def onLink (serial : Nat) (step : Link → Plane) : Reply :=
  match plane.link serial with
  | none => ⟨plane, none⟩
  | some link => ⟨step link, none⟩

def step : Request → Reply
  | .put id sizeBytes => plane.put id sizeBytes
  | .release id force => plane.release id force
  | .wipe scope force => plane.wipe scope force
  | .duplicate src dst => plane.duplicate src dst
  | .protect id value => plane.protect id value
  | .acquireLeases ids => plane.acquireLeases ids
  | .releaseLeases ids => plane.releaseLeases ids
  | .rollbackCreated ids => plane.rollbackCreated ids
  | .allocTransient owner sizeBytes => plane.allocTransient owner sizeBytes
  | .freeTransient token => plane.freeTransient token
  | .allocScratch nbytes => plane.allocScratch nbytes
  | .releaseScratch handle => plane.releaseScratch handle
  | .rts serial sendId destId nbytes overwrite eager raddr now =>
    plane.onIdle serial fun link =>
      plane.handleRts link sendId destId nbytes overwrite eager raddr now
  | .chunk serial sendId seq count =>
    plane.onIdle serial fun link => plane.beginChunk link sendId seq count
  | .fill serial count => plane.onLink serial fun link => plane.fill link count
  | .landed serial now => plane.onLink serial fun link => plane.landed link now
  | .drained serial now => plane.onLink serial fun link => plane.drained link now
  | .done serial sendId agrees now =>
    plane.onIdle serial fun link => ⟨plane.handleDone link sendId agrees now, none⟩
  | .eof serial => plane.onLink serial plane.eof
  | .tick serial now => plane.onLink serial fun link => plane.tick link now
  | .commit index =>
    match plane.commits[index]? with
    | none => ⟨plane, none⟩
    | some commit => plane.adoptInbound index commit
  | .landing index =>
    match plane.landings[index]? with
    | none => ⟨plane, none⟩
    | some key => ⟨plane.commitLanded index key, none⟩
  | .connect peer => ⟨plane.connect peer, none⟩
  | .drop serial => plane.onLink serial plane.dropLink
  | .probeReq serial nbytes => plane.onIdle serial fun link => plane.probeReq link nbytes
  | .probeDone serial => plane.onIdle serial fun link => ⟨plane.probeDone link, none⟩

def run (requests : List Request) : Plane :=
  requests.foldl (fun plane request => (plane.step request).plane) plane

def boot (peerName : String) (inactivity : ℚ) (capacity : Int) : Plane :=
  { peerName := peerName, inactivity := inactivity
    allocator := { capacity := capacity, free := [⟨0, capacity⟩] } }

/-! ### who holds what -/

def heldByLink (link : Link) : List Holding :=
  (link.receivers.filter fun machine => !machine.committing).map
    (fun machine => ⟨machine.expectBytes, machine.extent⟩) ++ link.bwprobeExt.toList

/-- The reservation of a transfer that is committing is held by its commit. -/
def held : List Holding :=
  plane.objects.map (fun record => ⟨record.sizeBytes, record.extent⟩) ++
    (plane.links.flatMap heldByLink ++
      (plane.commits.map (fun commit => ⟨commit.sizeBytes, commit.extent⟩) ++
        (plane.transients.map Transient.holding ++ plane.scratch.map Scratch.holding)))

end Plane

end Dataflow.SlabPlane
