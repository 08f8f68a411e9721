import Dataflow.KeyedTable
import Dataflow.StatefulOutcome
import Dataflow.Store
import Mathlib.Data.Rat.Defs
import Mathlib.Algebra.Order.Ring.Rat

/-!
The transfer machines of `service/peer/core.py` with the receiver environment
of `service/peer/nm.py`. A `Hub` is what one link's core can reach: its own
machines, the daemon's store, the dispatcher's queue and the frames it has
sent. Time is an argument. Send ids are `s1`, `s2`, ... and are kept by their
number. The lists named as history record what the claims speak about: which
sends were started, which reservations were released and which were adopted.
-/

namespace Dataflow.Peer

open StatefulOutcome ByteRanges Service KeyedTable Function

abbrev SendId := Nat

def eagerMaxBytes : Nat := 64 * 1024
def nackBackoffBase : ℚ := 1 / 10
def nackBackoffTries : Nat := 5
def dedupRingSize : Nat := 256

inductive TransferState where
  | negotiating
  | moving
  | committing
  | done
  | error
  deriving DecidableEq

inductive Message where
  | rts (sendId : SendId) (destId : String) (bytes : Nat) (info : Info) (overwrite eager : Bool)
  | cts (sendId : SendId)
  | addr (sendId : SendId) (raddr rkey : Int)
  | nack (sendId : SendId) (code : NackCode)
  | chunk (sendId : SendId) (seq : Nat) (last : Bool)
  | done (sendId : SendId) (checksum : Nat)
  | doneAck (sendId : SendId)
  deriving DecidableEq

/-- A landing extent; its buffer is the first `length` bytes of the extent.
Reservations of a daemon are numbered. -/
structure Reservation where
  rid : Nat
  destId : String
  extent : Extent
  length : Nat
  raddr : Int := 0
  rkey : Int := 0
  landedZeroCopy : Bool := false
  deriving DecidableEq

structure SenderTicket where
  sendId : SendId
  destId : String
  state : TransferState := .negotiating
  error : Option String := none
  bytesDone : Nat := 0
  bytesTotal : Nat := 0
  deriving DecidableEq

structure SenderMachine where
  sendId : SendId
  destId : String
  payload : Bytes
  overwrite : Bool
  info : Info
  tries : Nat := 0
  nextRtsAt : ℚ := 0
  awaitingAckSince : Option ℚ := none
  lastProgress : ℚ := 0
  cleared : Bool := false
  doneResends : Nat := 0
  deriving DecidableEq

structure ReceiverMachine where
  sendId : SendId
  res : Reservation
  info : Info
  expectBytes : Nat
  nextSeq : Nat := 0
  received : Nat := 0
  lastProgress : ℚ := 0
  committing : Bool := false
  deriving DecidableEq

/-- `chunk_bytes`, `inactivity_s` and the payload checksum. -/
structure Config where
  chunkBytes : Nat
  chunked : 0 < chunkBytes
  inactivity : ℚ
  checksum : Bytes → Nat

/-- Chunks of four bytes, for small runs. -/
def Config.small (inactivity : ℚ) : Config where
  chunkBytes := 4
  chunked := by decide
  inactivity := inactivity
  checksum := List.length

/-- History: a send as it was started. -/
structure Start where
  sendId : SendId
  destId : String
  payload : Bytes
  deriving DecidableEq

structure Core where
  config : Config
  senders : List SenderMachine := []
  receivers : List ReceiverMachine := []
  destQueues : String → List SendId := fun _ => []
  /-- The dedup ring, oldest first. -/
  completed : List SendId := []
  seq : Nat := 0
  rdmaWriter : Bool := false
  /-- The tickets are the caller's: they outlive their machines. -/
  tickets : List SenderTicket := []
  /-- History. -/
  starts : List Start := []
  /-- History: what has left the ring. -/
  forgotten : List SendId := []

/-- A `peer_commit_inbound` call in the dispatcher's queue. -/
structure Commit where
  res : Reservation
  info : Info
  sendId : SendId
  fromPeer : String
  conn : Nat
  deriving DecidableEq

/-- History: an executed commit with the bytes it made visible. -/
structure Adoption where
  rid : Nat
  destId : String
  sendId : SendId
  fromPeer : String
  conn : Nat
  bytes : Bytes
  deriving DecidableEq

/-- What the cores of a daemon share. -/
structure Env where
  store : Store
  fifo : List Commit := []
  inflight : String → Int := fun _ => 0
  quota : Int
  slabBase : Int := 0
  rkey : Int := 0
  /-- History. -/
  nextRid : Nat := 0
  /-- History: reservations given back to the allocator. -/
  releases : List Nat := []
  /-- History. -/
  adoptions : List Adoption := []

/-- A writer thread moving a payload off the socket. -/
structure RdmaWrite where
  sendId : SendId
  raddr : Int
  payload : Bytes
  deriving DecidableEq

structure Hub where
  peer : String
  conn : Nat
  rdmaReady : Bool := false
  core : Core
  env : Env
  out : List (Message × Bytes) := []
  spawned : List RdmaWrite := []

inductive PeerError where
  | keyError (sendId : SendId)
  | valueError
  deriving DecidableEq

/-- Core code: the hub it leaves, also when it raises. -/
abbrev CoreRun := Outcome PeerError Hub

namespace Hub

def send (hub : Hub) (message : Message) (payload : Bytes := []) : Hub :=
  { hub with out := hub.out ++ [(message, payload)] }

def setCore (hub : Hub) (core : Core) : Hub := { hub with core := core }

end Hub

namespace Core

def sender (core : Core) (sendId : SendId) : Option SenderMachine :=
  lookup SenderMachine.sendId sendId core.senders

def receiver (core : Core) (sendId : SendId) : Option ReceiverMachine :=
  lookup ReceiverMachine.sendId sendId core.receivers

def setSender (core : Core) (machine : SenderMachine) : Core :=
  { core with
    senders := update SenderMachine.sendId machine.sendId (fun _ => machine) core.senders }

def setReceiver (core : Core) (machine : ReceiverMachine) : Core :=
  { core with
    receivers :=
      update ReceiverMachine.sendId machine.sendId (fun _ => machine) core.receivers }

def popReceiver (core : Core) (sendId : SendId) : Core :=
  { core with receivers := remove ReceiverMachine.sendId sendId core.receivers }

def setTicket (core : Core) (sendId : SendId) (change : SenderTicket → SenderTicket) : Core :=
  { core with tickets := update SenderTicket.sendId sendId change core.tickets }

end Core

/-! ### sender side -/

variable (now : ℚ)

def openSend (machine : SenderMachine) (hub : Hub) : Hub :=
  let eager := decide (machine.payload.length ≤ eagerMaxBytes)
  let message := .rts machine.sendId machine.destId machine.payload.length machine.info
    machine.overwrite eager
  if eager then
    (hub.setCore (hub.core.setSender
      { machine with lastProgress := now, awaitingAckSince := some now })).send
        message machine.payload
  else (hub.setCore (hub.core.setSender { machine with lastProgress := now })).send message

def startSend (destId : String) (payload : Bytes) (overwrite : Bool) (info : Info)
    (hub : Hub) : Hub :=
  let sendId := hub.core.seq + 1
  let machine : SenderMachine :=
    { sendId := sendId, destId := destId, payload := payload, overwrite := overwrite, info := info
      lastProgress := now }
  let queue := hub.core.destQueues destId ++ [sendId]
  let started := hub.setCore { hub.core with
    seq := sendId
    senders := hub.core.senders ++ [machine]
    destQueues := update hub.core.destQueues destId queue
    tickets := hub.core.tickets ++
      [{ sendId := sendId, destId := destId, bytesTotal := payload.length }]
    starts := hub.core.starts ++ [⟨sendId, destId, payload⟩] }
  if queue.length = 1 then openSend now machine started else started

/-- The next send to the destination opens; a queued id without a machine raises. -/
def finishSender (machine : SenderMachine) (state : TransferState)
    (error : Option String) (hub : Hub) : CoreRun Hub :=
  let core := hub.core.setTicket machine.sendId fun ticket =>
    { ticket with state := state, error := error }
  let popped := { core with
    senders := remove SenderMachine.sendId machine.sendId core.senders }
  match hub.core.destQueues machine.destId with
  | head :: rest =>
    if head = machine.sendId then
      let shortened := hub.setCore { popped with
        destQueues := update hub.core.destQueues machine.destId rest }
      match rest with
      | [] => .ok shortened
      | next :: _ =>
        match shortened.core.sender next with
        | none => .error (.keyError next, shortened)
        | some waiting => .ok (openSend now waiting shortened)
    else .ok (hub.setCore popped)
  | [] => .ok (hub.setCore popped)

/-- The frames of a payload: its chunks, in order. An empty payload is one empty chunk. -/
def chunkFrames (chunkBytes : Nat) (sendId : SendId) (payload : Bytes) : List (Message × Bytes) :=
  if payload = [] then [(.chunk sendId 0 true, [])] else
  (List.range ((payload.length + chunkBytes - 1) / chunkBytes)).map fun seq =>
    (.chunk sendId seq (decide (payload.length ≤ (seq + 1) * chunkBytes)),
      (payload.drop (seq * chunkBytes)).take chunkBytes)

def handleClearance (machine : SenderMachine) (hub : Hub) : Hub :=
  let config := hub.core.config
  let core := (hub.core.setSender { machine with
    cleared := true, awaitingAckSince := some now, lastProgress := now }).setTicket machine.sendId
      fun ticket => { ticket with bytesDone := machine.payload.length, state := .committing }
  { hub with
    core := core
    out := hub.out ++ chunkFrames config.chunkBytes machine.sendId machine.payload ++
      [(.done machine.sendId (config.checksum machine.payload), [])] }

/-- DONE of a transfer that a writer thread has moved: the checksum is 0. -/
def rdmaWriteFinished (sendId : SendId) (hub : Hub) : Hub :=
  let core := hub.core.setTicket sendId fun ticket =>
    { ticket with bytesDone := ticket.bytesTotal, state := .committing }
  let waiting := match core.sender sendId with
    | none => core
    | some machine => core.setSender { machine with awaitingAckSince := some now, lastProgress := now }
  (hub.setCore waiting).send (.done sendId 0)

def handleNack (machine : SenderMachine) (code : NackCode) (hub : Hub) : CoreRun Hub :=
  if code = .collision then finishSender now machine .error (some "NACK COLLISION") hub else
  let tried := { machine with tries := machine.tries + 1 }
  let counted := hub.setCore (hub.core.setSender tried)
  if nackBackoffTries ≤ tried.tries then
    finishSender now tried .error (some "TRANSFER_ABORTED after NACK") counted
  else .ok (hub.setCore (hub.core.setSender { tried with
    nextRtsAt := now + nackBackoffBase * 2 ^ (tried.tries - 1), lastProgress := now }))

/-! ### the receiver environment -/

/-- `try_reserve`: the peer's quota, then the store. -/
def tryReserve (destId : String) (nbytes : Nat) (overwrite : Bool) (hub : Hub) :
    Except NackCode (Reservation × Env) :=
  let env := hub.env
  let held := env.inflight hub.peer
  if env.quota < held + nbytes then .error .capacity else
  match env.store.reserveInbound destId nbytes overwrite with
  | .error code => .error code
  | .ok (extent, store) =>
    let res : Reservation :=
      { rid := env.nextRid, destId := destId, extent := extent, length := nbytes
        raddr := if hub.rdmaReady then env.slabBase + extent.offset else 0
        rkey := if hub.rdmaReady then env.rkey else 0 }
    .ok (res, { env with
      store := store
      inflight := update env.inflight hub.peer (held + nbytes)
      nextRid := env.nextRid + 1 })

/-- `release` -/
def Env.release (peer : String) (res : Reservation) (env : Env) : Env :=
  { env with
    store := env.store.releaseInbound res.extent
    inflight := update env.inflight peer (max 0 (env.inflight peer - res.length))
    releases := env.releases ++ [res.rid] }

/-- `commit`: the dispatcher will run it. -/
def queueCommit (machine : ReceiverMachine) (hub : Hub) : Hub :=
  { hub with
    env := { hub.env with
      fifo := hub.env.fifo ++
        [{ res := machine.res, info := machine.info, sendId := machine.sendId
           fromPeer := hub.peer, conn := hub.conn }] } }

def Env.writeSlab (offset : Int) (data : Bytes) (env : Env) : Env :=
  { env with store := { env.store with slab := write env.store.slab offset data } }

def Env.buffer (res : Reservation) (env : Env) : Bytes :=
  read env.store.slab res.extent.offset res.length

/-! ### receiver side -/

def abortReceiver (machine : ReceiverMachine) (hub : Hub) : Hub :=
  { hub with
    env := hub.env.release hub.peer machine.res
    core := hub.core.popReceiver machine.sendId }

def finishCommit (machine : ReceiverMachine) (hub : Hub) : Hub :=
  let committing := { machine with committing := true, lastProgress := now }
  queueCommit committing (hub.setCore (hub.core.setReceiver committing))

def rememberCompleted (sendId : SendId) (core : Core) : Core :=
  let ring := if sendId ∈ core.completed then core.completed else core.completed ++ [sendId]
  let excess := ring.length - dedupRingSize
  { core with completed := ring.drop excess, forgotten := core.forgotten ++ ring.take excess }

def commitDone (sendId : SendId) (hub : Hub) : Hub :=
  match hub.core.receiver sendId with
  | none => hub
  | some _ =>
    (hub.setCore (rememberCompleted sendId (hub.core.popReceiver sendId))).send (.doneAck sendId)

def handleRts (sendId : SendId) (destId : String) (bytes : Nat) (info : Info)
    (overwrite eager : Bool) (payload : Bytes) (hub : Hub) : CoreRun Hub :=
  if sendId ∈ hub.core.completed then .ok (hub.send (.doneAck sendId))
  else if (hub.core.receiver sendId).isSome then .ok hub
  else match tryReserve destId bytes overwrite hub with
    | .error code => .ok (hub.send (.nack sendId code))
    | .ok (res, env) =>
      let reserved := { hub with env := env }
      let machine : ReceiverMachine :=
        { sendId := sendId, res := res, info := info, expectBytes := bytes, lastProgress := now }
      let opened (hub : Hub) := hub.setCore
        { hub.core with receivers := hub.core.receivers ++ [machine] }
      if eager then
        -- the slice assignment wants as many bytes as the buffer has
        if payload.length = res.length then
          .ok (finishCommit now machine (opened
            { reserved with env := env.writeSlab res.extent.offset payload }))
        else .error (.valueError, reserved)
      else if res.raddr ≠ 0 then
        .ok ((opened reserved).send (.addr sendId res.raddr res.rkey))
      else .ok ((opened reserved).send (.cts sendId))

/-- A chunk whose bytes the reader has landed, or one with its payload. -/
def handleChunk (sendId : SendId) (seq : Nat) (landed : Option Nat) (payload : Bytes)
    (hub : Hub) : CoreRun Hub :=
  match hub.core.receiver sendId with
  | none => .ok hub
  | some machine =>
    if seq ≠ machine.nextSeq then .ok (abortReceiver machine hub) else
    match landed with
    | some count =>
      .ok (hub.setCore (hub.core.setReceiver { machine with
        res := { machine.res with landedZeroCopy := true }
        received := machine.received + count
        nextSeq := machine.nextSeq + 1, lastProgress := now }))
    | none =>
      if machine.received + payload.length ≤ machine.res.length then
        .ok { hub with
          env := hub.env.writeSlab (machine.res.extent.offset + machine.received) payload
          core := hub.core.setReceiver { machine with
            received := machine.received + payload.length
            nextSeq := machine.nextSeq + 1, lastProgress := now } }
      else .error (.valueError, hub)

def handleDone (sendId : SendId) (checksum : Nat) (hub : Hub) : Hub :=
  if sendId ∈ hub.core.completed then hub.send (.doneAck sendId) else
  match hub.core.receiver sendId with
  | none => hub
  | some machine =>
    -- a remote write is trusted to have landed
    let counted := if machine.res.raddr ≠ 0
      then { machine with received := machine.expectBytes } else machine
    let current := hub.setCore (hub.core.setReceiver counted)
    if counted.received ≠ counted.expectBytes then abortReceiver counted current
    else if machine.res.raddr = 0 ∧
        hub.core.config.checksum (hub.env.buffer machine.res) ≠ checksum then
      abortReceiver counted current
    else finishCommit now counted current

/-- The link reader: the bytes of an expected chunk go straight into the extent;
of any other chunk only the header is delivered. -/
def landChunk (sendId : SendId) (seq : Nat) (payload : Bytes) (hub : Hub) : CoreRun Hub :=
  match hub.core.receiver sendId with
  | some machine =>
    if seq = machine.nextSeq ∧ machine.committing = false ∧
        machine.received + payload.length ≤ machine.expectBytes then
      handleChunk now sendId seq (some payload.length) [] { hub with
        env := hub.env.writeSlab (machine.res.extent.offset + machine.received) payload }
    else handleChunk now sendId seq none [] hub
  | none => handleChunk now sendId seq none [] hub

def handle (message : Message) (payload : Bytes) (hub : Hub) : CoreRun Hub :=
  match message with
  | .rts sendId destId bytes info overwrite eager =>
    handleRts now sendId destId bytes info overwrite eager payload hub
  | .chunk sendId seq _ =>
    if payload = [] then handleChunk now sendId seq none [] hub
    else landChunk now sendId seq payload hub
  | .done sendId checksum => .ok (handleDone now sendId checksum hub)
  | .cts sendId =>
    match hub.core.sender sendId with
    | some machine =>
      if machine.cleared then .ok hub else .ok (handleClearance now machine hub)
    | none => .ok hub
  | .addr sendId raddr _ =>
    match hub.core.sender sendId with
    | some machine =>
      if machine.cleared then .ok hub
      else if hub.core.rdmaWriter then
        let core := (hub.core.setSender
          { machine with cleared := true, lastProgress := now }).setTicket sendId
            fun ticket => { ticket with state := .moving }
        .ok { hub with
          core := core, spawned := hub.spawned ++ [⟨sendId, raddr, machine.payload⟩] }
      else .ok (handleClearance now machine hub)
    | none => .ok hub
  | .nack sendId code =>
    match hub.core.sender sendId with
    | some machine => handleNack now machine code hub
    | none => .ok hub
  | .doneAck sendId =>
    match hub.core.sender sendId with
    | some machine => finishSender now machine .done none hub
    | none => .ok hub

/-! ### time -/

def Core.ticketState (core : Core) (sendId : SendId) : Option TransferState :=
  (lookup SenderTicket.sendId sendId core.tickets).map (·.state)

def tickSender (hub : Hub) (sendId : SendId) : CoreRun Hub :=
  match hub.core.sender sendId with
  | none => .ok hub
  | some machine =>
    let state := hub.core.ticketState sendId
    let silent : Bool := match machine.awaitingAckSince with
      | some since => decide (hub.core.config.inactivity ≤ now - since)
      | none => false
    if machine.nextRtsAt ≠ 0 ∧ machine.nextRtsAt ≤ now ∧ machine.cleared = false then
      .ok (openSend now { machine with nextRtsAt := 0 } hub)
    else if silent ∧ state = some .committing then
      if 1 ≤ machine.doneResends then
        finishSender now machine .error (some "TRANSFER_ABORTED no DONE_ACK") hub
      else .ok ((hub.setCore (hub.core.setSender { machine with
          doneResends := machine.doneResends + 1, awaitingAckSince := some now })).send
        (.done sendId (hub.core.config.checksum machine.payload)))
    else if silent ∧ state = some .negotiating ∧ machine.nextRtsAt = 0 then
      finishSender now machine .error (some "TRANSFER_ABORTED inactivity") hub
    else if hub.core.config.inactivity ≤ now - machine.lastProgress ∧
        state = some .negotiating ∧ machine.nextRtsAt = 0 then
      finishSender now machine .error (some "TRANSFER_ABORTED inactivity") hub
    else .ok hub

/-- A queued commit may wait out a run; other transfers do not stay silent for long. -/
def tickReceiver (hub : Hub) (machine : ReceiverMachine) : Hub :=
  if machine.committing then hub
  else if hub.core.config.inactivity ≤ now - machine.lastProgress then abortReceiver machine hub
  else hub

def tick (hub : Hub) : CoreRun Hub := do
  let ticked ← (hub.core.senders.map (·.sendId)).foldlM (tickSender now) hub
  pure (ticked.core.receivers.foldl (tickReceiver now) ticked)

end Dataflow.Peer
