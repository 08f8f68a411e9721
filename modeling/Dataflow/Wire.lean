import Mathlib.Data.List.TakeWhile
import Mathlib.Logic.Equiv.List
import Mathlib.Algebra.Group.Nat.Defs

/-!
Framing on the wire. A control frame is one line of JSON; a frame that announces
`payload_bytes` is followed by that many raw bytes. `Conn.recv` reads frames from a
socket whose reads may end anywhere. The link reader of the peer plane is written on
its own: it starts from what `recv` had buffered and lands or drains the payload of a
CHUNK. Both keep one fact: buffer and unread stream together are what is still to come.

JSON is a parameter here: `Codec` is what the frames need of it.
-/

namespace Dataflow.Wire

open List

abbrev Bytes := List UInt8

def newline : UInt8 := 10

/-! ### messages -/

abbrev Message (Value : Type) := List (String × Value)

/-- How `recv` takes a popped `payload_bytes`. -/
inductive Size where
  | none
  | bytes (count : Nat)
  /-- Not a size: the payload buffer cannot be built. -/
  | bad
  deriving DecidableEq

/-- `json.dumps` and `json.loads` on objects, and integers as values. -/
structure Codec (Value : Type) where
  dumps : Message Value → Bytes
  /-- `none` where the text is no JSON object. -/
  loads : Bytes → Option (Message Value)
  ofNat : Nat → Value
  size : Value → Size
  size_pos : ∀ value, size value ≠ .bytes 0
  /-- The size after `int(..)`, as the link reader takes it. -/
  intSize : Value → Size

/-- Dictionaries come back from their text, which is a single line. -/
structure Codec.Lawful {Value : Type} (codec : Codec Value) : Prop where
  loads_dumps : ∀ message : Message Value, (message.map Prod.fst).Nodup →
    codec.loads (codec.dumps message) = some message
  single_line : ∀ message, newline ∉ codec.dumps message
  size_ofNat : ∀ count, 0 < count → codec.size (codec.ofNat count) = .bytes count
  intSize_ofNat : ∀ count, 0 < count → codec.intSize (codec.ofNat count) = .bytes count

variable {Value : Type} (codec : Codec Value)

def payloadKey : String := "payload_bytes"

structure Frame (Value : Type) where
  msg : Message Value
  payload : Option Bytes := none
  deriving DecidableEq

/-- `msg[key] = value` in a dictionary. -/
def setKey (key : String) (value : Value) (message : Message Value) : Message Value :=
  if key ∈ message.map Prod.fst then
    message.map fun entry => if entry.1 = key then (key, value) else entry
  else message ++ [(key, value)]

/-- `msg.pop("payload_bytes", 0)`: the size and the message without the key. -/
def popSize (size : Value → Size) (message : Message Value) : Size × Message Value :=
  (((message.lookup payloadKey).map size).getD .none,
   message.filter fun entry => entry.1 ≠ payloadKey)

/-- The bytes `Conn.send` writes. -/
def sent (frame : Frame Value) : Bytes :=
  match frame.payload with
  | none => codec.dumps frame.msg ++ [newline]
  | some payload =>
    codec.dumps (setKey payloadKey (codec.ofNat payload.length) frame.msg) ++ newline :: payload

/-! ### reading -/

/-- The unread stream and the sizes of the next reads; after the last of them a read takes as
much as it asks for. -/
structure Socket where
  stream : Bytes
  cuts : List Nat := []
  deriving DecidableEq

/-- `sock.recv(limit)`: some bytes, at most `limit`, and none at the end of the stream. -/
def Socket.recv (limit : Nat) (socket : Socket) : Bytes × Socket :=
  let count := match socket.cuts with
    | [] => limit
    | cut :: _ => max 1 (min cut limit)
  (socket.stream.take count, { stream := socket.stream.drop count, cuts := socket.cuts.tail })

structure Conn where
  socket : Socket
  rbuf : Bytes := []
  deriving DecidableEq

def Conn.pending (conn : Conn) : Bytes := conn.rbuf ++ conn.socket.stream

def lineLimit : Nat := 65536

def Conn.more (conn : Conn) : Conn :=
  { socket := (conn.socket.recv lineLimit).2, rbuf := conn.rbuf ++ (conn.socket.recv lineLimit).1 }

theorem Socket.recv_append (limit : Nat) (socket : Socket) :
    (socket.recv limit).1 ++ (socket.recv limit).2.stream = socket.stream :=
  take_append_drop _ _

theorem Socket.recv_eq_nil {limit : Nat} (positive : 0 < limit) {socket : Socket} :
    (socket.recv limit).1 = [] ↔ socket.stream = [] := by
  rw [Socket.recv, take_eq_nil_iff]
  refine ⟨fun nothing => nothing.resolve_left ?_, .inr⟩
  cases socket.cuts with
  | nil => exact positive.ne'
  | cons cut rest => simp only; omega

theorem Socket.recv_shorter {limit : Nat} {socket : Socket} (some_ : (socket.recv limit).1 ≠ []) :
    (socket.recv limit).2.stream.length < socket.stream.length := by
  have whole := congrArg length (socket.recv_append limit)
  have taken := length_pos_of_ne_nil some_
  rw [length_append] at whole
  omega

theorem Socket.recv_le {limit : Nat} (positive : 0 < limit) (socket : Socket) :
    (socket.recv limit).1.length ≤ limit := by
  rw [Socket.recv, length_take]
  cases socket.cuts with
  | nil => exact Nat.min_le_left ..
  | cons cut rest => simp only; omega

/-- The reads of a line: until the buffer has a newline or the stream has ended. -/
def Conn.fill (conn : Conn) : Conn :=
  if newline ∈ conn.rbuf then conn
  else if (conn.socket.recv lineLimit).1 = [] then conn
  else conn.more.fill
termination_by conn.socket.stream.length
decreasing_by
  rename_i _ some_
  exact Socket.recv_shorter some_

/-- `_read_line`; `none` is a clean end of the stream. At the end of the stream the buffer is
returned and kept. -/
def Conn.readLine (conn : Conn) : Option Bytes × Conn :=
  let conn := conn.fill
  if newline ∈ conn.rbuf then
    (some (conn.rbuf.takeWhile (· ≠ newline)),
      { conn with rbuf := (conn.rbuf.dropWhile (· ≠ newline)).tail })
  else if conn.rbuf = [] then (none, conn)
  else (some conn.rbuf, conn)

/-- Reads of at most `limit` bytes until `remaining` bytes are there. -/
def Socket.readFull (limit remaining : Nat) (socket : Socket) : Option Bytes × Socket :=
  if remaining = 0 then (some [], socket)
  else
    let got := socket.recv (max 1 (min limit remaining))
    if got.1 = [] then (none, got.2)
    else
      let later := Socket.readFull limit (remaining - got.1.length) got.2
      (later.1.map (got.1 ++ ·), later.2)
termination_by socket.stream.length
decreasing_by
  rename_i some_
  exact Socket.recv_shorter some_

inductive Fault where
  /-- `json.loads` raises, or the value is no object. -/
  | badMessage
  /-- The payload buffer cannot be built. -/
  | badSize
  | eofMidPayload
  deriving DecidableEq

/-- `_read_exact`, with reads of at most `limit` bytes. -/
def Conn.readExact (limit count : Nat) (conn : Conn) : Option Bytes × Conn :=
  let kept := conn.rbuf.take count
  let read := conn.socket.readFull limit (count - kept.length)
  (read.1.map (kept ++ ·), { socket := read.2, rbuf := conn.rbuf.drop count })

/-- What one call of `recv` gives. -/
inductive Received (Value : Type) where
  | frame (frame : Frame Value)
  | closed
  | fault (fault : Fault)
  deriving DecidableEq

def Conn.recv (conn : Conn) : Received Value × Conn :=
  match conn.readLine with
  | (none, conn) => (.closed, conn)
  | (some line, conn) =>
    match codec.loads line with
    | none => (.fault .badMessage, conn)
    | some message =>
      match popSize codec.size message with
      | (.none, msg) => (.frame { msg := msg }, conn)
      | (.bad, _) => (.fault .badSize, conn)
      | (.bytes count, msg) =>
        match conn.readExact count count with
        | (some payload, conn) => (.frame { msg := msg, payload := some payload }, conn)
        | (none, conn) => (.fault .eofMidPayload, conn)

/-- `take_buffered`. -/
def Conn.takeBuffered (conn : Conn) : Bytes × Conn := (conn.rbuf, { conn with rbuf := [] })

/-- `recv` called `count` times. -/
def Conn.recvs : Nat → Conn → List (Received Value) × Conn
  | 0, conn => ([], conn)
  | count + 1, conn =>
    let first := conn.recv codec
    let later := Conn.recvs count first.2
    (first.1 :: later.1, later.2)

/-- The loop of `_serve` with the frames it routes; `none` if it is still running. -/
def Conn.serve : Nat → Conn → Option (List (Frame Value))
  | 0, _ => none
  | fuel + 1, conn =>
    match conn.recv codec with
    | (.frame frame, conn) => (Conn.serve fuel conn).map (frame :: ·)
    | _ => some []

/-! ### the reader of a peer link -/

/-- What `reader_loop` does with a frame it has read. -/
inductive Event (Value : Type) where
  | handled (frame : Frame Value)
  /-- The bytes of a CHUNK went into the view of its reservation, or were thrown away. -/
  | chunk (frame : Frame Value) (landed : Bool)
  | dropped (why : String)
  /-- The reader thread dies of an exception. -/
  | raised
  deriving DecidableEq

def Event.frame : Event Value → Option (Frame Value)
  | .handled frame | .chunk frame _ => some frame
  | _ => none

/-- One turn of `reader_loop` on its own `buf`; the core says whether a CHUNK `lands`. -/
def Conn.readFrame (isChunk : Message Value → Bool) (lands : Bool) (conn : Conn) :
    Event Value × Conn :=
  let conn := conn.fill
  if newline ∈ conn.rbuf then
    let (line, conn) := conn.readLine
    match line.bind codec.loads with
    | none => (.dropped "bad frame", conn)
    | some message =>
      match popSize codec.intSize message with
      | (.none, msg) => (.handled { msg := msg }, conn)
      | (.bad, _) => (.raised, conn)
      | (.bytes count, msg) =>
        if isChunk msg then
          match conn.readExact (if lands then count else 2 ^ 20) count with
          | (some payload, conn) => (.chunk { msg := msg, payload := some payload } lands, conn)
          | (none, conn) => (.dropped (if lands then "eof mid-chunk" else "eof mid-drain"), conn)
        else
          match conn.readExact (2 ^ 22) count with
          | (some payload, conn) => (.handled { msg := msg, payload := some payload }, conn)
          | (none, conn) => (.dropped "eof mid-payload", conn)
  else (.dropped "eof", conn)

/-- `reader_loop`; `none` if it is still running. -/
def Conn.readerLoop (isChunk : Message Value → Bool) :
    (lands : Nat → Bool) → Nat → Conn → Option (List (Event Value))
  | _, 0, _ => none
  | lands, fuel + 1, conn =>
    match conn.readFrame codec isChunk (lands 0) with
    | (.dropped why, _) => some [.dropped why]
    | (.raised, _) => some [.raised]
    | (event, conn) => (Conn.readerLoop isChunk (fun turn => lands (turn + 1)) fuel conn).map (event :: ·)

/-! ### what is still to come decides -/

section Pending

variable {codec}

theorem fill_spec (conn : Conn) : conn.fill.pending = conn.pending ∧
    (newline ∈ conn.fill.rbuf ∨ conn.fill.socket.stream = []) := by
  fun_induction Conn.fill conn with
  | case1 conn found => exact ⟨rfl, .inl found⟩
  | case2 conn _ ended => exact ⟨rfl, .inr ((Socket.recv_eq_nil (by decide)).mp ended)⟩
  | case3 conn _ _ later =>
    refine ⟨later.1.trans ?_, later.2⟩
    rw [Conn.pending, Conn.more, append_assoc, Socket.recv_append, Conn.pending]

variable {conn : Conn}

theorem mem_fill : newline ∈ conn.fill.rbuf ↔ newline ∈ conn.pending := by
  obtain ⟨same, found | ended⟩ := fill_spec conn
  · rw [← same]
    exact ⟨fun _ => mem_append_left _ found, fun _ => found⟩
  · rw [← same, Conn.pending, ended, append_nil]

variable {pending rest : Bytes} {frame : Frame Value} {frames : List (Frame Value)}

theorem take_all (absent : newline ∉ pending) :
    pending.takeWhile (· ≠ newline) = pending :=
  takeWhile_eq_self_iff.mpr fun _ mem =>
    decide_eq_true (ne_of_mem_of_not_mem mem absent)

theorem take_line {line : Bytes} (clear : newline ∉ line) :
    (line ++ newline :: rest).takeWhile (· ≠ newline) = line ∧
    (line ++ newline :: rest).dropWhile (· ≠ newline) = newline :: rest := by
  have plain : ∀ byte ∈ line, decide (byte ≠ newline) = true :=
    fun byte mem => decide_eq_true (ne_of_mem_of_not_mem mem clear)
  rw [takeWhile_append_of_pos plain, dropWhile_append_of_pos plain]
  simp

theorem read_line_some (found : newline ∈ conn.pending) :
    conn.readLine.1 = some (conn.pending.takeWhile (· ≠ newline)) ∧
    conn.readLine.2.pending = (conn.pending.dropWhile (· ≠ newline)).tail := by
  have here := mem_fill.mpr found
  obtain ⟨line, rest, clear, split⟩ := eq_append_cons_of_mem here
  have whole : conn.pending = line ++ newline :: (rest ++ conn.fill.socket.stream) := by
    rw [← (fill_spec conn).1, Conn.pending, clear, append_assoc, cons_append]
  simp only [Conn.readLine, here, if_true, Conn.pending] at *
  rw [whole, clear, (take_line split).1, (take_line split).2, (take_line split).1,
    (take_line split).2]
  exact ⟨rfl, rfl⟩

theorem read_line_rest (none_ : newline ∉ conn.pending) :
    conn.readLine.1 = (if conn.pending = [] then none else some conn.pending) ∧
    conn.readLine.2.pending = conn.pending := by
  have absent := mt mem_fill.mp none_
  have ended := (fill_spec conn).2.resolve_left absent
  have whole : conn.fill.rbuf = conn.pending := by
    rw [← (fill_spec conn).1, Conn.pending, ended, append_nil]
  simp only [Conn.readLine, absent, if_false]
  split_ifs <;> simp_all [Conn.pending]

theorem read_full_spec (limit remaining : Nat) (socket : Socket) :
    (socket.readFull limit remaining).1 = (if remaining ≤ socket.stream.length then
      some (socket.stream.take remaining) else none) ∧
    (socket.readFull limit remaining).2.stream = socket.stream.drop remaining := by
  fun_induction Socket.readFull limit remaining socket with
  | case1 => simp
  | case2 remaining socket nonzero got ended =>
    have empty := (Socket.recv_eq_nil (by omega)).mp ended
    have after : got.2.stream = socket.stream.drop _ := rfl
    simp [empty, after, nonzero]
  | case3 remaining socket nonzero got some_ later ih =>
    have whole : got.1 ++ got.2.stream = socket.stream := socket.recv_append _
    have fits : got.1.length ≤ remaining :=
      (socket.recv_le (by omega)).trans (by omega : max 1 (min limit remaining) ≤ remaining)
    rw [← whole, drop_append, drop_of_length_le fits, ih.2, ih.1, length_append]
    refine ⟨?_, rfl⟩
    have same : remaining - got.1.length ≤ got.2.stream.length ↔
        remaining ≤ got.1.length + got.2.stream.length := by omega
    rw [take_append, take_of_length_le fits, apply_ite (Option.map _)]
    simp [same]

theorem read_exact_spec (limit count : Nat) (conn : Conn) :
    (conn.readExact limit count).1 = (if count ≤ conn.pending.length then
      some (conn.pending.take count) else none) ∧
    (conn.readExact limit count).2.pending = conn.pending.drop count := by
  have read := read_full_spec limit (count - (conn.rbuf.take count).length) conn.socket
  have left : count - (conn.rbuf.take count).length = count - conn.rbuf.length := by
    rw [length_take]
    omega
  rw [left] at read
  simp only [Conn.readExact, Conn.pending, left, read.1, read.2, take_append,
    drop_append, length_append, apply_ite (Option.map _), and_true]
  have same : count - conn.rbuf.length ≤ conn.socket.stream.length ↔
      count ≤ conn.rbuf.length + conn.socket.stream.length := by omega
  simp [same]

variable (codec)

/-- One call of `recv`, on the bytes that are still to come. -/
def next (pending : Bytes) : Received Value × Bytes :=
  if pending = [] then (.closed, [])
  else
    let rest := if newline ∈ pending then (pending.dropWhile (· ≠ newline)).tail else pending
    match codec.loads (pending.takeWhile (· ≠ newline)) with
    | none => (.fault .badMessage, rest)
    | some message =>
      match popSize codec.size message with
      | (.none, msg) => (.frame { msg := msg }, rest)
      | (.bad, _) => (.fault .badSize, rest)
      | (.bytes count, msg) =>
        if count ≤ rest.length then
          (.frame { msg := msg, payload := some (rest.take count) }, rest.drop count)
        else (.fault .eofMidPayload, rest.drop count)

theorem recv_eq_next (conn : Conn) :
    ((conn.recv codec).1, (conn.recv codec).2.pending) = next codec conn.pending := by
  by_cases empty : conn.pending = []
  · have absent : newline ∉ conn.pending := by simp [empty]
    obtain ⟨nothing, same⟩ := read_line_rest absent
    simp only [next, empty, if_true, Conn.recv]
    split <;> simp_all
  have line : conn.readLine.1 = some (conn.pending.takeWhile (· ≠ newline)) ∧
      conn.readLine.2.pending = if newline ∈ conn.pending
        then (conn.pending.dropWhile (· ≠ newline)).tail else conn.pending := by
    split_ifs with found
    · exact read_line_some found
    · obtain ⟨rest, same⟩ := read_line_rest found
      rw [take_all found, same, rest, if_neg empty]
      exact ⟨rfl, rfl⟩
  rcases read : conn.readLine with ⟨taken, after⟩
  obtain ⟨rfl, rest⟩ : taken = _ ∧ after.pending = _ := by rwa [read] at line
  simp only [Conn.recv, read, next, if_neg empty, ← rest]
  cases codec.loads (conn.pending.takeWhile (· ≠ newline)) with
  | none => rfl
  | some message =>
    rcases sized : popSize codec.size message with ⟨_ | count | _, msg⟩
    · simp only [sized]
    · obtain ⟨payload, left⟩ := read_exact_spec count count after
      rcases got : after.readExact count count with ⟨bytes, later⟩
      rw [got] at payload left
      simp only at payload left
      simp only [sized, got, payload, ← left]
      split_ifs <;> rfl
    · simp only [sized]

variable {codec}

/-! ### frames on the wire -/

/-- A dictionary without the size key, and no payload or one with bytes in it. -/
structure Frame.Plain (frame : Frame Value) : Prop where
  keys : (frame.msg.map Prod.fst).Nodup
  free : ∀ entry ∈ frame.msg, entry.1 ≠ payloadKey
  payload : frame.payload ≠ some []

theorem sent_parts (lawful : codec.Lawful) (plain : frame.Plain)
    {size : Value → Size} (sizes : ∀ count, 0 < count → size (codec.ofNat count) = .bytes count) :
    ∃ line message, sent codec frame = line ++ newline :: frame.payload.getD [] ∧ newline ∉ line ∧
      codec.loads line = some message ∧ popSize size message =
        ((frame.payload.map fun payload => Size.bytes payload.length).getD .none, frame.msg) := by
  have kept := filter_eq_self.mpr fun entry mem => decide_eq_true (plain.free entry mem)
  have absent : frame.msg.lookup payloadKey = none :=
    lookup_eq_none_iff.mpr fun entry mem => by simpa using (plain.free entry mem).symm
  rcases found : frame.payload with _ | payload
  · refine ⟨_, frame.msg, by simp only [sent, found]; rfl, lawful.single_line _,
      lawful.loads_dumps _ plain.keys, ?_⟩
    rw [popSize, absent, kept]
    rfl
  have bytes := length_pos_of_ne_nil fun empty =>
    plain.payload (found.trans (congrArg some empty))
  have unused : payloadKey ∉ frame.msg.map Prod.fst := by
    intro mem
    obtain ⟨entry, listed, same⟩ := mem_map.mp mem
    exact plain.free entry listed same
  have added : setKey payloadKey (codec.ofNat payload.length) frame.msg =
      frame.msg ++ [(payloadKey, codec.ofNat payload.length)] := if_neg unused
  refine ⟨_, _, by simp only [sent, found, added]; rfl, lawful.single_line _,
    lawful.loads_dumps _ ?_, ?_⟩
  · rw [map_append]
    exact plain.keys.append (nodup_singleton _) (disjoint_singleton.mpr unused)
  · rw [popSize, lookup_append, absent, filter_append, kept]
    simp [sizes _ bytes]

theorem next_sent (lawful : codec.Lawful) (plain : frame.Plain)
    (rest : Bytes) : next codec (sent codec frame ++ rest) = (.frame frame, rest) := by
  obtain ⟨line, message, text, clear, loads, popped⟩ := sent_parts lawful plain lawful.size_ofNat
  have whole : sent codec frame ++ rest = line ++ newline :: (frame.payload.getD [] ++ rest) := by
    rw [text, append_assoc, cons_append]
  rw [whole, next, if_neg (by simp)]
  simp only [take_line clear, loads, popped, tail_cons]
  obtain ⟨msg, _ | payload⟩ := frame <;> simp

theorem read_frame_sent (lawful : codec.Lawful) (isChunk : Message Value → Bool) (lands : Bool)
    (plain : frame.Plain)
    (pending : conn.pending = sent codec frame ++ rest) :
    (conn.readFrame codec isChunk lands).1.frame = some frame ∧
    (conn.readFrame codec isChunk lands).2.pending = rest := by
  obtain ⟨line, message, text, clear, loads, popped⟩ := sent_parts lawful plain lawful.intSize_ofNat
  have whole : conn.fill.pending = line ++ newline :: (frame.payload.getD [] ++ rest) := by
    rw [(fill_spec conn).1, pending, text, append_assoc, cons_append]
  have here : newline ∈ conn.fill.pending := by simp [whole]
  obtain ⟨taken, left⟩ := read_line_some here
  rw [whole, (take_line clear).1] at taken
  rw [whole, (take_line clear).2, tail_cons] at left
  have found := mem_fill.mpr ((fill_spec conn).1 ▸ here)
  simp only [Conn.readFrame, found, if_true, taken, Option.bind_some, loads, popped]
  obtain ⟨msg, _ | payload⟩ := frame
  · exact ⟨rfl, left⟩
  have body : ∀ limit, ∃ later, conn.fill.readLine.2.readExact limit payload.length =
      (some payload, later) ∧ later.pending = rest := by
    intro limit
    have read := read_exact_spec limit payload.length conn.fill.readLine.2
    rw [left] at read
    exact ⟨_, Prod.ext (by simpa using read.1) rfl, by simpa using read.2⟩
  simp only [Option.map_some, Option.getD_some]
  split_ifs
  all_goals
    obtain ⟨later, same, after⟩ := body _
    rw [same]
    exact ⟨rfl, after⟩

/-! ### the sequence of frames -/

theorem recvs_spec (lawful : codec.Lawful)
    (plain : ∀ frame ∈ frames, frame.Plain)
    (pending : conn.pending = frames.flatMap (sent codec) ++ rest) :
    (conn.recvs codec frames.length).1 = frames.map .frame ∧
    (conn.recvs codec frames.length).2.pending = rest := by
  induction frames generalizing conn with
  | nil => exact ⟨rfl, pending⟩
  | cons frame later ih =>
    have step := recv_eq_next codec conn
    rw [pending, flatMap_cons, append_assoc,
      next_sent lawful (plain frame mem_cons_self)] at step
    obtain ⟨got, left⟩ := Prod.ext_iff.mp step
    obtain ⟨frames, after⟩ := ih (forall_mem_cons.mp plain).2 left
    exact ⟨congrArg₂ cons got frames, after⟩

theorem reader_loop_spec (lawful : codec.Lawful)
    {isChunk : Message Value → Bool} {lands : Nat → Bool} (plain : ∀ frame ∈ frames, frame.Plain)
    (pending : conn.pending = frames.flatMap (sent codec)) :
    ∃ events, conn.readerLoop codec isChunk lands (frames.length + 1) =
      some (events ++ [.dropped "eof"]) ∧ events.map Event.frame = frames.map some := by
  induction frames generalizing conn lands with
  | nil =>
    have ended : newline ∉ conn.fill.rbuf := mt mem_fill.mp (by simp [pending])
    exact ⟨[], by simp [Conn.readerLoop, Conn.readFrame, ended], rfl⟩
  | cons frame later ih =>
    obtain ⟨read, left⟩ := read_frame_sent lawful isChunk (lands 0)
      (plain frame mem_cons_self) pending
    obtain ⟨events, loop, same⟩ := @ih _ (fun turn => lands (turn + 1))
      (forall_mem_cons.mp plain).2 left
    rcases turn : conn.readFrame codec isChunk (lands 0) with ⟨event, after⟩
    rw [turn] at read loop
    refine ⟨event :: events, ?_, congrArg₂ cons read same⟩
    rw [length_cons, Conn.readerLoop, turn]
    cases event with
    | handled | chunk => exact congrArg (Option.map _) loop
    | dropped | raised => cases read

def spelled (message : Message Nat) : List (List Nat × Nat) :=
  message.map fun entry => (entry.1.toList.map Char.toNat, entry.2)

def unspelled (entries : List (List Nat × Nat)) : Message Nat :=
  entries.map fun entry => (String.ofList (entry.1.map Char.ofNat), entry.2)

/-- Objects with numbers as values, each written as an opening brace, as many blanks as its
number and a closing brace. -/
def blankCodec : Codec Nat where
  dumps message := 123 :: replicate (Encodable.encode (spelled message)) 32 ++ [125]
  loads line :=
    if line = 123 :: replicate (line.length - 2) 32 ++ [125] then
      (Encodable.decode (line.length - 2)).map unspelled
    else none
  ofNat := id
  size value := if value = 0 then .none else .bytes value
  size_pos value := by split_ifs <;> simp_all
  intSize value := if value = 0 then .none else .bytes value

theorem blank_codec_lawful : blankCodec.Lawful where
  loads_dumps message _ := by
    have back : unspelled (spelled message) = message := by
      simp [unspelled, spelled, Function.comp_def, Char.ofNat_toNat]
    simp [blankCodec, back]
  single_line message mem := by
    simp [blankCodec, newline] at mem
  size_ofNat count positive := if_neg positive.ne'
  intSize_ofNat count positive := if_neg positive.ne'

def helloFrames : List (Frame Nat) :=
  [{ msg := [("kind", 1)] }, { msg := [("send_id", 2)], payload := some [7, newline] }]

variable (codec)

/-- A rest without a newline that reads as a frame without payload. -/
def Unfinished (pending : Bytes) : Prop :=
  pending ≠ [] ∧ newline ∉ pending ∧
    ∃ message, codec.loads pending = some message ∧ (popSize codec.size message).1 = .none

/-- What is left when no call takes bytes off the stream any more. -/
def leftover (pending : Bytes) : Bytes :=
  match next codec pending with
  | (.frame _, rest) => if rest.length < pending.length then leftover rest else pending
  | _ => pending
termination_by pending.length

/-- Frames taken one after the other, each off bytes of its own. -/
inductive Taken : Bytes → List (Frame Value) → Bytes → Prop
  | nil (pending : Bytes) : Taken pending [] pending
  | cons {piece rest left : Bytes} {frame : Frame Value} {frames : List (Frame Value)} :
      piece ≠ [] → next codec (piece ++ rest) = (.frame frame, rest) → Taken rest frames left →
      Taken (piece ++ rest) (frame :: frames) left

variable {codec}

theorem unfinished_next (unfinished : Unfinished codec pending) :
    ∃ frame, next codec pending = (.frame frame, pending) := by
  obtain ⟨some_, absent, message, loads, size⟩ := unfinished
  rcases popped : popSize codec.size message with ⟨_ | count | _, msg⟩ <;> rw [popped] at size
  · exact ⟨{ msg := msg }, by
      simp only [next, if_neg some_, take_all absent, loads, popped, if_neg absent]⟩
  · cases size
  · cases size

theorem next_takes
    (got : next codec pending = (.frame frame, rest)) (finished : ¬ Unfinished codec pending) :
    ∃ piece ≠ [], pending = piece ++ rest := by
  have some_ : pending ≠ [] := by
    rintro rfl
    simp [next] at got
  -- after the line: bytes are gone, or there was no newline and all of them are still there
  obtain ⟨after, later, here⟩ : ∃ after, (∃ line, pending = line ++ after ∧
      (line = [] → newline ∉ pending)) ∧ after = if newline ∈ pending
        then (pending.dropWhile (· ≠ newline)).tail else pending := by
    refine ⟨_, ?_, rfl⟩
    split_ifs with found
    · obtain ⟨line, left, whole, clear⟩ := eq_append_cons_of_mem found
      refine ⟨line ++ [newline], ?_, by simp⟩
      rw [whole, (take_line clear).2]
      simp
    · exact ⟨[], rfl, fun _ => found⟩
  obtain ⟨line, whole, unterminated⟩ := later
  simp only [next, if_neg some_, ← here] at got
  cases loads : codec.loads (pending.takeWhile (· ≠ newline)) with
  | none =>
    rw [loads] at got
    cases got
  | some message =>
    rcases popped : popSize codec.size message with ⟨_ | count | _, msg⟩
    · simp only [loads, popped, Prod.mk.injEq] at got
      refine ⟨line, ?_, got.2 ▸ whole⟩
      rintro rfl
      have absent := unterminated rfl
      exact finished ⟨some_, absent, message, take_all absent ▸ loads, by rw [popped]⟩
    · simp only [loads, popped] at got
      split_ifs at got with fits
      · have positive : count ≠ 0 := by
          rintro rfl
          cases found : message.lookup payloadKey with
          | none => simp [popSize, found] at popped
          | some value =>
            simp only [popSize, found, Option.map_some, Option.getD_some, Prod.mk.injEq] at popped
            exact codec.size_pos value popped.1
        simp only [Prod.mk.injEq] at got
        refine ⟨line ++ after.take count, ?_, ?_⟩
        · intro empty
          have none_ := (append_eq_nil_iff.mp empty).2
          rcases take_eq_nil_iff.mp none_ with zero | gone
          · exact positive zero
          · exact some_ (by rw [whole, (append_eq_nil_iff.mp empty).1, gone]; rfl)
        · rw [whole, ← got.2, append_assoc, take_append_drop]
      · cases got
    · simp only [loads, popped] at got
      cases got

theorem leftover_frame
    (got : next codec pending = (.frame frame, rest)) (finished : ¬ Unfinished codec pending) :
    leftover codec pending = leftover codec rest := by
  obtain ⟨piece, some_, rfl⟩ := next_takes got finished
  rw [leftover, got]
  exact if_pos (by simpa using length_pos_of_ne_nil some_)

theorem leftover_unfinished (unfinished : Unfinished codec pending) :
    leftover codec pending = pending := by
  obtain ⟨frame, same⟩ := unfinished_next unfinished
  rw [leftover, same]
  exact if_neg (lt_irrefl _)

theorem serve_runs_on (fuel : Nat) (unfinished : Unfinished codec (leftover codec conn.pending)) :
    conn.serve codec fuel = none := by
  induction fuel generalizing conn with
  | zero => rfl
  | succ fuel ih =>
    have step := recv_eq_next codec conn
    rcases call : conn.recv codec with ⟨frame | _ | _, after⟩ <;> rw [call] at step
    · rw [Conn.serve, call]
      simp only
      rw [ih, Option.map_none]
      by_cases here : Unfinished codec conn.pending
      · obtain ⟨_, same⟩ := unfinished_next here
        rw [same] at step
        have still : after.pending = conn.pending := (Prod.ext_iff.mp step).2
        rwa [still]
      · exact leftover_frame step.symm here ▸ unfinished
    all_goals
      rw [leftover, ← step] at unfinished
      obtain ⟨_, same⟩ := unfinished_next unfinished
      rw [same] at step
      cases step

theorem serve_ends {conn : Conn} (finished : ¬ Unfinished codec (leftover codec conn.pending)) :
    ∃ fuel frames, conn.serve codec fuel = some frames ∧
      Taken codec conn.pending frames (leftover codec conn.pending) := by
  have step := recv_eq_next codec conn
  rcases call : conn.recv codec with ⟨frame | _ | _, after⟩ <;> rw [call] at step
  · have here : ¬ Unfinished codec conn.pending :=
      fun unfinished => finished (by rwa [leftover_unfinished unfinished])
    have same := leftover_frame step.symm here
    obtain ⟨piece, some_, whole⟩ := next_takes step.symm here
    have shorter : after.pending.length < conn.pending.length := by
      simpa [whole] using length_pos_of_ne_nil some_
    rw [same] at finished ⊢
    obtain ⟨fuel, frames, served, taken⟩ := serve_ends finished
    refine ⟨fuel + 1, frame :: frames, by simp only [Conn.serve, call, served, Option.map_some], ?_⟩
    rw [whole] at step ⊢
    exact .cons some_ step.symm taken
  all_goals
    have stays : leftover codec conn.pending = conn.pending := by rw [leftover, ← step]
    exact ⟨1, [], by rw [Conn.serve, call], stays.symm ▸ .nil _⟩
termination_by conn.pending.length

/-- However the stream is cut, the serve loop ends and routes every frame once, exactly when the
bytes left over at the end of the stream are not an unterminated frame without payload. -/
theorem serve_ends_iff (conn : Conn) : (∃ fuel frames, conn.serve codec fuel = some frames ∧
      Taken codec conn.pending frames (leftover codec conn.pending)) ↔
    ¬ Unfinished codec (leftover codec conn.pending) := by
  refine ⟨?_, serve_ends⟩
  rintro ⟨fuel, frames, served, _⟩ unfinished
  rw [serve_runs_on fuel unfinished] at served
  cases served

/-- `\x7b\x7d` and the end of the stream: the same request is routed for ever. -/
theorem unterminated_request_repeats : ¬ ∃ fuel,
    (Conn.serve blankCodec fuel { socket := { stream := [123, 125] } }).isSome := by
  rintro ⟨fuel, ends⟩
  have empty := blank_codec_lawful.loads_dumps [] nodup_nil
  have unfinished : Unfinished blankCodec [123, 125] := ⟨nofun, by decide, [], empty, rfl⟩
  rw [serve_runs_on fuel] at ends
  · cases ends
  show Unfinished blankCodec (leftover blankCodec [123, 125])
  rwa [leftover_unfinished unfinished]

end Pending

end Dataflow.Wire
