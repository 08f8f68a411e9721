import Dataflow.Duplex

/-!
Progress of a link. A daemon whose unsent frames all fit into its socket empties its hands
without the help of its peer, so its reader comes back to the socket and the peer can
write. Two daemons that both set out to send more than fits can block each other forever:
each holds its manager lock in `send_frame`, and each reader waits for that lock.
-/

namespace Dataflow.Duplex

open StatefulOutcome ByteRanges Service Peer List

/-! ### what is still to be sent and to be read -/

/-- The octets that a thread has set out to send, its current frame apart. -/
def Stage.load (header : Wire → Nat) : Stage → Nat
  | .emits _ frames after =>
    (frames.map fun frame => (octets header frame).length).sum + after.load header
  | .free | .body .. | .wants _ | .closed | .dead => 0

/-- The octets of the payload that the reader has announced to itself. -/
def Stage.owed : Stage → Nat
  | .body _ left => left
  | .wants (.lookUp _ payload) => payload.length
  | .emits _ _ after => after.owed
  | .wants _ | .free | .closed | .dead => 0

def Stage.waits : Stage → Bool
  | .wants _ => true
  | .free | .body .. | .emits .. | .closed | .dead => false

def Stage.sends : Stage → Bool
  | .emits .. => true
  | .free | .body .. | .wants _ | .closed | .dead => false

def Stage.isClosed : Stage → Bool
  | .closed => true
  | .free | .body .. | .wants _ | .emits .. | .dead => false

/-- The thread has not died, and only the reader is inside a payload. -/
def Stage.Fine (reads : Prop) : Stage → Prop
  | .body _ left => reads ∧ 0 < left
  | .wants (.lookUp _ payload) => reads ∧ payload ≠ []
  | .emits _ _ after => after.Fine reads
  | .wants _ | .free | .closed => True
  | .dead => False

/-- The stream starts inside a payload of which some octets are left. -/
def Parses : Nat → List Octet → Prop
  | 0, [] => True
  | _ + 1, [] => False
  | 0, .plain :: rest => Parses 0 rest
  | 0, .line frame :: rest => Parses frame.payload.length rest
  | left + 1, .plain :: rest => Parses left rest
  | _ + 1, .line _ :: _ => False

theorem parses_replicate (count : Nat) : Parses count (replicate count .plain) := by
  induction count with
  | zero => trivial
  | succ count ih => exact ih

theorem parses_octets (header : Wire → Nat) (frame : Wire) : Parses 0 (octets header frame) := by
  unfold octets
  induction header frame with
  | zero => exact parses_replicate frame.payload.length
  | succ count ih => exact ih

theorem Parses.append {left : Nat} {stream more : List Octet} (parses : Parses left stream)
    (whole : Parses 0 more) : Parses left (stream ++ more) := by
  induction stream generalizing left with
  | nil =>
    cases left with
    | zero => exact whole
    | succ left => exact parses.elim
  | cons octet rest ih =>
    cases left <;> cases octet
    · exact ih parses
    · exact ih parses
    · exact ih parses
    · exact parses.elim

namespace Station

def unsent (station : Station) : List Octet :=
  match station.writing with
  | some (_, rest) => rest
  | none => []

/-- What the peer will read, up to the end of the current frame. -/
def pipe (station : Station) : List Octet := station.outgoing ++ station.unsent

def loads (header : Wire → Nat) (station : Station) : Nat :=
  (station.threads.map (Stage.load header)).sum

/-- Every octet that the threads of a daemon have set out to send and the peer has not
taken out of the socket. -/
def backlog (header : Wire → Nat) (station : Station) : Nat :=
  station.pipe.length + station.loads header

structure Sound (me peer : Station) : Prop where
  locked : ∀ thread, me.lock = some thread →
    ∃ frames after, me.threads[thread]? = some (.emits true frames after)
  fine : ∀ (thread : Nat) (stage : Stage), me.threads[thread]? = some stage →
    stage.Fine (thread = reader)
  staffed : housekeeping < me.threads.length
  parses : ∀ stage : Stage, me.threads[reader]? = some stage →
    Parses stage.owed (me.buffer ++ peer.pipe)

variable {header : Wire → Nat} {room : Nat} {me peer : Station} {thread : Nat}
  {stage next : Stage}

def setsOut (header : Wire → Nat) (me : Station) : Move → Nat
  | .grant thread now =>
    match me.threads[thread]? with
    | some (.wants task) => (me.granted now task).load header
    | _ => 0
  | .read =>
    match me.threads[reader]?, me.buffer with
    | some stage, octet :: _ => (stage.read octet).elim 0 (Stage.load header)
    | _, _ => 0
  | _ => 0

/-- The core raises in the section that a move enters. -/
def raises (me : Station) : Move → Bool
  | .grant thread now =>
    match me.threads[thread]? with
    | some (.wants task) => !(me.lockedRun now task).isOk
    | _ => false
  | _ => false

/-! ### one move -/

theorem loads_set (header : Wire → Nat) (found : me.threads[thread]? = some stage) (next : Stage) :
    (me.setThread thread next).loads header + stage.load header =
      me.loads header + next.load header := by
  simp only [loads, setThread]
  generalize me.threads = threads at found
  induction threads generalizing thread with
  | nil => cases found
  | cons first rest ih =>
    cases thread with
    | zero =>
      obtain rfl := Option.some.inj found
      simp only [set_cons_zero, map_cons, sum_cons]
      omega
    | succ thread =>
      have below := ih (show rest[thread]? = some stage from found)
      simp only [set_cons_succ, map_cons, sum_cons]
      omega

theorem Sound.of_pipe (sound : peer.Sound me) {later : Station}
    (longer : ∃ more, Parses 0 more ∧ later.pipe = me.pipe ++ more) : peer.Sound later := by
  obtain ⟨more, whole, pipe⟩ := longer
  refine { sound with parses := fun stage found => ?_ }
  rw [pipe, ← append_assoc]
  exact (sound.parses stage found).append whole

theorem after_fine {task : Task} (fine : (Stage.wants task).Fine (thread = reader)) :
    task.after.Fine (thread = reader) := by
  cases task with
  | listLinks due silent => cases due <;> cases silent <;> trivial
  | lookUp message payload => exact ⟨fine.1, length_pos_iff.mpr fine.2⟩
  | _ => trivial

theorem after_owed (task : Task) : task.after.owed = (Stage.wants task).owed := by
  cases task with
  | listLinks due silent => cases due <;> cases silent <;> rfl
  | _ => rfl

theorem granted_of_quiet {now : ℚ} {task : Task} (quiet : (me.lockedRun now task).isOk = true) :
    ∃ frames, me.granted now task = .emits true frames task.after := by
  unfold granted
  cases run : me.lockedRun now task with
  | ok hub => exact ⟨_, rfl⟩
  | error pair => rw [run] at quiet; exact absurd quiet Bool.false_ne_true

theorem received_fine (frame : Wire) (reads : Prop) :
    (received frame).Fine reads ∧ (received frame).owed = 0 := by
  cases frame <;> exact ⟨trivial, rfl⟩

theorem headed_fine (frame : Wire) :
    (headed frame).Fine (reader = reader) ∧ (headed frame).owed = frame.payload.length := by
  unfold headed
  split
  · next empty =>
    rw [empty]
    exact received_fine frame _
  · next filled =>
    split
    · exact ⟨⟨rfl, filled⟩, rfl⟩
    · exact ⟨⟨rfl, length_pos_iff.mpr filled⟩, rfl⟩

theorem read_parses {octet : Octet} {rest : List Octet} (fine : stage.Fine (reader = reader))
    (read : stage.read octet = some next) (parses : Parses stage.owed (octet :: rest)) :
    next.Fine (reader = reader) ∧ Parses next.owed rest := by
  cases stage with
  | free =>
    cases octet with
    | plain =>
      obtain rfl := Option.some.inj read
      exact ⟨trivial, parses⟩
    | line frame =>
      obtain rfl := Option.some.inj read
      refine ⟨(headed_fine frame).1, ?_⟩
      rw [(headed_fine frame).2]
      exact parses
  | body frame left =>
    obtain rfl := Option.some.inj read
    obtain ⟨below, rfl⟩ : ∃ below, left = below + 1 := ⟨left - 1, by have := fine.2; omega⟩
    cases octet with
    | line other => exact parses.elim
    | plain =>
      have rest_parses := parses
      split
      · next last =>
        obtain rfl : below = 0 := by omega
        refine ⟨(received_fine frame _).1, ?_⟩
        rw [(received_fine frame True).2]
        exact rest_parses
      · next more => exact ⟨⟨rfl, by omega⟩, rest_parses⟩
  | wants => cases read
  | emits => cases read
  | closed => cases read
  | dead => cases read

theorem called_fine {task : Task} (called : task.isCall = true) (reads : Prop) :
    (Stage.wants task).Fine reads := by
  cases task with
  | lookUp => cases called
  | _ => trivial

attribute [local grind] setThread Stage.Fine Stage.owed Stage.read

variable {later : Station × Station} {action : Move}

theorem Sound.move (sound : me.Sound peer)
    (moved : me.move header room peer action = some later) (quiet : me.raises action = false) :
    later.1.Sound later.2 := by
  obtain ⟨locked, fine, staffed, parses⟩ := sound
  cases action with dsimp only [Station.move] at moved
  | call task =>
    split at moved <;> cases moved
    rename_i called
    have new := called_fine called
    constructor <;> grind
  | storeChanges env =>
    cases moved
    exact ⟨locked, fine, staffed, parses⟩
  | wake due silent =>
    split at moved <;> cases moved
    constructor <;> grind
  | grant thread now =>
    split at moved <;> cases moved
    rename_i task found free
    simp only [raises, found, Bool.not_eq_false'] at quiet
    obtain ⟨frames, granted⟩ := granted_of_quiet quiet
    have next := @after_fine thread task
    have owed := after_owed task
    constructor <;> grind
  | openFrame thread =>
    split at moved <;> cases moved
    constructor <;> grind
  | write =>
    split at moved <;> try split at moved
    all_goals cases moved
    exact ⟨locked, fine, staffed, parses⟩
  | closeFrame =>
    split at moved <;> cases moved
    exact ⟨locked, fine, staffed, parses⟩
  | finish thread =>
    split at moved <;> try split at moved
    all_goals cases moved
    constructor <;> grind
  | recv count =>
    split at moved <;> try split at moved
    all_goals cases moved
    rename_i empty _
    refine ⟨locked, fine, staffed, fun other found => ?_⟩
    have stream := parses other found
    rw [empty, nil_append] at stream
    simpa [pipe, unsent, ← append_assoc] using stream
  | read =>
    split at moved <;> try split at moved
    all_goals cases moved
    rename_i _ reading octet rest found buffered _ after read
    have stream := parses reading found
    rw [buffered] at stream
    have next : after.Fine (reader = reader) ∧ Parses after.owed (rest ++ peer.pipe) :=
      read_parses (fine reader reading found) read stream
    constructor <;> grind

/-- What a move does to the pipe and to the loads of its daemon, and to its peer. -/
structure Effect (header : Wire → Nat) (me peer : Station) (sets : Nat)
    (later : Station × Station) : Prop where
  pipe : ∃ more, Parses 0 more ∧ later.1.pipe = me.pipe ++ more ∧
    more.length + later.1.loads header ≤ me.loads header + sets
  peer : ∃ count, later.2 = { peer with outgoing := peer.outgoing.drop count }

theorem Effect.quiet {sets : Nat} {later : Station} (pipe : later.pipe = me.pipe)
    (loads : later.loads header ≤ me.loads header + sets) :
    Effect header me peer sets (later, peer) :=
  ⟨⟨[], trivial, by rw [pipe, append_nil], by simpa using loads⟩, 0, rfl⟩

theorem move_effect (moved : me.move header room peer action = some later) :
    Effect header me peer (me.setsOut header action) later := by
  cases action with dsimp only [Station.move] at moved
  | call task =>
    split at moved <;> cases moved
    exact .quiet rfl (by simp [loads, Stage.load])
  | storeChanges env =>
    cases moved
    exact .quiet rfl (Nat.le_add_right _ _)
  | wake due silent =>
    split at moved <;> cases moved
    rename_i found
    have set := loads_set header found (.wants (.listLinks due silent))
    exact .quiet rfl (by simp only [Stage.load] at set; omega)
  | grant thread now =>
    split at moved <;> cases moved
    rename_i task found free
    have set := loads_set header found (me.granted now task)
    refine .quiet rfl ?_
    simp only [setsOut, found]
    exact Nat.le.intro set
  | openFrame thread =>
    split at moved <;> cases moved
    rename_i locked frame frames after found idle
    have set := loads_set header found (.emits locked frames after)
    refine ⟨⟨octets header frame, parses_octets header frame, ?_, ?_⟩, 0, rfl⟩
    · simp [Station.pipe, unsent, setThread, idle]
    · simp only [Stage.load, map_cons, sum_cons] at set
      change (octets header frame).length + (me.setThread thread _).loads header ≤ _
      omega
  | write =>
    split at moved <;> try split at moved
    all_goals cases moved
    rename_i writing _
    exact .quiet (by simp [Station.pipe, unsent, writing]) (Nat.le_add_right _ _)
  | closeFrame =>
    split at moved <;> cases moved
    rename_i writing
    exact .quiet (by simp [Station.pipe, unsent, writing]) (Nat.le_add_right _ _)
  | finish thread =>
    split at moved <;> try split at moved
    all_goals cases moved
    rename_i locked after found _
    have set := loads_set header found after
    simp only [Stage.load, map_nil, sum_nil, Nat.zero_add] at set
    exact .quiet rfl ((Nat.add_right_cancel set).le.trans (Nat.le_add_right _ _))
  | recv count =>
    split at moved <;> try split at moved
    all_goals cases moved
    refine ⟨⟨[], trivial, (append_nil _).symm, ?_⟩, count, rfl⟩
    exact (Nat.zero_add _).trans_le (Nat.le_add_right _ _)
  | read =>
    split at moved <;> try split at moved
    all_goals cases moved
    rename_i _ reading octet rest found buffered _ after read
    have set := loads_set header found after
    refine .quiet rfl ?_
    simp only [setsOut, found, buffered, read, Option.elim_some]
    exact Nat.le.intro set

theorem Sound.peer_move (sound : peer.Sound me)
    (moved : me.move header room peer action = some later) : later.2.Sound later.1 := by
  obtain ⟨⟨more, whole, pipe, _⟩, count, taken⟩ := move_effect moved
  rw [taken]
  have longer := sound.of_pipe ⟨more, whole, pipe⟩
  exact { longer with }

theorem backlog_move (moved : me.move header room peer action = some later) :
    later.1.backlog header ≤ me.backlog header + me.setsOut header action ∧
      later.2.backlog header ≤ peer.backlog header := by
  obtain ⟨⟨more, whole, pipe, loads⟩, count, taken⟩ := move_effect moved
  constructor
  · rw [backlog, pipe, length_append, backlog]
    omega
  · rw [taken]
    simp only [backlog, Station.pipe, unsent, length_append, length_drop]
    change _ + peer.loads header ≤ _ + peer.loads header
    omega

/-! ### who can move -/

/-- Some thread of the daemon that is in the middle of something can take a step. -/
def Works (header : Wire → Nat) (room : Nat) (me peer : Station) : Prop :=
  ∃ action, action.isWork = true ∧ (me.move header room peer action).isSome = true

/-- No thread waits for a lock or is in `send_frame`. -/
structure Calm (station : Station) : Prop where
  lock : station.lock = none
  writing : station.writing = none
  threads : ∀ (thread : Nat) (stage : Stage), station.threads[thread]? = some stage →
    (∀ task, stage ≠ .wants task) ∧ ∀ locked frames after, stage ≠ .emits locked frames after

theorem Sound.works_or_calm (sound : me.Sound peer)
    (flows : ∀ thread octet rest, me.writing = some (thread, octet :: rest) →
      me.outgoing.length < room) : Works header room me peer ∨ me.Calm := by
  cases writing : me.writing with
  | some current =>
    obtain ⟨thread, rest⟩ := current
    left
    cases rest with
    | nil => exact ⟨.closeFrame, rfl, by simp [Station.move, writing]⟩
    | cons octet rest =>
      exact ⟨.write, rfl, by simp [Station.move, writing, flows thread octet rest writing]⟩
  | none =>
    by_cases emitting : ∃ (thread : Nat) (locked : Bool) (frames : List Wire) (after : Stage),
        me.threads[thread]? = some (.emits locked frames after)
    · obtain ⟨thread, locked, frames, after, found⟩ := emitting
      left
      cases frames with
      | nil => exact ⟨.finish thread, rfl, by simp [Station.move, found, writing]⟩
      | cons frame frames =>
        exact ⟨.openFrame thread, rfl, by simp [Station.move, found, writing]⟩
    -- the holder of the manager lock would be sending
    have free : me.lock = none := by
      cases held : me.lock with
      | none => rfl
      | some thread =>
        obtain ⟨frames, after, found⟩ := sound.locked thread held
        exact absurd ⟨thread, true, frames, after, found⟩ emitting
    by_cases waiting : ∃ (thread : Nat) (task : Task),
        me.threads[thread]? = some (.wants task)
    · obtain ⟨thread, task, found⟩ := waiting
      exact .inl ⟨.grant thread 0, rfl, by simp [Station.move, found, free]⟩
    refine .inr ⟨free, writing, fun thread stage found => ⟨?_, ?_⟩⟩
    · rintro task rfl
      exact waiting ⟨thread, task, found⟩
    · rintro locked frames after rfl
      exact emitting ⟨thread, locked, frames, after, found⟩

def Closed (station : Station) : Prop := station.threads.any Stage.isClosed = true

theorem Sound.calm_stage (sound : me.Sound peer) (calm : me.Calm) (opened : ¬ me.Closed)
    (found : me.threads[thread]? = some stage) :
    stage = .free ∨ ∃ frame left, stage = .body frame left ∧ thread = reader ∧ 0 < left := by
  cases stage with
  | free => exact .inl rfl
  | body frame left =>
    have fine := sound.fine thread _ found
    exact .inr ⟨frame, left, rfl, fine.1, fine.2⟩
  | wants task => exact absurd rfl ((calm.threads thread _ found).1 task)
  | emits locked frames after =>
    exact absurd rfl ((calm.threads thread _ found).2 locked frames after)
  | closed => exact absurd (any_eq_true.mpr ⟨_, mem_of_getElem? found, rfl⟩) opened
  | dead => exact (sound.fine thread _ found).elim

theorem Sound.reads (sound : me.Sound peer) (calm : me.Calm) (opened : ¬ me.Closed)
    (filled : me.buffer ≠ [] ∨ peer.outgoing ≠ []) : Works header room me peer := by
  have inside := Nat.lt_of_succ_lt sound.staffed
  obtain ⟨stage, found⟩ : ∃ stage, me.threads[reader]? = some stage :=
    ⟨_, getElem?_eq_getElem inside⟩
  cases buffered : me.buffer with
  | nil =>
    have some_left := filled.resolve_left (absurd buffered)
    have available := length_pos_iff.mpr some_left
    have asks : 1 ≤ stage.asks := by
      obtain rfl | ⟨frame, left, rfl, -, positive⟩ := sound.calm_stage calm opened found
      · decide
      · exact Nat.le_min.mpr ⟨by decide, positive⟩
    refine ⟨.recv 1, rfl, ?_⟩
    simp only [Station.move, found, buffered]
    rw [if_pos ⟨Nat.one_pos, asks, available⟩]
    rfl
  | cons octet rest =>
    refine ⟨.read, rfl, ?_⟩
    simp only [Station.move, found, buffered]
    obtain rfl | ⟨frame, left, rfl, -, positive⟩ := sound.calm_stage calm opened found
    · cases octet <;> rfl
    · rfl

/-- Nothing is on its way and every thread is free: housekeeping sleeps and both locks
are there to be taken. -/
structure AtRest (station : Station) : Prop where
  lock : station.lock = none
  writing : station.writing = none
  threads : ∀ stage ∈ station.threads, stage = .free
  buffer : station.buffer = []
  outgoing : station.outgoing = []

theorem Sound.at_rest (sound : me.Sound peer) (calm : me.Calm) (opened : ¬ me.Closed)
    (empty : me.buffer = []) (sent : me.outgoing = []) (silent : peer.pipe = []) : me.AtRest := by
  refine ⟨calm.lock, calm.writing, fun stage mem => ?_, empty, sent⟩
  obtain ⟨thread, found⟩ := getElem?_of_mem mem
  obtain free | ⟨frame, left, rfl, rfl, positive⟩ := sound.calm_stage calm opened found
  · exact free
  · have stream := sound.parses _ found
    rw [empty, silent, append_nil] at stream
    obtain ⟨below, rfl⟩ : ∃ below, left = below + 1 := ⟨left - 1, by omega⟩
    exact stream.elim

/-- Of two daemons one of which has room for its backlog, a thread can work unless both
are at rest. -/
theorem Sound.progress {peerRoom : Nat} (sound : me.Sound peer) (peerSound : peer.Sound me)
    (roomy : me.backlog header ≤ room) (positive : 0 < peerRoom) (opened : ¬ me.Closed)
    (peerOpened : ¬ peer.Closed) :
    Works header room me peer ∨ Works header peerRoom peer me ∨ me.AtRest ∧ peer.AtRest := by
  have flows : ∀ thread octet rest, me.writing = some (thread, octet :: rest) →
      me.outgoing.length < room := by
    intro thread octet rest writing
    simp only [backlog, pipe, unsent, writing, length_append, length_cons] at roomy
    omega
  obtain works | calm := sound.works_or_calm flows
  · exact .inl works
  by_cases read : me.buffer = [] ∧ peer.outgoing = []
  · obtain ⟨empty, drained⟩ := read
    -- the peer has the whole socket for its next octet
    have peerWorks : Works header peerRoom peer me ∨ peer.Calm :=
      peerSound.works_or_calm fun _ _ _ _ => by rw [drained]; exact positive
    obtain works | peerCalm := peerWorks
    · exact .inr (.inl works)
    by_cases peerRead : peer.buffer = [] ∧ me.outgoing = []
    · obtain ⟨peerEmpty, sent⟩ := peerRead
      have silent : peer.pipe = [] := by simp [pipe, unsent, drained, peerCalm.writing]
      have mute : me.pipe = [] := by simp [pipe, unsent, sent, calm.writing]
      exact .inr (.inr ⟨sound.at_rest calm opened empty sent silent,
        peerSound.at_rest peerCalm peerOpened peerEmpty drained mute⟩)
    · exact .inr (.inl (peerSound.reads peerCalm peerOpened (not_and_or.mp peerRead)))
  · exact .inl (sound.reads calm opened (not_and_or.mp read))

/-- A thread holds the manager lock and waits for room in the socket, and the reader and
housekeeping wait for that lock. -/
def blocked (room : Nat) (station : Station) : Bool :=
  station.lock.isSome && (station.threads[reader]?).any Stage.waits &&
    (station.threads[housekeeping]?).any Stage.waits &&
    match station.writing with
    | some (thread, _ :: _) =>
      decide (room ≤ station.outgoing.length) &&
        (range station.threads.length).all fun index =>
          index == thread || !(station.threads[index]?).any Stage.sends
    | _ => false

theorem blocked_stays (stuck : me.blocked room = true)
    (called : ∀ task, action ≠ .call task) (changed : ∀ env, action ≠ .storeChanges env) :
    me.move header room peer action = none := by
  simp only [blocked, Bool.and_eq_true, Option.isSome_iff_exists, Option.any_eq_true] at stuck
  obtain ⟨⟨⟨⟨holder, held⟩, stage, reading, waits⟩, other, keeping, keeps⟩, stuck⟩ := stuck
  split at stuck
  · next writer octet rest writing =>
    simp only [Bool.and_eq_true, decide_eq_true_eq, all_eq_true, mem_range,
      Bool.or_eq_true, beq_iff_eq, Bool.not_eq_true'] at stuck
    obtain ⟨full, others⟩ := stuck
    cases action with
    | call task => exact absurd rfl (called task)
    | storeChanges env => exact absurd rfl (changed env)
    | wake due silent =>
      cases other with
      | wants task => simp [Station.move, keeping]
      | _ => cases keeps
    | grant thread now => simp [Station.move, held]
    | openFrame thread => simp [Station.move, writing]
    | write => simp [Station.move, writing, full]
    | closeFrame => simp [Station.move, writing]
    | finish thread =>
      simp only [Station.move]
      split
      · next locked after found =>
          have inside := (List.getElem?_eq_some_iff.mp found).1
          obtain rfl | idle := others thread inside
          · simp [writing]
          · rw [found] at idle
            cases idle
      · rfl
    | recv count =>
      cases stage with
      | wants task =>
        have asks : ¬ (0 < count ∧ count ≤ (Stage.wants task).asks ∧
            count ≤ peer.outgoing.length) := by
          simp only [Stage.asks]
          omega
        cases buffered : me.buffer <;> simp only [Station.move, reading, buffered]
        exact if_neg asks
      | _ => cases waits
    | read =>
      cases stage with
      | wants task =>
        cases buffered : me.buffer <;> simp only [Station.move, reading, buffered, Stage.read]
      | _ => cases waits
  · cases stuck

end Station

/-! ### whole runs -/

def Side.peer : Side → Side
  | .left => .right
  | .right => .left

namespace Pair

variable {socket : Socket} {pair next : Pair} {left right : Hub}

def station (pair : Pair) : Side → Station
  | .left => pair.left
  | .right => pair.right

/-- A move that sets out to send finds room for its frames and for all that its daemon
still has to send; or there is room for all that the other daemon still has to send. And
the core does not raise. -/
def Gentle (socket : Socket) (pair : Pair) (side : Side) (move : Move) : Prop :=
  (0 < (pair.station side).setsOut socket.header move →
    (pair.station side).backlog socket.header + (pair.station side).setsOut socket.header move ≤
      socket.capacity side ∨
    (pair.station side.peer).backlog socket.header ≤ socket.capacity side.peer) ∧
  (pair.station side).raises move = false

def GentleRun (socket : Socket) : Pair → List (Side × Move) → Prop
  | _, [] => True
  | pair, (side, move) :: rest =>
    pair.Gentle socket side move ∧
      ∀ next ∈ pair.step socket side move, GentleRun socket next rest

/-- One of the daemons has room for its backlog. -/
structure Flowing (socket : Socket) (pair : Pair) : Prop where
  left : pair.left.Sound pair.right
  right : pair.right.Sound pair.left
  roomy : pair.left.backlog socket.header ≤ socket.capacity .left ∨
    pair.right.backlog socket.header ≤ socket.capacity .right

theorem Flowing.step {side : Side} {move : Move} (flowing : Flowing socket pair)
    (gentle : pair.Gentle socket side move) (moved : pair.step socket side move = some next) :
    Flowing socket next := by
  obtain ⟨room, quiet⟩ := gentle
  cases side with
  | left =>
    obtain ⟨later, stationMoved, rfl⟩ := Option.map_eq_some_iff.mp moved
    have backlog := Station.backlog_move stationMoved
    refine ⟨flowing.left.move stationMoved quiet, flowing.right.peer_move stationMoved, ?_⟩
    have roomy := flowing.roomy
    simp only [station, Side.peer] at room ⊢
    omega
  | right =>
    obtain ⟨later, stationMoved, rfl⟩ := Option.map_eq_some_iff.mp moved
    have backlog := Station.backlog_move stationMoved
    refine ⟨flowing.left.peer_move stationMoved, flowing.right.move stationMoved quiet, ?_⟩
    have roomy := flowing.roomy
    simp only [station, Side.peer] at room ⊢
    omega

theorem Flowing.run {moves : List (Side × Move)} (flowing : Flowing socket pair)
    (gentle : GentleRun socket pair moves) (ran : pair.run socket moves = some next) :
    Flowing socket next := by
  induction moves generalizing pair with
  | nil =>
    obtain rfl := Option.some.inj ran
    exact flowing
  | cons move rest ih =>
    simp only [Pair.run, foldlM_cons, Option.bind_eq_bind, Option.bind_eq_some_iff] at ran
    obtain ⟨middle, stepped, ran⟩ := ran
    exact ih (flowing.step gentle.1 stepped) (gentle.2 middle stepped) ran

theorem link_sound (hub peer : Hub) : Station.Sound { hub := hub } { hub := peer } := by
  refine ⟨fun thread held => (Option.some_ne_none _ held.symm).elim, fun thread stage found => ?_,
    Nat.one_lt_two, fun stage found => ?_⟩
  · obtain rfl : stage = .free := by
      have mem := mem_of_getElem? found
      simpa using mem
    trivial
  · obtain rfl := Option.some.inj found
    trivial

theorem link_flowing (socket : Socket) (left right : Hub) : Flowing socket (link left right) :=
  ⟨link_sound left right, link_sound right left, .inl (Nat.zero_le _)⟩

/-- Two daemons never block each other: until a link is closed, some thread of one of them
can take a step or every thread is free and nothing is on its way. -/
theorem link_progresses (socket : Socket) (left right : Hub) (moves : List (Side × Move))
    (gentle : GentleRun socket (link left right) moves) :
    ∀ pair ∈ (link left right).run socket moves, ¬ pair.left.Closed → ¬ pair.right.Closed →
      (∃ side move, move.isWork = true ∧ (pair.step socket side move).isSome = true) ∨
        pair.left.AtRest ∧ pair.right.AtRest := by
  intro pair ran opened peerOpened
  have flowing := (link_flowing socket left right).run gentle ran
  have leftWorks : pair.left.Works socket.header (socket.capacity .left) pair.right →
      ∃ side move, move.isWork = true ∧ (pair.step socket side move).isSome = true := by
    rintro ⟨move, work, moved⟩
    exact ⟨.left, move, work, by simpa [step] using moved⟩
  have rightWorks : pair.right.Works socket.header (socket.capacity .right) pair.left →
      ∃ side move, move.isWork = true ∧ (pair.step socket side move).isSome = true := by
    rintro ⟨move, work, moved⟩
    exact ⟨.right, move, work, by simpa [step] using moved⟩
  rcases flowing.roomy with roomy | roomy
  · rcases flowing.left.progress flowing.right roomy (socket.positive .right) opened peerOpened
      with works | works | rest
    · exact .inl (leftWorks works)
    · exact .inl (rightWorks works)
    · exact .inr rest
  · rcases flowing.right.progress flowing.left roomy (socket.positive .left) peerOpened opened
      with works | works | rest
    · exact .inl (rightWorks works)
    · exact .inl (leftWorks works)
    · exact .inr rest.symm

/-! ### small links -/

def smallHub : Hub where
  peer := "b"
  conn := 0
  core := { config := .small 30 }
  env := { store := { slab := fun _ => 0, allocator := { capacity := 1024, free := [⟨0, 1024⟩] } }
           quota := 1024 }

/-- Sixteen octets fit into each direction; a header has three octets. -/
def narrow : Socket where
  header := fun _ => 3
  capacity := fun _ => 16
  positive := fun _ => by decide

/-- A caller sends an object of one byte and the reader of the peer takes the frame in. -/
def greeting (side : Side) : List (Side × Move) :=
  [(side, .call (.startSend "x" [1] false [])), (side, .grant 2 0), (side, .openFrame 2)] ++
  replicate 5 (side, .write) ++ [(side, .closeFrame), (side, .finish 2)] ++
  (side.peer, .recv 5) :: replicate 5 (side.peer, .read)

/-- Another caller sends forty bytes, of which the socket takes thirteen. -/
def flood (side : Side) : List (Side × Move) :=
  [(side, .call (.startSend "y" (replicate 40 7) false [])), (side, .grant 3 0),
   (side, .openFrame 3)] ++ replicate 16 (side, .write)

instance (socket : Socket) (pair : Pair) (side : Side) (move : Move) :
    Decidable (pair.Gentle socket side move) :=
  inferInstanceAs (Decidable (_ ∧ _))

instance decidableGentleRun (socket : Socket) :
    (pair : Pair) → (moves : List (Side × Move)) → Decidable (GentleRun socket pair moves)
  | _, [] => inferInstanceAs (Decidable True)
  | pair, (side, move) :: rest =>
    have : ∀ next, Decidable (GentleRun socket next rest) := fun next =>
      decidableGentleRun socket next rest
    inferInstanceAs (Decidable (_ ∧ ∀ next ∈ pair.step socket side move, _))

theorem link_progresses_one_way :
    ∃ pair ∈ (link smallHub smallHub).run narrow (greeting .left ++ flood .left),
      (∃ side move, move.isWork = true ∧ (pair.step narrow side move).isSome = true) ∨
        pair.left.AtRest ∧ pair.right.AtRest := by
  have gentle : GentleRun narrow (link smallHub smallHub) (greeting .left ++ flood .left) := by
    decide +kernel
  have opened : ((link smallHub smallHub).run narrow (greeting .left ++ flood .left)).any
      (fun pair => !pair.left.threads.any Stage.isClosed && !pair.right.threads.any Stage.isClosed) =
        true := by
    decide +kernel
  obtain ⟨pair, ran, still⟩ := (Option.any_eq_true ..).mp opened
  simp only [Bool.and_eq_true, Bool.not_eq_true'] at still
  refine ⟨pair, ran, link_progresses narrow smallHub smallHub _ gentle pair ran ?_ ?_⟩
  · exact Bool.eq_false_iff.mp still.1
  · exact Bool.eq_false_iff.mp still.2

/-- Both daemons send. Each caller holds the manager lock of its daemon and finds the socket
full, each reader waits for that lock with a frame in its hands, and so does housekeeping:
no thread of either daemon can take a step. -/
theorem both_sending_block :
    ∃ pair ∈ (link smallHub smallHub).run narrow (greeting .left ++ greeting .right ++
        flood .left ++ flood .right ++ [(.left, .wake false false), (.right, .wake true true)]),
      pair.left.hub.core.senders.length = 2 ∧ pair.right.hub.core.senders.length = 2 ∧
      ∀ side move, (∀ task, move ≠ .call task) → (∀ env, move ≠ .storeChanges env) →
        pair.step narrow side move = none := by
  have stuck : ((link smallHub smallHub).run narrow (greeting .left ++ greeting .right ++
      flood .left ++ flood .right ++
        [(.left, .wake false false), (.right, .wake true true)])).any (fun pair =>
      pair.left.hub.core.senders.length == 2 && pair.right.hub.core.senders.length == 2 &&
        pair.left.blocked 16 && pair.right.blocked 16) = true := by
    decide +kernel
  obtain ⟨pair, ran, facts⟩ := (Option.any_eq_true ..).mp stuck
  simp only [Bool.and_eq_true, beq_iff_eq] at facts
  obtain ⟨⟨⟨left, right⟩, leftBlocked⟩, rightBlocked⟩ := facts
  refine ⟨pair, ran, left, right, fun side move called changed => ?_⟩
  cases side with
  | left => exact Option.map_eq_none_iff.mpr (Station.blocked_stays leftBlocked called changed)
  | right => exact Option.map_eq_none_iff.mpr (Station.blocked_stays rightBlocked called changed)

end Pair

end Dataflow.Duplex
