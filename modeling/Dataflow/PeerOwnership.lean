import Dataflow.PeerLedger

/-!
Ownership inside one link. `Owned` is what holds of a hub while the code of its
core runs: the ledger with the link's own reservations in front, what has landed
so far in each of them, and one queued commit for every receiver that commits.
The conditions under which a step keeps it are the preconditions of the lemmas:
no step may touch a transfer whose commit is queued.
-/

namespace Dataflow.Peer

open StatefulOutcome ByteRanges Service KeyedTable List

/-- The reservations of the receivers that have not committed. -/
def openHolds (receivers : List ReceiverMachine) : List Hold :=
  (receivers.filter (·.committing = false)).map (·.res.hold)

def queuedHolds (fifo : List Commit) : List Hold := fifo.map (·.res.hold)

def committing (receivers : List ReceiverMachine) (sendId : SendId) : Nat :=
  receivers.countP fun machine => machine.committing ∧ machine.sendId = sendId

def pending (commits : List Commit) (conn : Nat) (sendId : SendId) : Nat :=
  commits.countP fun commit => commit.conn = conn ∧ commit.sendId = sendId

/-- How far a transfer has come: its first bytes are in place. -/
structure Filling (chunk : Nat) (slab : ByteRanges.Memory) (machine : ReceiverMachine) (start : Start) :
    Prop where
  id : start.sendId = machine.sendId
  dest : start.destId = machine.res.destId
  whole : start.payload.length = machine.res.length
  expects : machine.expectBytes = machine.res.length
  plain : machine.res.raddr = 0
  counted : machine.committing = false →
    machine.received = min (machine.nextSeq * chunk) start.payload.length
  filled : machine.committing = false → ByteRanges.read slab machine.res.extent.offset
    machine.received = start.payload.take machine.received

/-- A queued commit finds the payload in its extent. -/
structure Arrived (slab : ByteRanges.Memory) (commit : Commit) (start : Start) : Prop where
  id : start.sendId = commit.sendId
  dest : start.destId = commit.res.destId
  bytes : ByteRanges.read slab commit.res.extent.offset commit.res.length = start.payload

structure Owned (starts : List Start) (chunk : Nat) (rest : List Hold) (base hub : Hub) : Prop where
  peer : hub.peer = base.peer
  conn : hub.conn = base.conn
  rdma : hub.rdmaReady = false
  ledger : Ledger hub.env (openHolds hub.core.receivers ++ (queuedHolds hub.env.fifo ++ rest))
  kept : ∀ hold ∈ queuedHolds base.env.fifo ++ rest, Untouched base.env hub.env hold
  adoptions : hub.env.adoptions = base.env.adoptions
  queue : ∃ added, hub.env.fifo = base.env.fifo ++ added ∧ ∀ commit ∈ added,
    commit.conn = base.conn ∧ commit.fromPeer = base.peer ∧
      ∃ start ∈ starts, Arrived hub.env.store.slab commit start
  distinct : (hub.core.receivers.map (·.sendId)).Nodup
  filling : ∀ machine ∈ hub.core.receivers,
    ∃ start ∈ starts, Filling chunk hub.env.store.slab machine start
  fresh : ∀ machine ∈ hub.core.receivers, machine.sendId ∉ hub.core.completed
  completed : hub.core.completed = base.core.completed
  forgotten : hub.core.forgotten = base.core.forgotten
  balance : ∀ sendId,
    pending hub.env.fifo hub.conn sendId + committing base.core.receivers sendId =
      pending base.env.fifo base.conn sendId + committing hub.core.receivers sendId

section Machines

variable {receivers : List ReceiverMachine} {machine written : ReceiverMachine} {sendId : SendId}

theorem open_holds_perm {others : List ReceiverMachine} (order : receivers.Perm others) :
    (openHolds receivers).Perm (openHolds others) :=
  (order.filter _).map _

theorem open_holds_cons (machine : ReceiverMachine) (receivers : List ReceiverMachine) :
    openHolds (machine :: receivers) =
      (if machine.committing = false then [machine.res.hold] else []) ++ openHolds receivers := by
  unfold openHolds
  by_cases still : machine.committing = false <;> simp [still]

theorem committing_cons (machine : ReceiverMachine) (receivers : List ReceiverMachine)
    (sendId : SendId) : committing (machine :: receivers) sendId = committing receivers sendId +
      (if machine.committing ∧ machine.sendId = sendId then 1 else 0) := by
  unfold committing
  rw [countP_cons]
  simp

theorem committing_perm {others : List ReceiverMachine} (order : receivers.Perm others)
    (sendId : SendId) : committing receivers sendId = committing others sendId :=
  order.countP_eq _

theorem committing_le_one (distinct : (receivers.map (·.sendId)).Nodup) (sendId : SendId) :
    committing receivers sendId ≤ 1 := by
  have counted : committing receivers sendId ≤ (receivers.map (·.sendId)).count sendId := by
    rw [count, countP_map]
    apply countP_mono_left
    intro machine _ holds
    simp only [decide_eq_true_eq] at holds
    simp [holds.2]
  exact counted.trans (nodup_iff_count_le_one.mp distinct sendId)

theorem pending_append (left right : List Commit) (conn : Nat) (sendId : SendId) :
    pending (left ++ right) conn sendId = pending left conn sendId + pending right conn sendId :=
  countP_append

end Machines

section Contents

variable {chunk : Nat} {env next : Env} {machine : ReceiverMachine} {start : Start} {commit : Commit}

theorem Filling.bounded {slab : ByteRanges.Memory} (filling : Filling chunk slab machine start)
    (still : machine.committing = false) : machine.received ≤ machine.res.length := by
  rw [filling.counted still, ← filling.whole]
  exact min_le_right _ _

theorem Filling.untouched (filling : Filling chunk env.store.slab machine start)
    (same : machine.committing = false → Untouched env next machine.res.hold)
    (roomy : (machine.res.length : Int) ≤ machine.res.extent.size) :
    Filling chunk next.store.slab machine start := by
  refine { filling with filled := fun still => Eq.trans ?_ (filling.filled still) }
  have bound := filling.bounded still
  exact (same still).read (show (machine.received : Int) ≤ machine.res.extent.size by omega)

theorem Arrived.untouched (arrived : Arrived env.store.slab commit start)
    (same : Untouched env next commit.res.hold)
    (roomy : (commit.res.length : Int) ≤ commit.res.extent.size) :
    Arrived next.store.slab commit start :=
  ⟨arrived.id, arrived.dest, (same.read roomy).trans arrived.bytes⟩

end Contents

section Steps

variable {starts : List Start} {chunk : Nat} {rest : List Hold} {base hub next : Hub}
  {machine written : ReceiverMachine} {sendId : SendId} {now : ℚ}

section

variable (owned : Owned starts chunk rest base hub)
include owned

theorem Owned.sender {acked : SendId → Prop}
    (side : SenderSide acked hub next) : Owned starts chunk rest base next where
  peer := side.peer.trans owned.peer
  conn := side.conn.trans owned.conn
  rdma := side.rdma.trans owned.rdma
  ledger := side.env ▸ side.receivers ▸ owned.ledger
  kept := side.env ▸ owned.kept
  adoptions := side.env ▸ owned.adoptions
  queue := side.env ▸ owned.queue
  distinct := side.receivers ▸ owned.distinct
  filling := side.env ▸ side.receivers ▸ owned.filling
  fresh := side.receivers ▸ side.completed ▸ owned.fresh
  completed := side.completed.trans owned.completed
  forgotten := side.forgotten.trans owned.forgotten
  balance := side.env ▸ side.conn ▸ side.receivers ▸ owned.balance

theorem Owned.send {message : Message} {payload : Bytes} :
    Owned starts chunk rest base (hub.send message payload) :=
  { owned with }

section

variable (found : hub.core.receiver sendId = some machine)
include found

theorem Owned.order :
    hub.core.receivers.Perm (machine :: (hub.core.popReceiver sendId).receivers) :=
  perm_remove owned.distinct found

theorem Owned.order_set (written : ReceiverMachine) (id : written.sendId = sendId) :
    (hub.core.setReceiver written).receivers.Perm
      (written :: (hub.core.popReceiver sendId).receivers) := by
  subst id
  exact update_perm written owned.distinct found

section

variable (still : machine.committing = false)
include still

theorem Owned.front :
    Ledger hub.env (machine.res.hold :: (openHolds (hub.core.popReceiver sendId).receivers ++
      (queuedHolds hub.env.fifo ++ rest))) := by
  have order := open_holds_perm (owned.order found)
  rw [open_holds_cons, if_pos still] at order
  exact owned.ledger.perm (order.append_right _)

theorem Owned.abort : Owned starts chunk rest base (abortReceiver machine hub) := by
  obtain rfl := lookup_key found
  have listed : ∀ other ∈ (hub.core.popReceiver machine.sendId).receivers,
      other ∈ hub.core.receivers := fun other mem => mem_of_mem_filter mem
  refine { owned with
    ledger := (owned.front found still).release
    distinct := keys_remove_nodup owned.distinct
    filling := fun other mem => owned.filling other (listed other mem)
    fresh := fun other mem => owned.fresh other (listed other mem)
    balance := fun other => ?_ }
  have before := owned.balance other
  rw [committing_perm (owned.order found), committing_cons] at before
  simp only [still, Bool.false_eq_true, false_and, if_false, Nat.add_zero] at before
  exact before

theorem Owned.replace (id : written.sendId = sendId) (hold : written.res.hold = machine.res.hold)
    (stays : written.committing = false) {start : Start} (known : start ∈ starts)
    (filling : Filling chunk hub.env.store.slab written start) :
    Owned starts chunk rest base (hub.setCore (hub.core.setReceiver written)) := by
  have key := lookup_key found
  have order := owned.order_set found written id
  refine { owned with
    ledger := ?_
    distinct := keys_write_nodup rfl owned.distinct
    filling := forall_mem_write owned.filling ⟨start, known, filling⟩
    fresh := forall_mem_write owned.fresh (id ▸ key ▸ owned.fresh machine (lookup_mem found))
    balance := fun other => ?_ }
  · have moved := open_holds_perm order
    rw [open_holds_cons, if_pos stays, hold] at moved
    exact (owned.front found still).perm (moved.append_right _).symm
  have before := owned.balance other
  rw [committing_perm (owned.order found), committing_cons] at before
  show _ = _ + committing (hub.core.setReceiver written).receivers other
  rw [committing_perm order, committing_cons]
  simp only [still, stays, Bool.false_eq_true, false_and, if_false, Nat.add_zero] at before ⊢
  exact before

theorem Owned.write {data : Bytes} (fits : machine.received + data.length ≤ machine.res.length) :
    Owned starts chunk rest base { hub with
      env := hub.env.writeSlab (machine.res.extent.offset + machine.received) data } := by
  have front := owned.front found still
  have away : ∀ hold ∈ openHolds (hub.core.popReceiver sendId).receivers ++
      (queuedHolds hub.env.fifo ++ rest), Untouched hub.env
        (hub.env.writeSlab (machine.res.extent.offset + machine.received) data) hold :=
    fun hold mem => front.write fits mem
  have behind : ∀ hold ∈ queuedHolds hub.env.fifo ++ rest, Untouched hub.env
      (hub.env.writeSlab (machine.res.extent.offset + machine.received) data) hold :=
    fun hold mem => away hold (mem_append_right _ mem)
  have roomy := owned.ledger.roomy
  obtain ⟨added, fifo, arrived⟩ := owned.queue
  refine { owned with
    ledger := { owned.ledger with }, kept := ?_, queue := ?_, filling := ?_ }
  · intro hold mem byte inside
    have later : hold ∈ queuedHolds hub.env.fifo ++ rest := by
      simp only [queuedHolds, mem_append] at mem ⊢
      grind
    exact (behind hold later byte inside).trans (owned.kept hold mem byte inside)
  · refine ⟨added, fifo, ?_⟩
    intro commit mem
    obtain ⟨conn, peer, start, known, content⟩ := arrived commit mem
    have held : commit.res.hold ∈ queuedHolds hub.env.fifo ++ rest :=
      mem_append_left _ (mem_map_of_mem (fifo ▸ mem_append_right _ mem))
    exact ⟨conn, peer, start, known,
      content.untouched (behind _ held) (roomy _ (mem_append_right _ held))⟩
  · intro other mem
    obtain ⟨start, known, filling⟩ := owned.filling other mem
    refine ⟨start, known, ?_⟩
    rcases mem_cons.mp ((owned.order found).mem_iff.mp mem) with rfl | apart
    · -- the transfer itself: the new bytes stand behind the old ones
      refine { filling with filled := fun _ => Eq.trans ?_ (filling.filled still) }
      exact read_congr fun byte _ above => write_outside (.inl above)
    have held : other.committing = false →
        other.res.hold ∈ openHolds (hub.core.popReceiver sendId).receivers := by
      intro unfinished
      exact mem_map_of_mem (mem_filter.mpr ⟨apart, by simpa using unfinished⟩)
    cases finished : other.committing with
    | false =>
      have there := mem_append_left (queuedHolds hub.env.fifo ++ rest) (held finished)
      exact filling.untouched (fun _ => away _ there) (front.roomy _ (mem_cons_of_mem _ there))
    | true =>
      exact { filling with filled := fun open_ => absurd (finished.symm.trans open_) (by decide) }

end

end

theorem Owned.admit {destId : String} {nbytes : Nat}
    {overwrite : Bool} {res : Reservation} {env : Env}
    (reserved : tryReserve destId nbytes overwrite hub = .ok (res, env))
    (absent : hub.core.receiver machine.sendId = none)
    (unseen : machine.sendId ∉ hub.core.completed) (place : machine.res = res)
    (expects : machine.expectBytes = nbytes) (begins : machine.nextSeq = 0 ∧ machine.received = 0)
    (still : machine.committing = false) {start : Start} (known : start ∈ starts)
    (id : start.sendId = machine.sendId) (dest : start.destId = destId)
    (whole : start.payload.length = nbytes) : Owned starts chunk rest base { hub with
      env := env, core := { hub.core with receivers := hub.core.receivers ++ [machine] } } := by
  obtain ⟨extent, allocator, _, hold, sameDest, plain, store, fifo, _, _, adoptions⟩ :=
    try_reserve_cases reserved
  have slab : env.store.slab = hub.env.store.slab := by rw [store]
  have length : machine.res.length = nbytes := by
    rw [place]
    exact congrArg Hold.length hold
  have order := perm_append_singleton machine hub.core.receivers
  refine { owned with
    ledger := ?_, kept := ?_, adoptions := adoptions.trans owned.adoptions, queue := ?_
    distinct := ?_, filling := ?_, fresh := forall_mem_concat owned.fresh unseen, balance := ?_ }
  · have moved := open_holds_perm order
    rw [open_holds_cons, if_pos still, place] at moved
    rw [fifo]
    exact (owned.ledger.reserve reserved).perm (moved.append_right _).symm
  · intro other mem byte inside
    exact (congrFun slab byte).trans (owned.kept other mem byte inside)
  · obtain ⟨added, queue, arrived⟩ := owned.queue
    refine ⟨added, fifo.trans queue, ?_⟩
    intro commit mem
    obtain ⟨conn, peer, begun, listed, content⟩ := arrived commit mem
    exact ⟨conn, peer, begun, listed, slab.symm ▸ content⟩
  · exact keys_append_nodup owned.distinct (lookup_none.mp absent)
  · refine forall_mem_concat (slab.symm ▸ owned.filling) ⟨start, known, id, ?_, ?_, ?_, ?_, ?_, ?_⟩
    · rw [place, sameDest, dest]
    · rw [whole, length]
    · rw [expects, length]
    · rw [place]
      exact plain owned.rdma
    · intro _
      rw [begins.1, begins.2]
      simp
    · intro _
      rw [begins.2]
      rfl
  · intro other
    have before := owned.balance other
    rw [fifo, committing_perm order, committing_cons]
    simpa [still] using before

theorem Owned.commit
    (found : hub.core.receiver sendId = some machine) (still : machine.committing = false)
    {start : Start} (known : start ∈ starts)
    (filling : Filling chunk hub.env.store.slab machine start)
    (complete : ByteRanges.read hub.env.store.slab machine.res.extent.offset machine.res.length =
      start.payload) : Owned starts chunk rest base (finishCommit now machine hub) := by
  obtain rfl := lookup_key found
  have order := owned.order_set found { machine with committing := true, lastProgress := now } rfl
  refine { owned with
    ledger := ?_, queue := ?_, distinct := keys_write_nodup rfl owned.distinct
    filling := forall_mem_write owned.filling ⟨start, known, { filling with
      counted := fun open_ => nomatch open_
      filled := fun open_ => nomatch open_ }⟩
    fresh := forall_mem_write owned.fresh (owned.fresh machine (lookup_mem found))
    balance := fun other => ?_ }
  · have moved := open_holds_perm order
    rw [open_holds_cons] at moved
    simp only [Bool.true_eq_false, if_false, nil_append] at moved
    have front := owned.front found still
    -- the reservation moves from the open transfers to the queue
    refine { front.perm ?_ with }
    show Perm _ (_ ++ ((hub.env.fifo ++ [_]).map _ ++ rest))
    rw [map_append]
    refine .trans ?_ (moved.append_right _).symm
    rw [map_singleton, append_assoc, singleton_append]
    exact (perm_middle.symm.trans (Perm.append_left _ perm_middle.symm))
  · obtain ⟨added, queue, arrived⟩ := owned.queue
    refine ⟨added ++ [_], (congrArg (· ++ [_]) queue).trans (append_assoc ..), ?_⟩
    exact forall_mem_concat arrived
      ⟨owned.conn, owned.peer, start, known, filling.id, filling.dest, complete⟩
  have before := owned.balance other
  rw [committing_perm (owned.order found), committing_cons] at before
  show pending (hub.env.fifo ++ [_]) hub.conn other + _ =
    _ + committing (hub.core.setReceiver _).receivers other
  rw [pending_append, committing_perm order, committing_cons]
  simp only [still, Bool.false_eq_true, false_and, if_false, Nat.add_zero, true_and] at before ⊢
  have one : pending [(⟨machine.res, machine.info, machine.sendId, hub.peer, hub.conn⟩ : Commit)]
      hub.conn other = if machine.sendId = other then 1 else 0 := by
    simp [pending]
  show _ + pending [(⟨machine.res, machine.info, machine.sendId, hub.peer, hub.conn⟩ : Commit)]
    hub.conn other + _ = _
  omega

end

theorem same_start (numbered : (starts.map (·.sendId)).Nodup) {start other : Start}
    (known : start ∈ starts) (also : other ∈ starts) (same : other.sendId = start.sendId) :
    other = start :=
  inj_on_of_nodup_map numbered also known same

theorem handle_rts_owned (owned : Owned starts chunk rest base hub)
    (numbered : (starts.map (·.sendId)).Nodup) {destId : String} {bytes : Nat}
    {info : Info} {overwrite eager : Bool} {payload : Bytes}
    (genuine : Genuine starts chunk (.rts sendId destId bytes info overwrite eager, payload)) :
    Leaves (handleRts now sendId destId bytes info overwrite eager payload hub) (Owned starts chunk rest base) := by
  obtain ⟨start, known, id, dest, whole, carried⟩ := genuine
  unfold handleRts
  split
  · exact owned.send
  next unseen =>
  split
  · exact owned
  next absent =>
  simp only [Bool.not_eq_true, Option.isSome_eq_false_iff, Option.isNone_iff_eq_none] at absent
  split
  · exact owned.send
  next res env reserved =>
  have opened : Owned starts chunk rest base { hub with
      env := env
      core := { hub.core with receivers := hub.core.receivers ++
        [{ sendId := sendId, res := res, info := info, expectBytes := bytes, lastProgress := now }] } } :=
    owned.admit reserved absent unseen rfl rfl ⟨rfl, rfl⟩ rfl known id dest whole
  have length : res.length = bytes := by
    obtain ⟨_, _, _, hold, _⟩ := try_reserve_cases reserved
    exact congrArg Hold.length hold
  have found : Core.receiver { hub.core with receivers := hub.core.receivers ++
      [{ sendId := sendId, res := res, info := info, expectBytes := bytes, lastProgress := now }] }
      sendId = some { sendId := sendId, res := res, info := info, expectBytes := bytes
                      lastProgress := now } := by
    unfold Core.receiver at absent ⊢
    rw [lookup_append_single, absent]
    simp
  split
  · next small =>
    split
    · next fits =>
        have written := opened.write found rfl (show 0 + payload.length ≤ res.length by omega)
        simp only [Nat.cast_zero, Int.add_zero] at written
        obtain ⟨begun, listed, filling⟩ := written.filling _ (lookup_mem found)
        obtain rfl := same_start numbered known listed (filling.id.trans id.symm)
        refine written.commit found rfl listed filling ?_
        show ByteRanges.read (ByteRanges.write env.store.slab _ payload) _ res.length = _
        rw [← fits, read_write_self]
        exact carried small
    · next misfit =>
        have sameLength := congrArg List.length (carried small)
        omega
  · split
    · exact opened.send
    · exact opened.send

theorem Filling.after_chunk {slab : ByteRanges.Memory} {start : Start} (filling : Filling chunk slab machine start)
    (still : machine.committing = false) :
    machine.received + (slice chunk machine.nextSeq start.payload).length ≤ machine.res.length ∧
    machine.received + (slice chunk machine.nextSeq start.payload).length =
      min ((machine.nextSeq + 1) * chunk) start.payload.length ∧
    start.payload.take machine.received ++ slice chunk machine.nextSeq start.payload =
      start.payload.take
        (machine.received + (slice chunk machine.nextSeq start.payload).length) := by
  have counted := filling.counted still
  have length : (slice chunk machine.nextSeq start.payload).length =
      min chunk (start.payload.length - machine.nextSeq * chunk) := by
    simp [slice]
  have total : machine.received + (slice chunk machine.nextSeq start.payload).length =
      min ((machine.nextSeq + 1) * chunk) start.payload.length := by
    rw [counted, length, Nat.add_mul, Nat.one_mul]
    omega
  refine ⟨?_, total, ?_⟩
  · rw [total, ← filling.whole]
    exact min_le_right _ _
  rcases Nat.le_total (machine.nextSeq * chunk) start.payload.length with within | beyond
  · rw [total, counted, min_eq_left within, slice, ← take_add, Nat.add_mul, Nat.one_mul]
    rcases Nat.le_total (machine.nextSeq * chunk + chunk) start.payload.length with small | large
    · rw [min_eq_left small]
    · rw [min_eq_right large, take_of_length_le large, take_length]
  · have empty : slice chunk machine.nextSeq start.payload = [] := by
      rw [slice, drop_eq_nil_of_le beyond, take_nil]
    rw [empty, append_nil, length_nil, Nat.add_zero]

section

variable (owned : Owned starts chunk rest base hub)
include owned

theorem Owned.advance (now : ℚ)
    (found : hub.core.receiver sendId = some machine) (still : machine.committing = false)
    {start : Start} (known : start ∈ starts)
    (filling : Filling chunk hub.env.store.slab machine start) (res : Reservation) {count : Nat}
    (hold : res.hold = machine.res.hold) (dest : res.destId = machine.res.destId)
    (plain : res.raddr = machine.res.raddr)
    (length : count = (slice chunk machine.nextSeq start.payload).length) :
    Owned starts chunk rest base { hub with
      env := hub.env.writeSlab (machine.res.extent.offset + machine.received)
        (slice chunk machine.nextSeq start.payload)
      core := hub.core.setReceiver { machine with
        res := res, received := machine.received + count
        nextSeq := machine.nextSeq + 1, lastProgress := now } } := by
  subst length
  obtain ⟨fits, total, content⟩ := filling.after_chunk still
  have written := owned.write found still fits
  have sameLength := congrArg Hold.length hold
  have sameExtent : res.extent = machine.res.extent := congrArg Hold.extent hold
  have key := lookup_key found
  refine written.replace found still key hold still known
    ⟨filling.id, filling.dest.trans dest.symm, filling.whole.trans sameLength.symm,
      filling.expects.trans sameLength.symm, plain.trans filling.plain, fun _ => total, fun _ => ?_⟩
  show ByteRanges.read (ByteRanges.write hub.env.store.slab _ _) res.extent.offset _ = _
  rw [sameExtent, read_write_append, filling.filled still]
  exact content

theorem chunk_owned
    (numbered : (starts.map (·.sendId)).Nodup) {seq : Nat} {last : Bool} {payload : Bytes}
    (genuine : Genuine starts chunk (.chunk sendId seq last, payload))
    (quiet : ∀ machine, hub.core.receiver sendId = some machine → machine.committing = false) :
    Leaves (handle now (.chunk sendId seq last) payload hub) (Owned starts chunk rest base) := by
  obtain ⟨start, known, id, bytes⟩ := genuine
  simp only [handle]
  cases found : hub.core.receiver sendId with
  | none =>
    split
    · simp only [handleChunk, found]
      exact owned
    · simp only [landChunk, found, handleChunk]
      exact owned
  | some machine =>
    have still := quiet machine found
    have key := lookup_key found
    obtain ⟨begun, listed, filling⟩ := owned.filling machine (lookup_mem found)
    obtain rfl := same_start numbered known listed (filling.id.trans (key.trans id.symm))
    by_cases expected : seq = machine.nextSeq
    · subst expected
      obtain ⟨fits, _, _⟩ := filling.after_chunk still
      split
      · next empty =>
        have room : machine.received + ([] : Bytes).length ≤ machine.res.length :=
          filling.bounded still
        have moved := owned.advance now found still listed filling machine.res rfl rfl rfl rfl
        rw [← bytes, empty] at moved
        simp only [handleChunk, found, ne_eq, not_true_eq_false, if_false, if_pos room]
        exact moved
      have room : machine.received + payload.length ≤ machine.expectBytes := by
        rw [filling.expects, bytes]
        exact fits
      have moved := owned.advance now found still listed filling
        { machine.res with landedZeroCopy := true } rfl rfl rfl rfl
      rw [← bytes] at moved
      have lands : True ∧ machine.committing = false ∧
          machine.received + payload.length ≤ machine.expectBytes := ⟨trivial, still, room⟩
      simp only [landChunk, found, handleChunk, ne_eq, not_true_eq_false, if_false]
      rw [if_pos lands]
      exact moved
    · -- any other chunk ends the transfer and gives its extent back
      have aborts : Leaves (handleChunk now sendId seq none [] hub) (Owned starts chunk rest base) := by
        simp only [handleChunk, found, ne_eq, expected, not_false_eq_true, if_true]
        exact owned.abort found still
      split
      · exact aborts
      · simp only [landChunk, found, expected, false_and, if_false]
        exact aborts

theorem handle_done_owned {checksum : Nat}
    (quiet : ∀ machine, hub.core.receiver sendId = some machine → machine.committing = false) :
    Owned starts chunk rest base (handleDone now sendId checksum hub) := by
  unfold handleDone
  split
  · exact owned.send
  split
  · exact owned
  next machine found =>
  have still := quiet machine found
  obtain rfl := lookup_key found
  obtain ⟨start, known, filling⟩ := owned.filling machine (lookup_mem found)
  have plain : ¬ machine.res.raddr ≠ 0 := fun remote => remote filling.plain
  have same : hub.setCore (hub.core.setReceiver machine) = hub := by
    have unchanged : (hub.core.setReceiver machine).receivers = hub.core.receivers :=
      update_lookup owned.distinct found
    simp only [Hub.setCore, Core.setReceiver] at unchanged ⊢
    rw [unchanged]
  simp only [plain, if_false, same]
  split
  · exact owned.abort found still
  next counted =>
  split
  · exact owned.abort found still
  refine owned.commit found still known filling ?_
  have all : machine.received = machine.res.length := by
    rw [ne_eq, not_not] at counted
    exact counted.trans filling.expects
  have content := filling.filled still
  rw [all, ← filling.whole, take_length, filling.whole] at content
  exact content

/-- The transfer whose receiver a frame may end or commit. -/
def Message.advances : Message → Option SendId
  | .chunk sendId _ _ => some sendId
  | .done sendId _ => some sendId
  | _ => none

theorem handle_owned
    (numbered : (starts.map (·.sendId)).Nodup) {message : Message} {payload : Bytes}
    (genuine : Genuine starts chunk (message, payload))
    (quiet : ∀ machine ∈ hub.core.receivers, message.advances = some machine.sendId →
      machine.committing = false) : Leaves (handle now message payload hub) (Owned starts chunk rest base) := by
  have calm : ∀ sendId, message.advances = some sendId → ∀ machine,
      hub.core.receiver sendId = some machine → machine.committing = false := by
    intro sendId touched machine found
    have key : machine.sendId = sendId := lookup_key found
    exact quiet machine (lookup_mem found) (key ▸ touched)
  have replies : message.IsReply → Leaves (handle now message payload hub) (Owned starts chunk rest base) := fun reply =>
    leaves_mono (handle_reply_sends reply) fun _ side => owned.sender side.toSenderSide
  cases message with
  | rts => exact handle_rts_owned owned numbered genuine
  | chunk => exact chunk_owned owned numbered genuine (calm _ rfl)
  | done => exact handle_done_owned owned (calm _ rfl)
  | cts | addr | nack | doneAck => exact replies trivial

omit owned in
theorem fold_owned {step : Hub → ReceiverMachine → Hub} {machines : List ReceiverMachine}
    (ends : ∀ hub, ∀ machine ∈ machines, step hub machine = hub ∨
      machine.committing = false ∧ step hub machine = abortReceiver machine hub)
    (owned : Owned starts chunk rest base hub) (distinct : (machines.map (·.sendId)).Nodup)
    (listed : ∀ machine ∈ machines, hub.core.receiver machine.sendId = some machine) :
    Owned starts chunk rest base (machines.foldl step hub) := by
  induction machines generalizing hub with
  | nil => exact owned
  | cons machine later ih =>
    have next := ends hub machine mem_cons_self
    have found := listed machine mem_cons_self
    have others := fun hub other mem => ends hub other (mem_cons_of_mem machine mem)
    rw [map_cons, nodup_cons] at distinct
    rw [foldl_cons]
    rcases next with same | ⟨still, aborted⟩
    · rw [same]
      exact ih others owned distinct.2 (forall_mem_cons.mp listed).2
    rw [aborted]
    refine ih others (owned.abort found still) distinct.2 ?_
    intro other mem
    have ne : other.sendId ≠ machine.sendId := fun clash => distinct.1 (clash ▸ mem_map_of_mem mem)
    exact (lookup_remove_other ne).trans (listed other (mem_cons_of_mem machine mem))

theorem Owned.listed :
    ∀ machine ∈ hub.core.receivers, hub.core.receiver machine.sendId = some machine :=
  fun _ mem => lookup_of_mem owned.distinct mem

theorem tick_owned :
    Leaves (tick now hub) (Owned starts chunk rest base) := by
  have senders := leaves_mono (tick_senders_sends now hub fun _ => False)
    fun _ side => owned.sender side.toSenderSide
  refine ensures_bind senders fun ticked held => ?_
  exact fold_owned (fun hub machine _ => tick_receiver_cases now hub machine) held held.distinct
    held.listed

theorem drop_hub_owned (quiet : ∀ machine ∈ hub.core.receivers, machine.committing = false) :
    Leaves (dropHub now hub) (Owned starts chunk rest base) := by
  have aborted :=
    fold_owned (fun _ machine mem => .inr ⟨quiet machine mem, rfl⟩) owned owned.distinct
      owned.listed
  exact leaves_mono (drop_hub_sends fun _ => False) fun _ side => aborted.sender side.toSenderSide

end

theorem receivers_aborted (machines : List ReceiverMachine) (hub : Hub) :
    (machines.foldl (fun hub machine => abortReceiver machine hub) hub).core.receivers =
      hub.core.receivers.filter fun machine => machine.sendId ∉ machines.map (·.sendId) := by
  induction machines generalizing hub with
  | nil => simp
  | cons machine later ih =>
    rw [foldl_cons, ih]
    show (remove _ machine.sendId hub.core.receivers).filter _ = _
    unfold remove
    rw [filter_filter]
    apply filter_congr
    intro other _
    by_cases first : other.sendId = machine.sendId <;>
      by_cases listed : other.sendId ∈ later.map (·.sendId) <;> simp [first, listed]

theorem drop_hub_receivers : Leaves (dropHub now hub) fun last => last.core.receivers = [] := by
  have emptied : hub.aborted.core.receivers = [] := by
    rw [receivers_aborted]
    apply filter_eq_nil_iff.mpr
    intro machine mem
    have listed : machine.sendId ∈ hub.core.receivers.map (·.sendId) := mem_map_of_mem mem
    simp only [listed, not_true_eq_false, decide_false, Bool.false_eq_true, not_false_eq_true]
  exact leaves_mono (drop_hub_sends fun _ => False) fun _ side => side.receivers.trans emptied

end Steps

end Dataflow.Peer
