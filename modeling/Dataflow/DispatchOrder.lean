import Dataflow.Dispatcher
import Dataflow.VerbFootprint
import Mathlib.Data.Set.Basic
import Mathlib.Order.Disjoint
import Mathlib.Order.CompletePartialOrder

/-!
The order in which queued verbs take effect on an object. A history records, next to
the dispatcher's state, which objects each served call touched and which ones each
restore filled when its job ended, under the ticket of the call. Unparked calls go to
the tail of the queue, so the order of submission survives only where no call that may
write the same object is queued behind a waiting one when its lease is gone.
-/

namespace Dataflow.Service

open StatefulOutcome EngineState
open List hiding Disjoint

namespace EngineState

def Reach.meets : Reach → Reach → Bool
  | .nothing, _ | _, .nothing => false
  | .only first, .only second => first = second
  | _, _ => true

theorem Reach.meets_of_holds {first second : Reach} {id : String} (left : first.Holds id)
    (right : second.Holds id) : first.meets second = true := by
  cases first with
  | nothing => cases left
  | anything =>
    cases second with
    | nothing => cases right
    | only other => rfl
    | anything => rfl
  | only one =>
    cases second with
    | nothing => cases right
    | only other => exact decide_eq_true (Eq.trans (Eq.symm left) right)
    | anything => rfl

theorem Reach.meets_comm (first second : Reach) : first.meets second = second.meets first := by
  cases first <;> cases second <;> simp [Reach.meets, eq_comm]

/-- The one object a verb writes is leased, so no verb writes it now. -/
def Reach.Guarded (store : Store) : Reach → Prop
  | .only id => 0 < store.refs id
  | .nothing | .anything => False

instance (store : Store) : (reach : Reach) → Decidable (reach.Guarded store)
  | .only id => inferInstanceAs (Decidable (0 < store.refs id))
  | .nothing => inferInstanceAs (Decidable False)
  | .anything => inferInstanceAs (Decidable False)

end EngineState

namespace Dispatcher

variable {Digest : Type}

/-- None of the other calls may write what this one may. -/
def Clear (call : QueuedCall Digest) (others : List (QueuedCall Digest)) : Prop :=
  ∀ other ∈ others, call.call.reach.meets other.call.reach = false

instance (call : QueuedCall Digest) (others : List (QueuedCall Digest)) :
    Decidable (Clear call others) :=
  inferInstanceAs (Decidable (∀ other ∈ others, _ = false))

/-- The calls that met a lease, in the order they met it. -/
def waiting (dispatcher : Dispatcher Digest) : List (QueuedCall Digest) :=
  dispatcher.parked ++ dispatcher.parking.toList

/-- The calls that are served next, those being put back last. -/
def queued (dispatcher : Dispatcher Digest) : List (QueuedCall Digest) :=
  dispatcher.fifo ++ dispatcher.requeues.flatten

def pending (dispatcher : Dispatcher Digest) : List (QueuedCall Digest) :=
  dispatcher.waiting ++ dispatcher.queued

/-- Once `engine` is reached, each waiting call is still guarded by a lease or has no
rival in the queue. -/
def Unrivalled (dispatcher : Dispatcher Digest) (engine : EngineState Digest) : Prop :=
  ∀ call ∈ dispatcher.waiting,
    call.call.reach.Guarded engine.store ∨ Clear call dispatcher.queued

instance (dispatcher : Dispatcher Digest) (engine : EngineState Digest) :
    Decidable (dispatcher.Unrivalled engine) :=
  inferInstanceAs (Decidable (∀ call ∈ dispatcher.waiting, _ ∨ _))

variable [DecidableEq Digest]

/-- The condition on a step: no call gets a rival queued behind it while it waits
unguarded or is being put back, and unparked calls have none. A restore that fails holds
the only leases on what it created. -/
def Orderly (machine : Machine) (digest : ByteRanges.Bytes → Digest)
    (dispatcher : Dispatcher Digest) : Move Digest → Prop
  | .submit call =>
    Clear ⟨dispatcher.submitted, call⟩ dispatcher.requeues.flatten ∧
      ∀ other ∈ dispatcher.waiting, other.call.reach.Guarded dispatcher.engine.store ∨
        other.call.reach.meets call.reach = false
  | .serve => dispatcher.parking = none → ∀ call ∈ dispatcher.fifo.head?,
      Ensures (dispatcher.engine.handle machine call.call) (fun _ => True) fun error _ =>
        (error.code = .leased → call.call.reach = .anything →
          Clear call (dispatcher.fifo.tail ++ dispatcher.requeues.flatten)) ∧
        (error.code = .peerUnreachable →
          ∀ other ∈ dispatcher.parked, Clear other dispatcher.fifo.tail)
  | .finishSnapshot index => dispatcher.Unrivalled (dispatcher.finishSnapshot digest index).engine
  | .finishSend index => dispatcher.Unrivalled (dispatcher.finishSend index).engine
  | .finishRestore index =>
    dispatcher.Unrivalled (dispatcher.finishRestore digest index).engine ∧
      ∀ job ∈ dispatcher.engine.restoreJobs[index]?,
        (restoreJob digest dispatcher.engine.store job).1 ≠ none →
          ∀ id ∈ job.created, dispatcher.engine.holders.count id ≤ job.targets.count id
  | .unpark => ∀ other ∈ dispatcher.parked,
      Clear other (dispatcher.parking.toList ++ dispatcher.queued)
  | .park | .requeue _ => True

instance (machine : Machine) (digest : ByteRanges.Bytes → Digest) (dispatcher : Dispatcher Digest) :
    DecidablePred (dispatcher.Orderly machine digest) := fun move => by
  cases move <;> dsimp only [Orderly] <;> infer_instance

def OrderlyRun (machine : Machine) (digest : ByteRanges.Bytes → Digest) :
    Dispatcher Digest → List (Move Digest) → Prop
  | _, [] => True
  | dispatcher, move :: moves =>
    dispatcher.Orderly machine digest move ∧
      OrderlyRun machine digest (dispatcher.step machine digest move) moves

instance (machine : Machine) (digest : ByteRanges.Bytes → Digest) :
    (dispatcher : Dispatcher Digest) → (moves : List (Move Digest)) →
      Decidable (OrderlyRun machine digest dispatcher moves)
  | _, [] => inferInstanceAs (Decidable True)
  | dispatcher, move :: moves =>
    have : Decidable (OrderlyRun machine digest (dispatcher.step machine digest move) moves) :=
      instDecidableOrderlyRun machine digest _ moves
    inferInstanceAs (Decidable (dispatcher.Orderly machine digest move ∧ OrderlyRun _ _ _ moves))

end Dispatcher

/-! ### histories -/

/-- What a call did to the store: the objects it touched. -/
structure Effect where
  ticket : Nat
  objects : Set String

def RestoreJob.objects {Digest : Type} (job : RestoreJob Digest) : Set String :=
  { id | id ∈ job.targets }

structure History (Digest : Type) where
  state : Dispatcher Digest
  effects : List Effect := []
  /-- What the restores in flight will have done when their jobs end. -/
  inFlight : List Effect := []

namespace History

variable {Digest : Type} [DecidableEq Digest]

/-- A served call touches objects at once; the bytes of a restore follow when its job ends. -/
def effectsOf (machine : Machine) (history : History Digest) : Move Digest → List Effect
  | .serve =>
    match history.state.parking, history.state.fifo with
    | none, call :: _ =>
      [⟨call.ticket, { id | Touched history.state.engine (history.state.serve machine).engine id }⟩]
    | _, _ => []
  | .finishRestore index => history.inFlight[index]?.toList
  | _ => []

def flightsAfter (machine : Machine) (history : History Digest) : Move Digest → List Effect
  | .serve =>
    match history.state.parking, history.state.fifo with
    | none, call :: _ =>
      history.inFlight ++ ((history.state.serve machine).engine.restoreJobs.drop
        history.state.engine.restoreJobs.length).map fun job => ⟨call.ticket, job.objects⟩
    | _, _ => history.inFlight
  | .finishRestore index => history.inFlight.eraseIdx index
  | _ => history.inFlight

def step (machine : Machine) (digest : ByteRanges.Bytes → Digest) (history : History Digest)
    (move : Move Digest) : History Digest :=
  { state := history.state.step machine digest move
    effects := history.effects ++ history.effectsOf machine move
    inFlight := history.flightsAfter machine move }

def run (machine : Machine) (digest : ByteRanges.Bytes → Digest) (history : History Digest)
    (moves : List (Move Digest)) : History Digest :=
  moves.foldl (step machine digest) history

end History

/-! ### the queue -/

namespace Dispatcher

variable {Digest : Type} {dispatcher : Dispatcher Digest}
  {call other : QueuedCall Digest} {others : List (QueuedCall Digest)}
  {engine : EngineState Digest}

theorem Clear.symm
    (clear : Clear call others) (mem : other ∈ others) :
    other.call.reach.meets call.call.reach = false :=
  (Reach.meets_comm _ _).trans (clear other mem)

theorem Clear.mono {fewer : List (QueuedCall Digest)}
    (clear : Clear call others) (inside : ∀ other ∈ fewer, other ∈ others) : Clear call fewer :=
  fun other mem => clear other (inside other mem)

/-- Rivals stand in the order they were submitted. -/
def InOrder (first second : QueuedCall Digest) : Prop :=
  first.call.reach.meets second.call.reach = true → first.ticket < second.ticket

theorem in_order_of_clear {first second : QueuedCall Digest}
    (clear : first.call.reach.meets second.call.reach = false) : InOrder first second := by
  intro meets
  rw [clear] at meets
  cases meets

/-- Queue and parked list of a run in which no waiting call is overtaken by a rival. -/
structure Lined (dispatcher : Dispatcher Digest) : Prop where
  sorted : dispatcher.pending.Pairwise InOrder
  bounded : ∀ call ∈ dispatcher.pending, call.ticket < dispatcher.submitted
  apart : dispatcher.requeues.Pairwise fun earlier later => ∀ call ∈ earlier, Clear call later
  unrivalled : dispatcher.Unrivalled dispatcher.engine
  held : ∀ id, dispatcher.engine.store.refs id = dispatcher.engine.holders.count id

theorem submit_mem {call : Call Digest}
    (mem : other ∈ ({ dispatcher with
      submitted := dispatcher.submitted + 1
      fifo := dispatcher.fifo ++ [⟨dispatcher.submitted, call⟩] } : Dispatcher Digest).pending) :
    other = ⟨dispatcher.submitted, call⟩ ∨ other ∈ dispatcher.pending := by
  simp only [pending, waiting, queued, mem_append, mem_singleton] at mem ⊢
  tauto

theorem Lined.submit (lined : Lined dispatcher) (call : Call Digest)
    (back : Clear ⟨dispatcher.submitted, call⟩ dispatcher.requeues.flatten)
    (free : ∀ other ∈ dispatcher.waiting, other.call.reach.Guarded dispatcher.engine.store ∨
      other.call.reach.meets call.reach = false) :
    Lined { dispatcher with
      submitted := dispatcher.submitted + 1
      fifo := dispatcher.fifo ++ [⟨dispatcher.submitted, call⟩] } := by
  let added : QueuedCall Digest := ⟨dispatcher.submitted, call⟩
  let after : Dispatcher Digest := { dispatcher with
    submitted := dispatcher.submitted + 1
    fifo := dispatcher.fifo ++ [added] }
  have split_at : after.pending =
      (dispatcher.waiting ++ dispatcher.fifo) ++ added :: dispatcher.requeues.flatten := by
    show dispatcher.waiting ++ (dispatcher.fifo ++ [added] ++ dispatcher.requeues.flatten) = _
    simp only [append_assoc, singleton_append]
  have split_before : dispatcher.pending =
      (dispatcher.waiting ++ dispatcher.fifo) ++ dispatcher.requeues.flatten := by
    rw [pending, queued, append_assoc]
  have sorted := lined.sorted
  rw [split_before] at sorted
  obtain ⟨front, tail, across⟩ := pairwise_append.mp sorted
  refine { lined with sorted := ?sorted, bounded := ?bounded, unrivalled := ?unrivalled }
  case sorted =>
    rw [split_at]
    apply pairwise_append.mpr
    refine ⟨front, pairwise_cons.mpr ⟨?_, tail⟩, ?_⟩
    · intro other mem
      exact in_order_of_clear (back other mem)
    intro first early second late
    rcases mem_cons.mp late with new | old
    · rw [new]
      intro _
      apply lined.bounded
      rw [split_before]
      exact mem_append_left _ early
    · exact across first early second old
  case bounded =>
    intro other mem
    rcases submit_mem mem with new | old
    · rw [new]
      exact Nat.lt_succ_self _
    · exact Nat.lt_succ_of_lt (lined.bounded other old)
  case unrivalled =>
    intro other mem
    rcases free other mem with guarded | apart
    · exact .inl guarded
    refine (lined.unrivalled other mem).imp_right fun clear => ?_
    intro rival there
    change rival ∈ dispatcher.fifo ++ [added] ++ dispatcher.requeues.flatten at there
    simp only [mem_append, mem_singleton] at there
    rcases there with (early | new) | late
    · exact clear rival (mem_append_left _ early)
    · exact new ▸ apart
    · exact clear rival (mem_append_right _ late)

theorem park_pending (dispatcher : Dispatcher Digest) :
    dispatcher.park.pending = dispatcher.pending ∧ dispatcher.park.waiting = dispatcher.waiting := by
  unfold Dispatcher.park
  split
  · exact ⟨rfl, rfl⟩
  next call parking =>
  have same : ({ dispatcher with
      parked := dispatcher.parked ++ [call], parking := none } : Dispatcher Digest).waiting =
      dispatcher.waiting := by
    simp only [waiting, parking, Option.toList_none, Option.toList_some, append_nil]
  exact ⟨by simp only [pending, same]; rfl, same⟩

theorem Lined.park (lined : Lined dispatcher) : Lined dispatcher.park := by
  obtain ⟨pended, waits⟩ := park_pending dispatcher
  have kept : dispatcher.park.requeues = dispatcher.requeues ∧
      dispatcher.park.queued = dispatcher.queued ∧
      dispatcher.park.engine = dispatcher.engine ∧
      dispatcher.park.submitted = dispatcher.submitted := by
    unfold Dispatcher.park
    split <;> exact ⟨rfl, rfl, rfl, rfl⟩
  obtain ⟨requeues, queue, engine, count⟩ := kept
  constructor
  · rw [pended]
    exact lined.sorted
  · rw [pended, count]
    exact lined.bounded
  · rw [requeues]
    exact lined.apart
  · rw [Unrivalled, waits, queue, engine]
    exact lined.unrivalled
  · rw [engine]
    exact lined.held

theorem unpark_pending (coming : dispatcher.unparks ≠ 0) : dispatcher.unpark.pending =
      (dispatcher.parking.toList ++ dispatcher.queued) ++ dispatcher.parked := by
  rw [Dispatcher.unpark, if_neg coming]
  show ([] ++ dispatcher.parking.toList) ++
    (dispatcher.fifo ++ (dispatcher.requeues ++ [dispatcher.parked]).flatten) = _
  simp only [queued, flatten_append, flatten_singleton, nil_append, append_assoc]

theorem unpark_mem (call : QueuedCall Digest) :
    call ∈ dispatcher.unpark.pending ↔ call ∈ dispatcher.pending := by
  by_cases idle : dispatcher.unparks = 0
  · rw [Dispatcher.unpark, if_pos idle]
  · rw [unpark_pending idle]
    simp only [pending, waiting, mem_append]
    tauto

theorem Lined.unpark (lined : Lined dispatcher) (clear : ∀ other ∈ dispatcher.parked,
      Clear other (dispatcher.parking.toList ++ dispatcher.queued)) : Lined dispatcher.unpark := by
  by_cases idle : dispatcher.unparks = 0
  · rw [Dispatcher.unpark, if_pos idle]
    exact lined
  have sorted := lined.sorted
  rw [pending, waiting, append_assoc] at sorted
  obtain ⟨parked, others, _⟩ := pairwise_append.mp sorted
  have shape : dispatcher.unpark = { dispatcher with
      parked := []
      unparks := dispatcher.unparks - 1
      requeues := dispatcher.requeues ++ [dispatcher.parked] } := by
    rw [Dispatcher.unpark, if_neg idle]
  have sorted : dispatcher.unpark.pending.Pairwise InOrder := by
    rw [unpark_pending idle]
    apply pairwise_append.mpr
    refine ⟨others, parked, ?_⟩
    intro first early second late
    exact in_order_of_clear ((clear second late).symm early)
  have bounded : ∀ call ∈ dispatcher.unpark.pending, call.ticket < dispatcher.submitted :=
    fun call mem => lined.bounded call ((unpark_mem call).mp mem)
  rw [shape] at sorted bounded ⊢
  refine { lined with sorted := sorted, bounded := bounded, apart := ?apart, unrivalled := ?unrivalled }
  case apart =>
    apply pairwise_append.mpr
    refine ⟨lined.apart, pairwise_singleton _ _, ?_⟩
    intro earlier listed later last call mem other there
    rw [mem_singleton.mp last] at there
    apply (clear other there).symm
    apply mem_append_right
    apply mem_append_right
    exact mem_flatten_of_mem listed mem
  case unrivalled =>
    intro call mem
    change call ∈ [] ++ dispatcher.parking.toList at mem
    have before : call ∈ dispatcher.waiting := mem_append_right _ mem
    refine (lined.unrivalled call before).imp_right fun alone => ?_
    intro other there
    change other ∈ dispatcher.fifo ++
      (dispatcher.requeues ++ [dispatcher.parked]).flatten at there
    rw [flatten_append, flatten_singleton, ← append_assoc] at there
    rcases mem_append.mp there with old | woken
    · exact alone other old
    · exact (clear other woken).symm (mem_append_left _ mem)

section Requeue

variable {lists : List (List (QueuedCall Digest))} {index : Nat} {head : QueuedCall Digest}
  {rest : List (QueuedCall Digest)}

theorem take_front (apart : lists.Pairwise fun earlier later => ∀ call ∈ earlier, Clear call later)
    (sorted : lists.flatten.Pairwise InOrder) (found : lists[index]? = some (head :: rest)) :
    (head :: (lists.set index rest).flatten).Pairwise InOrder ∧
      (lists.set index rest).Pairwise (fun earlier later => ∀ call ∈ earlier, Clear call later) ∧
      lists.flatten.Perm (head :: (lists.set index rest).flatten) := by
  induction lists generalizing index with
  | nil => cases found
  | cons first more ih =>
    obtain ⟨clear, later⟩ := pairwise_cons.mp apart
    cases index with
    | zero =>
      cases found
      refine ⟨sorted, pairwise_cons.mpr ⟨?_, later⟩, .refl _⟩
      intro list listed call mem
      exact clear list listed call (mem_cons_of_mem head mem)
    | succ index =>
      have there := found
      obtain ⟨front, tail, across⟩ := pairwise_append.mp sorted
      obtain ⟨ordered, kept, moved⟩ := ih later tail there
      obtain ⟨least, ordered⟩ := pairwise_cons.mp ordered
      have passed : ∀ call ∈ first, call.call.reach.meets head.call.reach = false :=
        fun call mem => clear _ (mem_of_getElem? there) call mem head
          mem_cons_self
      have inside {list : List (QueuedCall Digest)} (listed : list ∈ more.set index rest)
          {call : QueuedCall Digest} (mem : call ∈ list) :
          ∃ old ∈ more, call ∈ old := by
        rcases mem_or_eq_of_mem_set listed with old | new
        · exact ⟨list, old, mem⟩
        · exact ⟨_, mem_of_getElem? there, mem_cons_of_mem head (new ▸ mem)⟩
      refine ⟨?_, ?_, ?_⟩
      · apply pairwise_cons.mpr
        constructor
        · intro call mem
          rcases mem_append.mp mem with early | late
          · exact in_order_of_clear ((Reach.meets_comm _ _).trans (passed call early))
          · exact least call late
        apply pairwise_append.mpr
        refine ⟨front, ordered, ?_⟩
        intro call early other late
        apply across call early
        exact moved.mem_iff.mpr (mem_cons_of_mem head late)
      · apply pairwise_cons.mpr
        refine ⟨?_, kept⟩
        intro list listed call mem other there
        obtain ⟨old, before, was⟩ := inside listed there
        exact clear old before call mem other was
      · exact (moved.append_left first).trans perm_middle

end Requeue

theorem Lined.requeue (lined : Lined dispatcher) (index : Nat) : Lined (dispatcher.requeue index) ∧
      ∀ call, call ∈ (dispatcher.requeue index).pending → call ∈ dispatcher.pending := by
  have sorted := lined.sorted
  rw [pending, queued, ← append_assoc] at sorted
  obtain ⟨front, back, across⟩ := pairwise_append.mp sorted
  unfold Dispatcher.requeue
  split
  · next call rest taken =>
    obtain ⟨ordered, kept, moved⟩ := take_front lined.apart back taken
    let after : Dispatcher Digest := { dispatcher with
      fifo := dispatcher.fifo ++ [call]
      requeues := dispatcher.requeues.set index rest }
    have shape : after.pending = (dispatcher.waiting ++ dispatcher.fifo) ++
        call :: (dispatcher.requeues.set index rest).flatten := by
      show dispatcher.waiting ++ (dispatcher.fifo ++ [call] ++
        (dispatcher.requeues.set index rest).flatten) = _
      simp only [append_assoc, singleton_append]
    have queue : ∀ other, other ∈ after.queued → other ∈ dispatcher.queued := by
      intro other mem
      change other ∈ dispatcher.fifo ++ [call] ++ (dispatcher.requeues.set index rest).flatten
        at mem
      rw [append_assoc, singleton_append] at mem
      rcases mem_append.mp mem with early | late
      · exact mem_append_left _ early
      · exact mem_append_right _ (moved.mem_iff.mpr late)
    have inside : ∀ other, other ∈ after.pending → other ∈ dispatcher.pending := by
      exact forall_mem_append.mpr ⟨fun other waits => mem_append_left _ waits,
        fun other queues => mem_append_right _ (queue other queues)⟩
    refine ⟨{ lined with
      sorted := ?_, bounded := fun other mem => lined.bounded other (inside other mem)
      apart := kept, unrivalled := ?_ }, inside⟩
    · rw [shape]
      apply pairwise_append.mpr
      refine ⟨front, ordered, ?_⟩
      intro first early second late
      exact across first early second (moved.mem_iff.mpr late)
    · intro other mem
      exact (lined.unrivalled other mem).imp_right fun clear => clear.mono queue
  · exact ⟨lined, fun _ mem => mem⟩

theorem Lined.released (lined : Lined dispatcher)
    (unrivalled : dispatcher.Unrivalled engine)
    (held : ∀ id, engine.store.refs id = engine.holders.count id) :
    Lined (dispatcher.released engine) :=
  { lined with unrivalled := unrivalled, held := held }

/-! ### serving -/

variable {machine : Machine} {digest : ByteRanges.Bytes → Digest}
  {call : QueuedCall Digest} {rest : List (QueuedCall Digest)}

theorem Reach.Guarded.mono {service after : EngineState Digest} {reach : Reach}
    (accounted : Accounted service after) (guarded : reach.Guarded service.store) :
    reach.Guarded after.store := by
  obtain ⟨taken, grown⟩ := accounted
  cases reach with
  | only id =>
    show 0 < after.store.refs id
    rw [(grown id).1]
    exact Nat.add_pos_left guarded _
  | nothing => exact guarded
  | anything => exact guarded

theorem Lined.finishSnapshot (lined : Lined dispatcher) (index : Nat)
    (unrivalled : dispatcher.Unrivalled (dispatcher.finishSnapshot digest index).engine) :
    Lined (dispatcher.finishSnapshot digest index) := by
  unfold Dispatcher.finishSnapshot at unrivalled ⊢
  split
  · exact lined
  next job found =>
  rw [found] at unrivalled
  refine Lined.released lined ?rivals fun id => ?held
  case rivals => exact unrivalled
  have held := lined.held id
  have erased := count_flat_map_erase found SnapshotJob.leaseIds id
  simp only [snapshotJob, Store.release_leases_refs, holders, count_append] at held ⊢
  omega

theorem Lined.finishSend (lined : Lined dispatcher) (index : Nat)
    (unrivalled : dispatcher.Unrivalled (dispatcher.finishSend index).engine) :
    Lined (dispatcher.finishSend index) := by
  unfold Dispatcher.finishSend at unrivalled ⊢
  split
  · exact lined
  next sent found =>
  rw [found] at unrivalled
  refine Lined.released lined ?rivals fun id => ?held
  case rivals => exact unrivalled
  have held := lined.held id
  have erased := count_flat_map_erase found (fun sent => [sent]) id
  simp only [flatMap_singleton'] at erased
  simp only [Store.release_leases_refs, holders, count_append] at held ⊢
  omega

variable [DecidableEq Digest]

/-- What serving a call does to the queue: the call is done, or it waits, or its failed
send has put the parked calls back. -/
inductive Served (dispatcher : Dispatcher Digest) (call : QueuedCall Digest)
    (rest : List (QueuedCall Digest)) (engine : EngineState Digest) : Dispatcher Digest → Prop
  | answered : Served dispatcher call rest engine
      { dispatcher with engine := engine, fifo := rest, parking := none }
  | refused (safe : call.call.reach.Guarded engine.store ∨
        Clear call (rest ++ dispatcher.requeues.flatten)) :
      Served dispatcher call rest engine
        { dispatcher with engine := engine, fifo := rest, parking := some call }
  | unsent (clear : ∀ other ∈ dispatcher.parked, Clear other rest) :
      Served dispatcher call rest engine
        { dispatcher with
          engine := engine, fifo := rest ++ dispatcher.parked, parked := [], parking := none }

theorem serve_cases (idle : dispatcher.parking = none) (queue : dispatcher.fifo = call :: rest)
    (orderly : dispatcher.Orderly machine digest .serve) :
    ∃ engine, Confined call.call.reach.Holds dispatcher.engine engine ∧
      Accounted dispatcher.engine engine ∧
      Served dispatcher call rest engine (dispatcher.serve machine) := by
  have effects := handle_effects machine dispatcher.engine call.call
  have orderly := orderly idle call (by rw [queue]; rfl)
  rw [queue, tail_cons] at orderly
  simp only [Dispatcher.serve, idle, queue]
  cases handled : dispatcher.engine.handle machine call.call with
  | ok engine =>
    rw [handled] at effects
    exact ⟨engine, effects.2, effects.1, .answered⟩
  | error pair =>
    obtain ⟨error, engine⟩ := pair
    rw [handled] at effects orderly
    refine ⟨engine, effects.2.1, effects.1, ?_⟩
    dsimp only
    split_ifs with leased unreachable
    · apply Served.refused
      cases reach : call.call.reach with
      | only id =>
        left
        have guarded := handle_only_leased machine dispatcher.engine reach
        rw [handled] at guarded
        exact guarded leased
      | nothing =>
        right
        intro other _
        rw [reach]
        rfl
      | anything => exact .inr (orderly.1 leased reach)
    · exact .unsent (orderly.2 unreachable)
    · exact .answered

omit [DecidableEq Digest] in
theorem Lined.served {after : Dispatcher Digest}
    (lined : Lined dispatcher) (idle : dispatcher.parking = none)
    (queue : dispatcher.fifo = call :: rest) (accounted : Accounted dispatcher.engine engine)
    (served : Served dispatcher call rest engine after) :
    Lined after ∧ ∀ other, other ∈ after.pending → other ∈ dispatcher.pending := by
  have shape : dispatcher.pending =
      dispatcher.parked ++ (call :: rest ++ dispatcher.requeues.flatten) := by
    simp only [pending, waiting, queued, idle, queue, Option.toList_none, append_nil]
  have waits : dispatcher.waiting = dispatcher.parked := by
    simp only [waiting, idle, Option.toList_none, append_nil]
  have held : ∀ id, engine.store.refs id = engine.holders.count id := by
    obtain ⟨taken, grown⟩ := accounted
    intro id
    rw [(grown id).1, (grown id).2, lined.held id]
  have inside : ∀ other, other ∈ rest ++ dispatcher.requeues.flatten →
      other ∈ dispatcher.queued := by
    intro other mem
    rw [queued, queue]
    exact mem_cons_of_mem call mem
  have still : ∀ other ∈ dispatcher.parked, other.call.reach.Guarded engine.store ∨
      Clear other (rest ++ dispatcher.requeues.flatten) := by
    intro other mem
    rcases lined.unrivalled other (waits ▸ mem) with guarded | clear
    · exact .inl (Reach.Guarded.mono accounted guarded)
    · exact .inr (clear.mono inside)
  have bounded := lined.bounded
  cases served with
  | answered =>
    have left : ({ dispatcher with engine := engine, fifo := rest, parking := none } :
        Dispatcher Digest).pending =
        dispatcher.parked ++ (rest ++ dispatcher.requeues.flatten) := by
      simp only [pending, waiting, queued, Option.toList_none, append_nil]
    have fewer : (dispatcher.parked ++ (rest ++ dispatcher.requeues.flatten)).Sublist
        dispatcher.pending := shape ▸ (Sublist.refl _).append (sublist_cons_self call _)
    refine ⟨⟨left ▸ lined.sorted.sublist fewer, fun other mem => bounded other ?_, lined.apart, ?_,
      held⟩, fun other mem => ?_⟩
    · exact fewer.subset (left ▸ mem)
    · intro other mem
      rw [waiting, Option.toList_none, append_nil] at mem
      exact still other mem
    · exact fewer.subset (left ▸ mem)
  | refused safe =>
    have same : ({ dispatcher with engine := engine, fifo := rest, parking := some call } :
        Dispatcher Digest).pending = dispatcher.pending := by
      rw [shape]
      simp only [pending, waiting, queued, Option.toList_some, append_assoc,
        cons_append, nil_append]
    refine ⟨⟨same ▸ lined.sorted, same ▸ bounded, lined.apart, ?_, held⟩, fun other mem => same ▸ mem⟩
    intro other mem
    rcases mem_append.mp mem with parked | parking
    · exact still other parked
    · rw [Option.toList_some, mem_singleton] at parking
      exact parking ▸ safe
  | unsent clear =>
    have left : ({ dispatcher with
        engine := engine, fifo := rest ++ dispatcher.parked, parked := [], parking := none } :
        Dispatcher Digest).pending =
        rest ++ (dispatcher.parked ++ dispatcher.requeues.flatten) := by
      simp only [pending, waiting, queued, Option.toList_none, append_nil, nil_append, append_assoc]
    have subset : ∀ other ∈ rest ++ (dispatcher.parked ++ dispatcher.requeues.flatten),
        other ∈ dispatcher.pending := by
      intro other mem
      rw [shape]
      simp only [mem_append, mem_cons, cons_append] at mem ⊢
      tauto
    refine ⟨⟨?_, fun other mem => bounded other (subset other (left ▸ mem)), lined.apart,
      forall_mem_nil _, held⟩, fun other mem => subset other (left ▸ mem)⟩
    have sorted := lined.sorted
    rw [shape] at sorted
    obtain ⟨parked, behind, across⟩ := pairwise_append.mp sorted
    obtain ⟨_, behind⟩ := pairwise_cons.mp behind
    obtain ⟨front, tail, between⟩ := pairwise_append.mp behind
    rw [left]
    apply pairwise_append.mpr
    refine ⟨front, pairwise_append.mpr ⟨parked, tail, ?_⟩, ?_⟩
    · intro first early second late
      exact across first early second (mem_cons_of_mem call (mem_append_right _ late))
    · intro first early second late
      rcases mem_append.mp late with woken | requeued
      · exact in_order_of_clear ((clear second woken).symm early)
      · exact between first early second requeued

/-! ### releasing -/

theorem Lined.finishRestore (lined : Lined dispatcher) (index : Nat)
    (orderly : dispatcher.Orderly machine digest (.finishRestore index)) :
    Lined (dispatcher.finishRestore digest index) := by
  obtain ⟨unrivalled, alone⟩ := orderly
  unfold Dispatcher.finishRestore at unrivalled ⊢
  split
  · exact lined
  next job found =>
  rw [found] at unrivalled alone
  refine Lined.released lined ?rivals fun id => ?held
  case rivals => exact unrivalled
  have held := lined.held id
  have erased := count_flat_map_erase found RestoreJob.targets id
  have given := restore_job_refs digest dispatcher.engine.store job id
  split_ifs at given with failed
  · have single := alone job rfl (Option.isSome_iff_ne_none.mp failed.1) id failed.2
    simp only [holders, count_append] at held single ⊢
    omega
  · simp only [holders, count_append] at held ⊢
    omega

end Dispatcher

/-! ### the order of effects -/

namespace Effect

/-- On every object both touch, the earlier effect has no later ticket. -/
def Follows (first second : Effect) : Prop :=
  ∀ id ∈ first.objects, id ∈ second.objects → first.ticket ≤ second.ticket

end Effect

namespace History

open Dispatcher Effect

variable {Digest : Type} {history : History Digest}

structure Ordered (history : History Digest) : Prop where
  lined : Dispatcher.Lined history.state
  /-- One effect in flight for each restore job, on its targets. -/
  flights : history.inFlight.map Effect.objects =
    history.state.engine.restoreJobs.map RestoreJob.objects
  apart : history.inFlight.Pairwise fun first second => Disjoint first.objects second.objects
  past : history.effects.Pairwise Follows
  flying : ∀ done ∈ history.effects, ∀ flight ∈ history.inFlight, Follows done flight
  ahead : ∀ effect, effect ∈ history.effects ∨ effect ∈ history.inFlight →
    ∀ call ∈ history.state.pending, ∀ id ∈ effect.objects, call.call.reach.Holds id →
      effect.ticket ≤ call.ticket
  old : ∀ effect, effect ∈ history.effects ∨ effect ∈ history.inFlight →
    effect.ticket < history.state.submitted

theorem Ordered.leased (ordered : Ordered history) {flight : Effect}
    (flying : flight ∈ history.inFlight) {id : String} (mem : id ∈ flight.objects) :
    0 < history.state.engine.store.refs id := by
  have listed := ordered.flights ▸ mem_map_of_mem flying
  obtain ⟨job, queued, same⟩ := mem_map.mp listed
  have target : id ∈ job.targets := by
    rw [← same] at mem
    exact mem
  rw [ordered.lined.held id, count_pos_iff]
  apply mem_append_left
  apply mem_append_right
  exact mem_flatMap.mpr ⟨job, queued, target⟩

theorem Ordered.quiet {state : Dispatcher Digest} (ordered : Ordered history)
    (lined : Dispatcher.Lined state) (jobs : state.engine.restoreJobs = history.state.engine.restoreJobs)
    (inside : ∀ call ∈ state.pending, call ∈ history.state.pending)
    (count : state.submitted = history.state.submitted) :
    Ordered { history with state := state, effects := history.effects ++ [] } := by
  rw [append_nil]
  exact { ordered with
    lined := lined
    flights := ordered.flights.trans (by rw [jobs])
    ahead := fun effect known call mem => ordered.ahead effect known call (inside call mem)
    old := fun effect known => count ▸ ordered.old effect known }

theorem Ordered.submit (ordered : Ordered history) (call : Call Digest)
    (back : Clear ⟨history.state.submitted, call⟩ history.state.requeues.flatten)
    (free : ∀ other ∈ history.state.waiting,
      other.call.reach.Guarded history.state.engine.store ∨
        other.call.reach.meets call.reach = false) :
    Ordered { history with
      state := { history.state with
        submitted := history.state.submitted + 1
        fifo := history.state.fifo ++ [⟨history.state.submitted, call⟩] }
      effects := history.effects ++ [] } := by
  rw [append_nil]
  refine { ordered with
    lined := ordered.lined.submit call back free
    ahead := ?_
    old := fun effect known => Nat.lt_succ_of_lt (ordered.old effect known) }
  intro effect known other mem
  rcases submit_mem mem with new | old
  · intro id _ _
    rw [new]
    exact Nat.le_of_lt (ordered.old effect known)
  · exact ordered.ahead effect known other old

/-! ### serving -/

section Serve

variable {call : QueuedCall Digest} {rest : List (QueuedCall Digest)}

/-- What the served call may write and nobody leases, no other pending call with an
earlier ticket may write. -/
theorem Ordered.first (ordered : Ordered history)
    (queue : history.state.fifo = call :: rest) {id : String} (reaches : call.call.reach.Holds id)
    (free : history.state.engine.store.refs id = 0) {other : QueuedCall Digest}
    (pends : other ∈ history.state.pending) (holds : other.call.reach.Holds id) :
    call.ticket ≤ other.ticket := by
  have here : call ∈ history.state.queued := by
    rw [queued, queue]
    exact mem_cons_self
  rcases mem_append.mp pends with waits | queues
  · -- a waiting call is guarded by a lease, or is no rival of the served one
    exfalso
    rcases ordered.lined.unrivalled other waits with guarded | clear
    · cases reach : other.call.reach with
      | only one =>
        rw [reach] at guarded holds
        have same := holds
        have positive : 0 < history.state.engine.store.refs one := guarded
        rw [← same, free] at positive
        exact Nat.lt_irrefl 0 positive
      | nothing =>
        rw [reach] at guarded
        exact guarded
      | anything =>
        rw [reach] at guarded
        exact guarded
    · have meets := Reach.meets_of_holds holds reaches
      rw [clear call here] at meets
      cases meets
  · rw [queued, queue] at queues
    rcases mem_cons.mp queues with same | later
    · exact Nat.le_of_eq (congrArg QueuedCall.ticket same).symm
    have sorted := ordered.lined.sorted
    rw [pending, queued, queue] at sorted
    obtain ⟨_, behind, _⟩ := pairwise_append.mp sorted
    have before := (pairwise_cons.mp behind).1 other later
    exact Nat.le_of_lt (before (Reach.meets_of_holds reaches holds))

theorem new_flights {engine : EngineState Digest}
    (confined : Confined call.call.reach.Holds history.state.engine engine) :
    ∃ started : List (RestoreJob Digest),
      engine.restoreJobs.drop history.state.engine.restoreJobs.length = started ∧
      engine.restoreJobs = history.state.engine.restoreJobs ++ started ∧ started.length ≤ 1 ∧
      ∀ job ∈ started, ∀ id ∈ job.objects,
        call.call.reach.Holds id ∧ history.state.engine.store.refs id = 0 := by
  rcases confined.jobs with same | ⟨job, added, free⟩
  · refine ⟨[], ?_, ?_, Nat.zero_le _, forall_mem_nil _⟩
    · rw [same, drop_length]
    · rw [same, append_nil]
  refine ⟨[job], ?_, added, Nat.le_refl 1, ?_⟩
  · rw [added, drop_left]
  · intro other mem id target
    rw [mem_singleton.mp mem] at target
    exact free id target

theorem Ordered.served {engine : EngineState Digest} {state : Dispatcher Digest}
    (ordered : Ordered history) (queue : history.state.fifo = call :: rest)
    (confined : Confined call.call.reach.Holds history.state.engine engine)
    (lined : Dispatcher.Lined state) (reached : state.engine = engine)
    (inside : ∀ other ∈ state.pending, other ∈ history.state.pending)
    (count : state.submitted = history.state.submitted) :
    Ordered
      { state := state
        effects := history.effects ++
          [⟨call.ticket, { id | Touched history.state.engine state.engine id }⟩]
        inFlight := history.inFlight ++ (state.engine.restoreJobs.drop
          history.state.engine.restoreJobs.length).map fun job => ⟨call.ticket, job.objects⟩ } := by
  subst reached
  obtain ⟨started, dropped, jobs, single, targets⟩ := new_flights confined
  rw [dropped]
  let effect : Effect := ⟨call.ticket, { id | Touched history.state.engine state.engine id }⟩
  have pends : call ∈ history.state.pending := by
    apply mem_append_right
    rw [queued, queue]
    exact mem_cons_self
  have touched : ∀ id ∈ effect.objects,
      call.call.reach.Holds id ∧ history.state.engine.store.refs id = 0 :=
    fun id mem => confined.touched mem
  have fresh : ∀ flight ∈ started.map (fun job => (⟨call.ticket, job.objects⟩ : Effect)),
      flight.ticket = call.ticket ∧ ∀ id ∈ flight.objects,
        call.call.reach.Holds id ∧ history.state.engine.store.refs id = 0 := by
    intro flight mem
    obtain ⟨job, listed, same⟩ := mem_map.mp mem
    rw [← same]
    exact ⟨rfl, targets job listed⟩
  have sources : ∀ known, known ∈ history.effects ++ [effect] ∨ known ∈ history.inFlight ++
        started.map (fun job => (⟨call.ticket, job.objects⟩ : Effect)) →
      (known ∈ history.effects ∨ known ∈ history.inFlight) ∨
        known.ticket = call.ticket ∧ ∀ id ∈ known.objects,
          call.call.reach.Holds id ∧ history.state.engine.store.refs id = 0 := by
    rintro known (done | flying)
    · rcases mem_append.mp done with earlier | last
      · exact .inl (.inl earlier)
      · exact .inr (mem_singleton.mp last ▸ ⟨rfl, touched⟩)
    · exact (mem_append.mp flying).imp .inr (fresh known)
  constructor
  · exact lined
  · rw [map_append, ordered.flights, jobs, map_append, map_map]
    rfl
  · apply pairwise_append.mpr
    refine ⟨ordered.apart, ?_, ?_⟩
    · cases started with
      | nil => exact Pairwise.nil
      | cons job more =>
        have last := length_eq_zero_iff.mp (Nat.le_zero.mp (Nat.le_of_succ_le_succ single))
        rw [last]
        exact pairwise_singleton _ _
    · intro flight flying new mem
      apply Set.disjoint_left.mpr
      intro id filled target
      have leased := ordered.leased flying filled
      rw [((fresh new mem).2 id target).2] at leased
      exact Nat.lt_irrefl 0 leased
  · apply pairwise_append.mpr
    refine ⟨ordered.past, pairwise_singleton _ _, ?_⟩
    intro done mem last here id before now
    rw [mem_singleton.mp here] at now ⊢
    exact ordered.ahead done (.inl mem) call pends id before (touched id now).1
  · intro done mem flight flying id before filled
    rcases mem_append.mp mem with earlier | last
    · rcases mem_append.mp flying with old | new
      · exact ordered.flying done earlier flight old id before filled
      · rw [(fresh flight new).1]
        exact ordered.ahead done (.inl earlier) call pends id before ((fresh flight new).2 id filled).1
    rw [mem_singleton.mp last] at before ⊢
    rcases mem_append.mp flying with old | new
    · have leased := ordered.leased old filled
      rw [(touched id before).2] at leased
      exact absurd leased (Nat.lt_irrefl 0)
    · exact Nat.le_of_eq (fresh flight new).1.symm
  · intro known listed other mem id filled holds
    have before := inside other mem
    rcases sources known listed with old | ⟨ticket, reach⟩
    · exact ordered.ahead known old other before id filled holds
    · rw [ticket]
      exact ordered.first queue (reach id filled).1 (reach id filled).2 before holds
  · intro known listed
    rw [count]
    rcases sources known listed with old | ⟨ticket, _⟩
    · exact ordered.old known old
    · exact ticket ▸ ordered.lined.bounded call pends

end Serve

/-! ### runs -/

variable {machine : Machine} {digest : ByteRanges.Bytes → Digest}

theorem served_state {dispatcher after : Dispatcher Digest} {call : QueuedCall Digest}
    {rest : List (QueuedCall Digest)} {engine : EngineState Digest}
    (served : Served dispatcher call rest engine after) :
    after.engine = engine ∧ after.submitted = dispatcher.submitted := by
  cases served <;> exact ⟨rfl, rfl⟩

theorem boot_ordered (slab : ByteRanges.Memory) (allocator : SlabAllocator)
    (programs : List ProgramEntry) :
    Ordered ({ state := boot slab allocator programs } : History Digest) where
  lined :=
    { sorted := Pairwise.nil
      bounded := forall_mem_nil _
      apart := Pairwise.nil
      unrivalled := forall_mem_nil _
      held := fun _ => rfl }
  flights := rfl
  apart := Pairwise.nil
  past := Pairwise.nil
  flying := forall_mem_nil _
  ahead := fun _ _ _ mem => absurd mem not_mem_nil
  old := by
    rintro effect (mem | mem)
    · exact absurd mem not_mem_nil
    · exact absurd mem not_mem_nil

variable [DecidableEq Digest]

theorem Ordered.serve (ordered : Ordered history)
    (orderly : history.state.Orderly machine digest .serve) :
    Ordered (history.step machine digest .serve) := by
  cases idle : history.state.parking with
  | some call =>
    have still : history.state.serve machine = history.state := by
      simp only [Dispatcher.serve, idle]
    simp only [History.step, Dispatcher.step, effectsOf, flightsAfter, idle, still]
    exact ordered.quiet ordered.lined rfl (fun _ mem => mem) rfl
  | none =>
    cases queue : history.state.fifo with
    | nil =>
      have still : history.state.serve machine = history.state := by
        simp only [Dispatcher.serve, idle, queue]
      simp only [History.step, Dispatcher.step, effectsOf, flightsAfter, idle, queue, still]
      exact ordered.quiet ordered.lined rfl (fun _ mem => mem) rfl
    | cons call rest =>
      obtain ⟨engine, confined, accounted, served⟩ := serve_cases idle queue orderly
      obtain ⟨lined, inside⟩ := ordered.lined.served idle queue accounted served
      obtain ⟨reached, count⟩ := served_state served
      simp only [History.step, Dispatcher.step, effectsOf, flightsAfter, idle, queue]
      exact ordered.served queue confined lined reached inside count

theorem Ordered.finishRestore (ordered : Ordered history) (index : Nat)
    (orderly : history.state.Orderly machine digest (.finishRestore index)) :
    Ordered (history.step machine digest (.finishRestore index)) := by
  have lined := ordered.lined.finishRestore index orderly
  cases found : history.state.engine.restoreJobs[index]? with
  | none =>
    have still : history.state.finishRestore digest index = history.state := by
      simp only [Dispatcher.finishRestore, found]
    have landed : history.inFlight[index]? = none := by
      have lengths := congrArg length ordered.flights
      rw [length_map, length_map] at lengths
      rw [getElem?_eq_none_iff] at found ⊢
      rw [lengths]
      exact found
    simp only [History.step, Dispatcher.step, effectsOf, flightsAfter, landed, still,
      Option.toList_none, eraseIdx_of_length_le (getElem?_eq_none_iff.mp landed)]
    exact ordered.quiet ordered.lined rfl (fun _ mem => mem) rfl
  | some job =>
    have objects := congrArg (fun list => list[index]?) ordered.flights
    simp only [getElem?_map, found, Option.map_some] at objects
    obtain ⟨flight, flying, filled⟩ := Option.map_eq_some_iff.mp objects
    have mem := mem_of_getElem? flying
    obtain ⟨bound, here⟩ := List.getElem?_eq_some_iff.mp flying
    have order := here ▸ getElem_cons_eraseIdx_perm bound
    have pairs := (order.pairwise_iff fun apart => apart.symm).mpr ordered.apart
    obtain ⟨alone, apart⟩ := pairwise_cons.mp pairs
    have jobs : (history.state.finishRestore digest index).engine.restoreJobs =
        history.state.engine.restoreJobs.eraseIdx index := by
      simp only [Dispatcher.finishRestore, found, Dispatcher.released]
    have kept : (history.state.finishRestore digest index).pending = history.state.pending ∧
        (history.state.finishRestore digest index).submitted = history.state.submitted := by
      simp only [Dispatcher.finishRestore, found]
      exact ⟨rfl, rfl⟩
    have landed : ∀ effect,
        effect ∈ history.effects ++ [flight] ∨ effect ∈ history.inFlight.eraseIdx index →
          effect ∈ history.effects ∨ effect ∈ history.inFlight := by
      rintro effect (done | still)
      · rcases mem_append.mp done with before | now
        · exact .inl before
        · exact .inr (mem_singleton.mp now ▸ mem)
      · exact .inr (mem_of_mem_eraseIdx still)
    simp only [History.step, Dispatcher.step, effectsOf, flightsAfter, flying, Option.toList_some]
    constructor
    · exact lined
    · rw [jobs, ← eraseIdx_map, ← eraseIdx_map, ordered.flights]
    · exact apart
    · apply pairwise_append.mpr
      refine ⟨ordered.past, pairwise_singleton _ _, ?_⟩
      intro done before last now
      rw [mem_singleton.mp now]
      exact ordered.flying done before flight mem
    · intro done known other still id touched target
      rcases mem_append.mp known with before | now
      · exact ordered.flying done before other (mem_of_mem_eraseIdx still) id touched target
      · -- two restores in flight have no target in common
        rw [mem_singleton.mp now] at touched
        exact absurd target (Set.disjoint_left.mp (alone other still) touched)
    · intro effect known call pends
      exact ordered.ahead effect (landed effect known) call (kept.1 ▸ pends)
    · intro effect known
      rw [kept.2]
      exact ordered.old effect (landed effect known)

theorem Ordered.step (ordered : Ordered history) (move : Move Digest)
    (orderly : history.state.Orderly machine digest move) :
    Ordered (history.step machine digest move) := by
  cases move with
  | submit call => exact ordered.submit call orderly.1 orderly.2
  | serve => exact ordered.serve orderly
  | park =>
    have kept : history.state.park.engine = history.state.engine ∧
        history.state.park.submitted = history.state.submitted := by
      unfold Dispatcher.park
      split <;> exact ⟨rfl, rfl⟩
    exact ordered.quiet ordered.lined.park (congrArg EngineState.restoreJobs kept.1)
      (fun _ mem => (park_pending history.state).1 ▸ mem) kept.2
  | finishSnapshot index =>
    have kept : (history.state.finishSnapshot digest index).engine.restoreJobs =
        history.state.engine.restoreJobs ∧
        (history.state.finishSnapshot digest index).pending = history.state.pending ∧
        (history.state.finishSnapshot digest index).submitted = history.state.submitted := by
      unfold Dispatcher.finishSnapshot
      split <;> exact ⟨rfl, rfl, rfl⟩
    exact ordered.quiet (ordered.lined.finishSnapshot index orderly) kept.1
      (fun _ mem => kept.2.1 ▸ mem) kept.2.2
  | finishRestore index => exact ordered.finishRestore index orderly
  | finishSend index =>
    have kept : (history.state.finishSend index).engine.restoreJobs =
        history.state.engine.restoreJobs ∧
        (history.state.finishSend index).pending = history.state.pending ∧
        (history.state.finishSend index).submitted = history.state.submitted := by
      unfold Dispatcher.finishSend
      split <;> exact ⟨rfl, rfl, rfl⟩
    exact ordered.quiet (ordered.lined.finishSend index orderly) kept.1
      (fun _ mem => kept.2.1 ▸ mem) kept.2.2
  | unpark =>
    have kept : history.state.unpark.engine = history.state.engine ∧
        history.state.unpark.submitted = history.state.submitted := by
      unfold Dispatcher.unpark
      split <;> exact ⟨rfl, rfl⟩
    exact ordered.quiet (ordered.lined.unpark orderly)
      (congrArg EngineState.restoreJobs kept.1) (fun call mem => (unpark_mem call).mp mem) kept.2
  | requeue index =>
    have kept : (history.state.requeue index).engine = history.state.engine ∧
        (history.state.requeue index).submitted = history.state.submitted := by
      unfold Dispatcher.requeue
      split <;> exact ⟨rfl, rfl⟩
    obtain ⟨lined, inside⟩ := ordered.lined.requeue index
    exact ordered.quiet lined (congrArg EngineState.restoreJobs kept.1) inside kept.2

theorem Ordered.run (ordered : Ordered history) (moves : List (Move Digest))
    (orderly : OrderlyRun machine digest history.state moves) :
    Ordered (history.run machine digest moves) := by
  induction moves generalizing history with
  | nil => exact ordered
  | cons move moves ih => exact ih (ordered.step move orderly.1) orderly.2

/-- In every orderly run the effects on an object come in the order of submission. -/
theorem effects_in_submission_order (machine : Machine) (digest : ByteRanges.Bytes → Digest)
    (slab : ByteRanges.Memory) (allocator : SlabAllocator) (programs : List ProgramEntry)
    (moves : List (Move Digest))
    (orderly : OrderlyRun machine digest (boot slab allocator programs) moves) :
    (({ state := boot slab allocator programs } : History Digest).run
      machine digest moves).effects.Pairwise Follows :=
  ((boot_ordered slab allocator programs).run moves orderly).past

/-- The snapshot ends while the refused put is alone; the next put is submitted later. -/
def patientPuts : List (Move Unit) :=
  leasedPut ++ [.park, .finishSnapshot 0, .unpark, .requeue 0, .serve,
    .submit (.putObject "a" (some [3]) []), .serve]

theorem effects_in_submission_order_puts :
    ({ state := smallBoot } : History Unit).run noMachine (fun _ => ()) patientPuts
        |>.effects.Pairwise Follows :=
  effects_in_submission_order noMachine (fun _ => ()) _ _ _ patientPuts (by decide +kernel)

/-- A third put is queued before the snapshot ends, so the refused second put goes behind
it: the store keeps the bytes of the second. -/
theorem later_put_overwritten_by_earlier :
    let last := ({ state := smallBoot } : History Unit).run noMachine (fun _ => ())
      (leasedPut ++ [.park, .submit (.putObject "a" (some [3]) []), .finishSnapshot 0, .unpark,
        .requeue 0, .serve, .serve])
    last.effects.map Effect.ticket = [0, 1, 2, 3, 2] ∧
      last.state.engine.store.objects.map last.state.engine.store.bytes = [[2]] ∧
      last.state.pending = [] := by
  decide +kernel

end History

/-! ### no call is lost -/

namespace Dispatcher

variable {Digest : Type}

/-- The calls a step answers. -/
def answer (machine : Machine) (dispatcher : Dispatcher Digest) : Move Digest → List (QueuedCall Digest)
  | .serve =>
    match dispatcher.parking, dispatcher.fifo with
    | none, call :: _ =>
      match dispatcher.engine.handle machine call.call with
      | .ok _ => [call]
      | .error (error, _) => if error.code = .leased then [] else [call]
    | _, _ => []
  | _ => []

variable [DecidableEq Digest]

def answers (machine : Machine) (digest : ByteRanges.Bytes → Digest) :
    Dispatcher Digest → List (Move Digest) → List (QueuedCall Digest)
  | _, [] => []
  | dispatcher, move :: moves => dispatcher.answer machine move ++
      answers machine digest (dispatcher.step machine digest move) moves

variable {machine : Machine} {digest : ByteRanges.Bytes → Digest}
  {dispatcher : Dispatcher Digest}

/-- Calls change their places or are answered, or the next one is added. -/
def Conserves (before after : Dispatcher Digest) (answered : List (QueuedCall Digest)) : Prop :=
  ∃ new, (after.pending ++ answered).Perm (before.pending ++ new) ∧
    range after.submitted = range before.submitted ++ new.map QueuedCall.ticket

theorem step_conserves (dispatcher : Dispatcher Digest) (move : Move Digest) :
    Conserves dispatcher (dispatcher.step machine digest move) (dispatcher.answer machine move) := by
  have moves : ∀ {after : Dispatcher Digest} {answered : List (QueuedCall Digest)},
      (∀ call, (after.pending ++ answered).count call = dispatcher.pending.count call) →
      after.submitted = dispatcher.submitted → Conserves dispatcher after answered :=
    fun same still => ⟨[], by rwa [append_nil, perm_iff_count], by simp [still]⟩
  have stays := moves (fun call => congrArg (count call) (append_nil dispatcher.pending)) rfl
  cases move with
  | submit call =>
    refine ⟨[⟨dispatcher.submitted, call⟩], perm_iff_count.mpr fun other => ?_, range_succ⟩
    simp [Dispatcher.step, answer, pending, waiting, queued, count_cons]
  | serve =>
    simp only [Dispatcher.step, Dispatcher.serve, answer]
    cases idle : dispatcher.parking with
    | some call => exact stays
    | none =>
      cases queue : dispatcher.fifo with
      | nil => exact stays
      | cons call rest =>
        dsimp only
        cases dispatcher.engine.handle machine call.call with
        | ok engine =>
          refine moves (fun other => ?_) rfl
          simp [pending, waiting, queued, idle, queue, count_cons]
          omega
        | error pair =>
          dsimp only
          split_ifs <;> refine moves (fun other => ?_) rfl <;>
            simp [pending, waiting, queued, idle, queue, count_cons] <;> omega
  | park =>
    simp only [Dispatcher.step, Dispatcher.park, answer]
    split
    · exact stays
    · next call parking =>
      refine moves (fun other => ?_) rfl
      simp [pending, waiting, queued, parking]
  | finishSnapshot index | finishRestore index | finishSend index =>
    simp only [Dispatcher.step, Dispatcher.finishSnapshot, Dispatcher.finishRestore, Dispatcher.finishSend]
    split <;> exact stays
  | unpark =>
    simp only [Dispatcher.step, Dispatcher.unpark]
    split_ifs
    · exact stays
    · refine moves (fun other => ?_) rfl
      simp [pending, waiting, queued, answer]
      omega
  | requeue index =>
    simp only [Dispatcher.step, Dispatcher.requeue]
    split
    · next call rest taken =>
      obtain ⟨bound, here⟩ := List.getElem?_eq_some_iff.mp taken
      refine moves (fun other => ?_) rfl
      have before := (getElem_cons_eraseIdx_perm bound).flatten.count_eq other
      have after := (set_perm_cons_eraseIdx bound rest).flatten.count_eq other
      simp [here, answer, pending, waiting, queued, count_cons] at before after ⊢
      omega
    · exact stays

theorem run_conserves (moves : List (Move Digest)) (answered : List (QueuedCall Digest))
    (conserved : ((dispatcher.pending ++ answered).map QueuedCall.ticket).Perm
      (range dispatcher.submitted)) :
    let last := dispatcher.run machine digest moves
    ((last.pending ++ (answered ++ answers machine digest dispatcher moves)).map
      QueuedCall.ticket).Perm (range last.submitted) := by
  induction moves generalizing dispatcher answered with
  | nil => rwa [answers, append_nil]
  | cons move moves ih =>
    rw [answers, ← append_assoc answered]
    obtain ⟨new, moved, grown⟩ := step_conserves dispatcher move
    refine ih _ (perm_iff_count.mpr fun ticket => ?_)
    have before := conserved.count_eq ticket
    have step := (moved.map QueuedCall.ticket).count_eq ticket
    rw [grown]
    simp only [map_append, count_append] at before step ⊢
    omega

/-- Whatever the threads do, a submitted call waits in one place or was answered, once. -/
theorem calls_conserved (machine : Machine) (digest : ByteRanges.Bytes → Digest)
    (slab : ByteRanges.Memory) (allocator : SlabAllocator) (programs : List ProgramEntry)
    (moves : List (Move Digest)) :
    let start : Dispatcher Digest := boot slab allocator programs
    let last := start.run machine digest moves
    ((last.pending ++ answers machine digest start moves).map QueuedCall.ticket).Perm
      (range last.submitted) :=
  run_conserves moves [] (.refl _)

end Dispatcher

end Dataflow.Service
