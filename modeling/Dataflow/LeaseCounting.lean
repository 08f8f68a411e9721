import Dataflow.DispatchOrder
import Dataflow.LeasePlane

/-!
Every lease has one unfinished job, and every lease an unfinished job took is counted,
as long as the three places that release a lease by name are undisturbed: a writer
thread fails only while its send is under way, a restore fails only while nobody else
holds what it created, and a failed restore gives its leases back before the names of
the objects it created are leased anew. A held object then keeps its place and version.
-/

namespace Dataflow.LeasePlane

open StatefulOutcome ByteRanges Service Peer KeyedTable List

/-! ### verbs start no sends -/

section Verbs

variable {Digest : Type} {Value : Type} {service : EngineState Digest} {machine : Machine}

def Unsending (service : EngineState Digest) (run : ServiceRun Digest Value)
    (state : Value → EngineState Digest) : Prop :=
  Ensures run (fun value => (state value).sends = service.sends)
    fun _ after => after.sends = service.sends

theorem lift_store_unsending (run : StoreRun Value) (store : Value → Store) :
    Unsending service (service.liftStore run) fun value => service.withStore (store value) := by
  cases run with
  | ok value => exact rfl
  | error pair => exact rfl

theorem handle_unsending (call : EngineState.Call Digest)
    (other : ∀ id peer releaseAfter linked, call ≠ .sendObject id peer releaseAfter linked) :
    Unsending service (service.handle machine call) fun after => after := by
  cases call with
  | snapshot slices =>
    exact ensures_bind (lift_store_unsending _ Prod.snd) fun _ kept => kept
  | restoreSnapshot file request =>
    exact ensures_bind (lift_store_unsending _ Prod.snd) fun _ kept => kept
  | sendObject id peer releaseAfter linked => exact absurd rfl (other id peer releaseAfter linked)
  | _ =>
    exact ensures_mono (EngineState.handle_keeps machine service rfl) (fun _ kept => kept.sends)
      fun _ _ kept => kept.1.sends

end Verbs

/-- Where an object is and how often it was written. -/
def place (store : Store) (id : String) : Option (Extent × Nat × Nat) :=
  (store.object id).map fun record => (record.extent, record.sizeBytes, record.version)

section Places

variable {Digest : Type} {store next : Store} {id : String}

theorem place_of_bare (same : next.bare id = store.bare id) : place next id = place store id := by
  have read : ∀ store : Store, place store id =
      (store.bare id).map fun record => (record.extent, record.sizeBytes, record.version) := by
    intro store
    simp [place, Store.bare, Option.map_map, Function.comp_def]
  rw [read, read, same]

theorem release_leases_bare (ids : List String) : (store.releaseLeases ids).bare id = store.bare id :=
  Store.fold_lease_bare _ ids store id

theorem bare_of_objects (same : next.objects = store.objects) : next.bare id = store.bare id := by
  simp only [Store.bare, Store.object, same]

end Places

/-! ### counts -/

theorem perm_thinned {Item : Type} [DecidableEq Item] {before after : List Item}
    (thins : after.Sublist before) (distinct : before.Nodup) :
    before.Perm (before.filter (· ∉ after) ++ after) := by
  apply (perm_ext_iff_of_nodup distinct _).mpr
  · intro item
    simp only [mem_append, mem_filter, decide_eq_true_eq]
    constructor
    · intro listed
      by_cases kept : item ∈ after
      · exact .inr kept
      · exact .inl ⟨listed, kept⟩
    · rintro (⟨listed, _⟩ | kept)
      · exact listed
      · exact thins.subset kept
  · apply (distinct.filter _).append (distinct.sublist thins)
    intro item left right
    simp only [mem_filter, decide_eq_true_eq] at left
    exact left.2 right

namespace Plane

variable {Digest : Type} {plane : Plane Digest} {link : Link} {next : Hub} {now : ℚ}

/-- Every lease is counted once, and send ids of a link are used once. -/
structure Counted (plane : Plane Digest) : Prop where
  refs : ∀ id, plane.store.refs id = plane.holders.count id
  unsent : plane.engine.sends = []
  conns : (plane.links.map Link.conn).Nodup
  fresh : ∀ link ∈ plane.links, link.conn < plane.nextConn
  distinct : ∀ link ∈ plane.links, (link.core.senders.map SenderMachine.sendId).Nodup
  issued : ∀ link ∈ plane.links, ∀ sendId ∈ link.core.senders.map SenderMachine.sendId,
    sendId ≤ link.core.seq
  whole : ∀ restore ∈ plane.releasing, ∀ id ∈ restore.held,
    restore.held.count id = restore.leaseIds.count id

/-- Every lease is still counted, and no object was written. -/
structure Spares (plane after : Plane Digest) : Prop where
  counted : Counted after
  bare : ∀ id, after.store.bare id = plane.store.bare id

theorem Spares.trans {middle after : Plane Digest} (first : Spares plane middle)
    (second : Spares middle after) : Spares plane after :=
  ⟨second.counted, fun id => (second.bare id).trans (first.bare id)⟩

theorem sending_eq (plane : Plane Digest) (link : Link) : plane.sending link =
      (link.core.senders.map SenderMachine.sendId).map (plane.oid link.conn) := by
  simp [sending]

theorem popped_eq (link : Link) (after : Core) :
    popped link after = (link.core.senders.map SenderMachine.sendId).filter
      (· ∉ after.senders.map SenderMachine.sendId) := by
  apply filter_congr
  intro sendId _
  have none : (after.sender sendId).isNone = true ↔
      sendId ∉ after.senders.map SenderMachine.sendId := by
    rw [Option.isNone_iff_eq_none]
    unfold Core.sender
    rw [lookup_none]
    simp
  rw [Bool.eq_iff_iff, none, decide_eq_true_eq]

theorem links_count (conns : (plane.links.map Link.conn).Nodup)
    (found : plane.link link.conn = some link) (written : Link) (before after : Link → List String)
    (others : ∀ entry ∈ plane.links, entry.conn ≠ link.conn → after entry = before entry)
    (id : String) :
    ((update Link.conn link.conn (fun _ => written) plane.links).flatMap after).count id +
        (before link).count id =
      (plane.links.flatMap before).count id + (after written).count id := by
  have first := ((perm_remove conns found).flatMap_right before).count_eq id
  have last := ((update_perm written conns found).flatMap_right after).count_eq id
  have rest : (remove Link.conn link.conn plane.links).flatMap after =
      (remove Link.conn link.conn plane.links).flatMap before := by
    apply flatMap_congr
    intro entry kept
    obtain ⟨mem, ne⟩ := mem_filter.mp kept
    exact others entry mem (by simpa using ne)
  rw [flatMap_cons, count_append] at first last
  rw [rest] at last
  omega

section

variable (counted : Counted plane)
include counted

theorem Counted.write (found : plane.link link.conn = some link)
    (after : Plane Digest) (written : Link) (same : written.conn = link.conn) (links : after.links =
      update Link.conn link.conn (fun _ => written) plane.links)
    (jobs : after.engine.snapshotJobs = plane.engine.snapshotJobs ∧
      after.engine.restoreJobs = plane.engine.restoreJobs ∧ after.releasing = plane.releasing ∧
      after.engine.sends = plane.engine.sends)
    (others : ∀ entry ∈ plane.links, entry.conn ≠ link.conn →
      after.sending entry = plane.sending entry) (nextConn : after.nextConn = plane.nextConn)
    (distinct : (written.core.senders.map SenderMachine.sendId).Nodup)
    (issued : ∀ sendId ∈ written.core.senders.map SenderMachine.sendId, sendId ≤ written.core.seq)
    (refs : ∀ id, after.store.refs id + (plane.sending link).count id =
      plane.store.refs id + (after.sending written).count id) : Counted after := by
  obtain ⟨snapshots, restores, releasing, sends⟩ := jobs
  refine ⟨fun id => ?_, sends.trans counted.unsent, ?_, ?_, ?_, ?_, releasing ▸ counted.whole⟩ <;>
    try rw [links]
  · have moved := refs id
    have before := counted.refs id
    have shifted := links_count counted.conns found written plane.sending after.sending others id
    simp only [holders, count_append] at before ⊢
    rw [snapshots, restores, releasing, links]
    omega
  · rw [keys_write same]
    exact counted.conns
  · rw [nextConn]
    exact forall_mem_write counted.fresh (same ▸ counted.fresh link (lookup_mem found))
  · exact forall_mem_write counted.distinct distinct
  · exact forall_mem_write counted.issued issued

theorem Counted.settle (found : plane.link link.conn = some link)
    (works : Works True (plane.hub link) next) : Spares plane (plane.settle link next) := by
  refine ⟨?_, fun _ => (release_leases_bare _).trans (bare_of_objects works.objects)⟩
  have mem := lookup_mem found
  have senders : (next.core.senders.map SenderMachine.sendId).Sublist
      (link.core.senders.map SenderMachine.sendId) := works.order
  have distinct := counted.distinct link mem
  refine counted.write found (plane.settle link next) { link with core := next.core } rfl rfl
    ⟨rfl, rfl, rfl, rfl⟩ (fun _ _ _ => rfl) rfl (distinct.sublist senders) ?_ fun id => ?_
  · intro sendId listed
    have bound := counted.issued link mem sendId (senders.subset listed)
    rw [works.seq]
    exact bound
  have objects : Store.SameLeases plane.store next.env.store := Store.refs_of_objects works.objects
  have order := ((perm_thinned senders distinct).map (plane.oid link.conn)).count_eq id
  rw [map_append, count_append, ← popped_eq] at order
  have held := counted.refs id
  have inside := ((perm_remove counted.conns found).flatMap_right plane.sending).count_eq id
  rw [flatMap_cons, count_append] at inside
  have left : ((plane.settle link next).sending { link with core := next.core }) =
      (next.core.senders.map SenderMachine.sendId).map (plane.oid link.conn) := sending_eq _ _
  show (next.env.store.releaseLeases _).refs id + _ = _
  rw [Store.release_leases_refs, objects id, left]
  simp only [sending_eq] at inside ⊢
  simp only [holders, count_append] at held
  omega

theorem Counted.relink (found : plane.link link.conn = some link)
    (after : Plane Digest) (written : Link) (same : written.conn = link.conn) (links : after.links =
      update Link.conn link.conn (fun _ => written) plane.links)
    (engine : after.engine = plane.engine) (releasing : after.releasing = plane.releasing)
    (oid : after.sending = plane.sending) (nextConn : after.nextConn = plane.nextConn)
    (senders : written.core.senders = link.core.senders) (seq : written.core.seq = link.core.seq) :
    Counted after := by
  have mem := lookup_mem found
  refine counted.write found after written same links
    ⟨by rw [engine], by rw [engine], releasing, by rw [engine]⟩
    (fun entry _ _ => congrFun oid entry) nextConn ?_ ?_ fun id => ?_
  · rw [senders]
    exact counted.distinct link mem
  · rw [senders, seq]
    exact counted.issued link mem
  have unchanged : after.sending written = plane.sending link := by
    rw [oid, sending_eq, sending_eq, senders, same]
  rw [unchanged]
  unfold store
  rw [engine]

end

theorem link_conn {conn : Nat} (found : plane.link conn = some link) : link.conn = conn :=
  lookup_key found

section

variable (counted : Counted plane)
include counted

theorem Counted.drop (found : plane.link link.conn = some link) :
    Spares plane (plane.dropLink link now) := by
  unfold dropLink
  split_ifs
  · exact ⟨counted, fun _ => rfl⟩
  let dead : Link := { link with alive := false }
  let closed : Plane Digest := { plane.putLink dead with
    registered := Function.update plane.registered link.peer none }
  have standing : Spares plane closed :=
    ⟨counted.relink found closed dead rfl rfl rfl rfl rfl rfl rfl rfl, fun _ => rfl⟩
  have there : closed.link dead.conn = some dead := lookup_write_self rfl found
  exact standing.trans (standing.counted.settle there (ensures_reached drop_hub_works))

theorem Counted.on_link (conn : Nat) {move : Hub → CoreRun Hub}
    (works : ∀ hub, Leaves (move hub) (Works True hub)) :
    Spares plane (plane.onLink conn move) := by
  unfold onLink
  split
  · exact ⟨counted, fun _ => rfl⟩
  · next link found =>
    have there := link_conn found ▸ found
    exact counted.settle there (ensures_reached (works (plane.hub link)))

theorem Counted.adopt (peer : String) : Spares plane (plane.adopt peer) := by
  unfold Plane.adopt
  split_ifs
  · exact ⟨counted, fun _ => rfl⟩
  refine ⟨?_, fun _ => rfl⟩
  refine { counted with
    refs := fun id => ?_
    conns := keys_append_nodup counted.conns fun old mem => Nat.ne_of_lt (counted.fresh old mem)
    fresh := forall_mem_concat (fun entry old => Nat.lt_succ_of_lt (counted.fresh entry old))
      (Nat.lt_succ_self _)
    distinct := forall_mem_concat counted.distinct nodup_nil
    issued := forall_mem_concat counted.issued fun sendId listed => by cases listed }
  have before := counted.refs id
  simp only [holders, count_append, flatMap_append] at before ⊢
  exact before

theorem Counted.start (found : plane.link link.conn = some link)
    {oid dest : String} {leased : Store} {payload : Bytes} {overwrite : Bool} {info : Info}
    (taken : Store.Acquired [oid] plane.store leased) :
    let named : Plane Digest := { plane.withStore leased with
      oid := fun conn sendId =>
        if conn = link.conn ∧ sendId = link.core.seq + 1 then oid else plane.oid conn sendId }
    Spares plane (named.settle link
      (startSend now dest payload overwrite info (named.hub link))) := by
  intro named
  have mem := lookup_mem found
  obtain ⟨seq, senders, env, _⟩ := start_send_adds now dest payload overwrite info (named.hub link)
  generalize startSend now dest payload overwrite info (named.hub link) = next at seq senders env ⊢
  have added : next.core.senders.map SenderMachine.sendId =
      link.core.senders.map SenderMachine.sendId ++ [link.core.seq + 1] := senders
  have unknown : link.core.seq + 1 ∉ link.core.senders.map SenderMachine.sendId := fun listed =>
    Nat.not_succ_le_self _ (counted.issued link mem _ listed)
  have kept : popped link next.core = [] := by
    rw [popped_eq, filter_eq_nil_iff, added]
    intro sendId listed
    simp [mem_append, listed]
  have known : ∀ sendId ∈ link.core.senders.map SenderMachine.sendId,
      named.oid link.conn sendId = plane.oid link.conn sendId := by
    intro sendId listed
    have ne : sendId ≠ link.core.seq + 1 := fun same => unknown (same ▸ listed)
    simp [named, ne]
  refine ⟨?_, fun id => ?bare⟩
  case bare => exact (release_leases_bare _).trans (env ▸ taken.bare id)
  refine counted.write found (named.settle link next) { link with core := next.core } rfl rfl
    ⟨rfl, rfl, rfl, rfl⟩ ?others rfl ?distinct ?issued ?refs
  case others =>
    intro entry _ ne
    apply map_congr_left
    intro machine _
    exact if_neg fun both => ne both.1
  case distinct =>
    rw [added]
    apply (counted.distinct link mem).append (nodup_singleton _)
    intro sendId left right
    exact unknown (mem_singleton.mp right ▸ left)
  case issued =>
    rw [added, seq]
    intro sendId listed
    rcases mem_append.mp listed with old | new
    · exact Nat.le_succ_of_le (counted.issued link mem sendId old)
    · exact Nat.le_of_eq (mem_singleton.mp new)
  case refs =>
    intro id
    have own : (named.settle link next).sending { link with core := next.core } =
        plane.sending link ++ [oid] := by
      have ids : (named.settle link next).sending { link with core := next.core } =
          (next.core.senders.map SenderMachine.sendId).map (named.oid link.conn) := sending_eq _ _
      rw [ids, added, map_append, map_congr_left known, ← sending_eq]
      simp [named]
    show (next.env.store.releaseLeases ((popped link next.core).map _)).refs id + _ = _
    rw [kept, own, env, count_append]
    have grown := taken.refs id
    show leased.refs id + _ = _
    omega

theorem Counted.send (oid peer asId : String) (overwrite releaseAfter : Bool) :
    Spares plane (plane.sendObject oid peer asId overwrite releaseAfter now) := by
  have unchanged : Spares plane plane := ⟨counted, fun _ => rfl⟩
  have counts := Store.acquire_leases_acquired plane.store [oid]
  unfold sendObject
  split
  · exact unchanged
  split
  · exact unchanged
  split
  · next store acquired =>
    rw [acquired] at counts
    obtain rfl := counts.1
    exact ⟨{ counted with }, fun _ => rfl⟩
  next leased acquired =>
  rw [acquired] at counts
  split
  · refine ⟨{ counted with refs := fun id => ?_ },
      fun id => (release_leases_bare _).trans (counts.bare id)⟩
    exact (by rw [Store.release_leases_refs, counts.refs id, Nat.add_sub_cancel] :
      (leased.releaseLeases [oid]).refs id = plane.store.refs id).trans (counted.refs id)
  next link chosen =>
  obtain ⟨looked, _⟩ := Option.filter_eq_some_iff.mp chosen
  obtain ⟨conn, _, found⟩ := Option.bind_eq_some_iff.mp looked
  have there := link_conn found ▸ found
  exact counted.start there counts

end

/-! ### verbs and jobs -/

section Jobs

variable {machine : Machine} {digest : Bytes → Digest}

/-- Every lease is still counted, and an object leased before and after stays where it is. -/
structure Keeps (plane after : Plane Digest) : Prop where
  counted : Counted after
  places : ∀ id, plane.store.refs id ≠ 0 → after.store.refs id ≠ 0 →
    place after.store id = place plane.store id

theorem Spares.keeps {after : Plane Digest} (spares : Spares plane after) : Keeps plane after :=
  ⟨spares.counted, fun id _ _ => place_of_bare (spares.bare id)⟩

theorem Counted.serve (counted : Counted plane) (call : EngineState.Call Digest) :
    Keeps plane (plane.serve machine call) := by
  have follow {engine : EngineState Digest} (accounted : EngineState.Accounted plane.engine engine)
      (confined : EngineState.Confined call.reach.Holds plane.engine engine)
      (sends : engine.sends = plane.engine.sends) : Keeps plane { plane with engine := engine } := by
    obtain ⟨taken, grown⟩ := accounted
    refine ⟨{ counted with refs := fun id => ?refs, unsent := sends.trans counted.unsent },
      fun id leased _ => ?place⟩
    case place =>
      exact place_of_bare ((confined.wrote id).resolve_right fun free => leased free.2)
    have before := counted.refs id
    obtain ⟨refs, held⟩ := grown id
    have none := counted.unsent
    simp only [EngineState.holders, sends, none, append_nil, count_append] at held
    simp only [holders, count_append] at before ⊢
    show engine.store.refs id = _
    have same : plane.store.refs id = plane.engine.store.refs id := rfl
    have links : ({ plane with engine := engine } : Plane Digest).links.flatMap
        ({ plane with engine := engine } : Plane Digest).sending =
        plane.links.flatMap plane.sending := rfl
    rw [links]
    omega
  have effects := EngineState.handle_effects machine plane.engine call
  unfold Plane.serve
  split
  · exact ⟨counted, fun _ _ _ => rfl⟩
  next other =>
  have kept : Unsending plane.engine (plane.engine.handle machine call) fun after => after :=
    handle_unsending call other
  split
  · next engine handled =>
    rw [handled] at effects kept
    exact follow effects.1 effects.2 kept
  · next error engine handled =>
    rw [handled] at effects kept
    exact follow effects.1 effects.2.1 kept

theorem Counted.snapshot_done (counted : Counted plane) (index : Nat) :
    Spares plane (plane.snapshotDone digest index) := by
  unfold snapshotDone
  split
  · exact ⟨counted, fun _ => rfl⟩
  next job found =>
  refine ⟨{ counted with refs := fun id => ?_ }, fun _ => release_leases_bare _⟩
  have before := counted.refs id
  have erased := count_flat_map_erase found SnapshotJob.leaseIds id
  simp only [holders, count_append] at before ⊢
  show (plane.store.releaseLeases job.leaseIds).refs id = _
  rw [Store.release_leases_refs]
  show _ = _ + _ + _ + (plane.links.flatMap plane.sending).count id
  omega

theorem Counted.restored (counted : Counted plane) {index : Nat} {job : RestoreJob Digest}
    (found : plane.engine.restoreJobs[index]? = some job) (store : Store) (restore : Releasing)
    (refs : ∀ id, store.refs id + job.targets.count id =
      plane.store.refs id + restore.held.count id)
    (whole : ∀ id ∈ restore.held, restore.held.count id = restore.leaseIds.count id) :
    Counted { plane with
      engine := { plane.engine with
        store := store, restoreJobs := plane.engine.restoreJobs.eraseIdx index }
      releasing := plane.releasing ++ [restore] } := by
  refine { counted with refs := fun id => ?_, whole := forall_mem_concat counted.whole whole }
  have before := counted.refs id
  have erased := count_flat_map_erase found RestoreJob.targets id
  have moved := refs id
  simp only [holders, count_append] at before
  show store.refs id = (_ ++ (plane.engine.restoreJobs.eraseIdx index).flatMap RestoreJob.targets ++
    (plane.releasing ++ [restore]).flatMap Releasing.held ++
    plane.links.flatMap plane.sending).count id
  rw [flatMap_append, flatMap_singleton]
  simp only [count_append]
  omega

variable [DecidableEq Digest]

/-- Nobody else holds what a failing restore created. -/
def Alone (digest : Bytes → Digest) (plane : Plane Digest) (job : RestoreJob Digest) : Prop :=
  Ensures (restoreBody digest plane.store job) (fun _ => True)
    fun _ _ => ∀ id ∈ job.created, plane.holders.count id ≤ job.targets.count id

theorem count_unlisted (targets created : List String) (id : String) :
    (targets.filter (· ∉ created)).count id = if id ∈ created then 0 else targets.count id := by
  split_ifs with made
  · apply count_eq_zero.mpr
    intro listed
    simp only [mem_filter, decide_eq_true_eq] at listed
    exact listed.2 made
  · exact count_filter (by simpa using made)

section

variable (counted : Counted plane)
include counted

theorem Counted.restore_run (index : Nat)
    (alone : ∀ job, plane.engine.restoreJobs[index]? = some job → Alone digest plane job) :
    Keeps plane (plane.restoreRun digest index) := by
  unfold restoreRun
  split
  · exact ⟨counted, fun _ _ _ => rfl⟩
  next job found =>
  have leases := restore_body_leaseless digest plane.store job
  have views := restore_body_view (fun record => (record.extent, record.sizeBytes, record.version))
    (fun _ _ => rfl) digest plane.store job
  have single := alone job found
  unfold Alone at single
  split
  · next restored body =>
    rw [body] at leases views
    refine ⟨counted.restored found restored ⟨job.targets, job.targets⟩ (fun id => ?_) fun _ _ => rfl,
      fun id _ _ => views id⟩
    rw [leases id]
  next error left body =>
  rw [body] at leases single views
  refine ⟨counted.restored found (left.rollbackCreated job.created)
    ⟨job.targets, job.targets.filter (· ∉ job.created)⟩ (fun id => ?_) fun id listed => ?whole,
    fun id _ held => ?place⟩
  case whole =>
    have unmade : id ∉ job.created := by simpa using (mem_filter.mp listed).2
    rw [count_unlisted, if_neg unmade]
  case place =>
    have unmade : id ∉ job.created := fun made =>
      held ((Store.rollback_created_refs ..).trans (if_pos made))
    have stays := (Store.rollback_created_object job.created left id).trans (if_neg unmade)
    exact (congrArg (Option.map _) stays).trans (views id)
  have before := counted.refs id
  rw [count_unlisted, Store.rollback_created_refs]
  split_ifs with made
  · -- what is rolled back was held by this restore alone
    have bound := single id made
    have inside := count_flat_map_erase found RestoreJob.targets id
    simp only [holders, count_append] at before bound
    omega
  · rw [leases id]

/-- The names of the objects a failed restore created have not been leased again. -/
def Unleased (plane : Plane Digest) (restore : Releasing) : Prop :=
  ∀ id ∈ restore.leaseIds, id ∉ restore.held → plane.store.refs id = 0

omit [DecidableEq Digest] in
theorem Counted.restore_release (index : Nat)
    (free : ∀ restore, plane.releasing[index]? = some restore → Unleased plane restore) :
    Spares plane (plane.restoreRelease index) := by
  unfold restoreRelease
  split
  · exact ⟨counted, fun _ => rfl⟩
  next restore found =>
  refine ⟨{ counted with
    refs := fun id => ?_
    whole := fun entry kept => counted.whole entry (mem_of_mem_eraseIdx kept) },
    fun _ => release_leases_bare _⟩
  have before := counted.refs id
  have erased := count_flat_map_erase found Releasing.held id
  have released : restore.held.count id = min (plane.store.refs id) (restore.leaseIds.count id) := by
    by_cases held : id ∈ restore.held
    · have all := counted.whole restore (mem_of_getElem? found) id held
      simp only [holders, count_append] at before
      omega
    · rw [count_eq_zero.mpr held]
      by_cases named : id ∈ restore.leaseIds
      · rw [free restore found id named held, Nat.zero_min]
      · rw [count_eq_zero.mpr named, Nat.min_zero]
  simp only [holders, count_append] at before
  show (plane.store.releaseLeases restore.leaseIds).refs id = (_ ++ _ ++
    (plane.releasing.eraseIdx index).flatMap Releasing.held ++
    plane.links.flatMap plane.sending).count id
  rw [Store.release_leases_refs]
  simp only [count_append]
  show _ = (plane.engine.snapshotJobs.flatMap SnapshotJob.leaseIds).count id +
    (plane.engine.restoreJobs.flatMap RestoreJob.targets).count id + _ + _
  omega

omit [DecidableEq Digest] in
theorem Counted.fail_write (position : Nat)
    (running : ∀ writer, plane.writers[position]? = some writer → ∀ link,
      plane.link writer.conn = some link → (link.core.sender writer.machine.sendId).isSome = true) :
    Spares plane (plane.failWrite position now) := by
  unfold failWrite
  split
  · exact ⟨counted, fun _ => rfl⟩
  next writer listed =>
  have taken : Spares plane { plane with writers := plane.writers.eraseIdx position } :=
    ⟨{ counted with }, fun _ => rfl⟩
  simp only
  split
  · exact taken
  next link found =>
  have alive := running writer listed link found
  have there := link_conn found ▸ found
  have settled : Spares plane (({ plane with
      writers := plane.writers.eraseIdx position } : Plane Digest).settle link
      (reached (finishSender now writer.machine .error (some "TRANSFER_ABORTED rdma")
        (({ plane with writers := plane.writers.eraseIdx position } : Plane Digest).hub
          link)))) :=
    taken.trans (taken.counted.settle there (ensures_reached finish_sender_works))
  simp only [alive, ↓reduceIte]
  split
  · next current again =>
    exact settled.trans (settled.counted.drop (link_conn again ▸ again))
  · exact settled

/-- The condition on the steps that release a lease by the name of its object. -/
def Undisturbed (digest : Bytes → Digest) (plane : Plane Digest) : Action Digest → Prop
  | .failed position _ => ∀ writer ∈ plane.writers[position]?, ∀ link ∈ plane.link writer.conn,
      (link.core.sender writer.machine.sendId).isSome = true
  | .restoreRun index => ∀ job ∈ plane.engine.restoreJobs[index]?, Alone digest plane job
  | .restoreRelease index => ∀ restore ∈ plane.releasing[index]?, Unleased plane restore
  | _ => True

def UndisturbedRun (machine : Machine) (digest : Bytes → Digest) (plane : Plane Digest) :
    List (Action Digest) → Prop
  | [] => True
  | action :: rest => Undisturbed digest plane action ∧
      UndisturbedRun machine digest (plane.step machine digest action) rest

theorem Counted.step {action : Action Digest} (undisturbed : Undisturbed digest plane action) :
    Keeps plane (plane.step machine digest action) := by
  have unchanged : Keeps plane plane := ⟨counted, fun _ _ _ => rfl⟩
  cases action with
  | verb call => exact counted.serve call
  | send oid peer asId overwrite releaseAfter now =>
    exact (counted.send oid peer asId overwrite releaseAfter).keeps
  | adopt peer => exact (counted.adopt peer).keeps
  | rdmaUp conn =>
    simp only [Plane.step]
    split
    · exact unchanged
    next link found =>
    have there := link_conn found ▸ found
    exact ⟨counted.relink there _ { link with
      rdmaReady := true, core := { link.core with rdmaWriter := true } }
      rfl rfl rfl rfl rfl rfl rfl rfl, fun _ _ _ => rfl⟩
  | deliver conn now message payload => exact (counted.on_link conn fun _ => handle_works).keeps
  | tick conn now => exact (counted.on_link conn fun _ => tick_works).keeps
  | committed conn sendId =>
    have works : ∀ hub, Leaves (.ok (commitDone sendId hub) : CoreRun Hub) (Works True hub) := fun _ => commit_done_side.works
    exact (counted.on_link conn works).keeps
  | drop conn now =>
    simp only [Plane.step]
    split
    · exact unchanged
    · next link found => exact (counted.drop (link_conn found ▸ found)).keeps
  | written position now =>
    simp only [Plane.step]
    split
    · exact unchanged
    next writer _ =>
    have taken : Spares plane { plane with writers := plane.writers.eraseIdx position } :=
      ⟨{ counted with }, fun _ => rfl⟩
    have works : ∀ hub, Ensures
        (.ok (rdmaWriteFinished now writer.machine.sendId hub) : CoreRun Hub) (Works True hub)
        fun _ => Works True hub := fun _ => rdma_write_finished_works
    exact (taken.trans (taken.counted.on_link writer.conn works)).keeps
  | failed position now => exact (counted.fail_write position undisturbed).keeps
  | snapshotDone index => exact (counted.snapshot_done index).keeps
  | restoreRun index => exact counted.restore_run index undisturbed
  | restoreRelease index => exact (counted.restore_release index undisturbed).keeps

theorem Counted.run (actions : List (Action Digest))
    (undisturbed : UndisturbedRun machine digest plane actions) :
    Counted (plane.run machine digest actions) := by
  induction actions generalizing plane with
  | nil => exact counted
  | cons action rest ih => exact ih (counted.step undisturbed.1).counted undisturbed.2

end

omit [DecidableEq Digest] in
theorem boot_counted (slab : ByteRanges.Memory) (allocator : SlabAllocator) (programs : List ProgramEntry)
    (config : Config) (quota : Int) :
    Counted (boot slab allocator programs config quota : Plane Digest) where
  refs := fun _ => rfl
  unsent := rfl
  conns := nodup_nil
  fresh := fun _ mem => nomatch mem
  distinct := fun _ mem => nomatch mem
  issued := fun _ mem => nomatch mem
  whole := fun _ mem => nomatch mem

/-- An object that some job holds before and after a step is not written, released or replaced. -/
theorem Counted.spared (counted : Counted plane) {action : Action Digest}
    (undisturbed : Undisturbed digest plane action) {id : String} (held : id ∈ plane.holders)
    (still : id ∈ (plane.step machine digest action).holders) :
    place (plane.step machine digest action).store id = place plane.store id := by
  have leased {plane : Plane Digest} (counted : Counted plane) (held : id ∈ plane.holders) :
      plane.store.refs id ≠ 0 := by
    rw [counted.refs id]
    exact Nat.pos_iff_ne_zero.mp (count_pos_iff.mpr held)
  have kept : Keeps plane (plane.step machine digest action) := counted.step undisturbed
  exact kept.places id (leased counted held) (leased kept.counted still)

/-- The lease count of an object is the number of leases that unfinished jobs have on it,
and a held object stays where it is. -/
theorem leases_counted (machine : Machine) (digest : Bytes → Digest) (slab : ByteRanges.Memory)
    (allocator : SlabAllocator) (programs : List ProgramEntry) (config : Config) (quota : Int)
    (actions : List (Action Digest))
    (undisturbed : UndisturbedRun machine digest (boot slab allocator programs config quota) actions) :
    let plane := (boot slab allocator programs config quota).run machine digest actions
    (∀ id, plane.store.refs id = plane.holders.count id) ∧
    ∀ action, Undisturbed digest plane action → ∀ id ∈ plane.holders,
      id ∈ (plane.step machine digest action).holders →
      place (plane.step machine digest action).store id = place plane.store id := by
  intro plane
  have counted := (boot_counted slab allocator programs config quota).run actions undisturbed
  exact ⟨counted.refs, fun action calm id held still => counted.spared calm held still⟩

end Jobs

end Plane

/-! ### runs -/

namespace Plane

variable {Digest : Type}

instance (digest : Bytes → Digest) [DecidableEq Digest] (plane : Plane Digest)
    (job : RestoreJob Digest) : Decidable (Alone digest plane job) :=
  inferInstanceAs (Decidable (Ensures _ _ _))

instance (plane : Plane Digest) (restore : Releasing) : Decidable (Unleased plane restore) :=
  inferInstanceAs (Decidable (∀ id ∈ restore.leaseIds, _))

instance (digest : Bytes → Digest) [DecidableEq Digest] (plane : Plane Digest) :
    DecidablePred (Undisturbed digest plane) := fun action => by
  cases action <;> dsimp only [Undisturbed] <;> infer_instance

instance decidableUndisturbedRun (machine : Machine) (digest : Bytes → Digest)
    [DecidableEq Digest] : (plane : Plane Digest) → (actions : List (Action Digest)) →
      Decidable (UndisturbedRun machine digest plane actions)
  | _, [] => inferInstanceAs (Decidable True)
  | plane, action :: rest =>
    have := decidableUndisturbedRun machine digest (plane.step machine digest action) rest
    inferInstanceAs (Decidable (_ ∧ _))

def smallPlane : Plane Bytes :=
  boot (fun _ => 0) { capacity := 8192, free := [⟨0, 8192⟩] } []
    (.small 30) 8192

/-- One whole object whose payload is not the one its hash was taken of. -/
def corruptFile : SnapshotFile Bytes :=
  { schema := snapshotSchema
    slices := [⟨⟨"a", 4, [], false, ⟨0, 4⟩, "a", ⟨0, 4⟩, 4⟩, 0, 4, some [1, 2, 3, 4]⟩]
    payload := some [1, 2, 3, 5] }

/-- An object that a send and a snapshot hold at once. -/
def sharedObject : List (Action Bytes) :=
  [.adopt "b", .verb (.putObject "a" (some [1, 2, 3]) []), .send "a" "b" "" false false 0,
   .verb (.snapshot none), .deliver 0 1 (.doneAck 1) []]

theorem leases_counted_shared :
    let plane := smallPlane.run Dispatcher.noMachine id sharedObject
    plane.holders = ["a"] ∧ (∀ object, plane.store.refs object = plane.holders.count object) ∧
    place (plane.step Dispatcher.noMachine id (.verb (.snapshot none))).store "a" =
      place plane.store "a" := by
  have undisturbed : UndisturbedRun Dispatcher.noMachine id smallPlane sharedObject := by
    decide +kernel
  obtain ⟨counts, spared⟩ := leases_counted Dispatcher.noMachine id _ _ _ _ _ _ undisturbed
  refine ⟨by decide +kernel, counts, ?_⟩
  exact spared (.verb (.snapshot none)) trivial "a" (by decide +kernel) (by decide +kernel)

/-- A send of an object that a restore created: the failed restore removes the object under
the send. The name is put and sent again before the restore gives its leases back, which
takes the lease of the second send. -/
theorem failed_restore_takes_leases :
    let rolledBack := smallPlane.run Dispatcher.noMachine id
      [.adopt "b", .verb (.restoreSnapshot (some corruptFile) { path := "s" }),
       .send "a" "b" "" false false 0, .restoreRun 0]
    let released := rolledBack.run Dispatcher.noMachine id
      [.verb (.putObject "a" (some [7]) []), .send "a" "b" "" false false 1, .restoreRelease 0]
    (rolledBack.store.object "a").isNone = true ∧ rolledBack.holders = ["a"] ∧
      released.store.refs "a" = 0 ∧ released.holders = ["a", "a"] ∧
      (released.step Dispatcher.noMachine id (.verb (.releaseObject "a" false))).store.objects = [] := by
  decide +kernel

end Plane

end Dataflow.LeasePlane
