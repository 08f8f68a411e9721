import Dataflow.PeerWorld

/-!
Who owns the bytes of a receiving daemon. Reservations are numbered; a `Hold` is
one that is open or waits for its commit. The ledger says that every number given
out so far is held, released or adopted, exactly one of these and once, and that
no byte belongs to two of the free list, the catalog and the holds.
-/

namespace Dataflow.Peer

open StatefulOutcome ByteRanges Service KeyedTable List

def extents (objects : List Service.ObjectRecord) : List Extent := objects.map (·.extent)

structure Ledger (env : Env) (holds : List Hold) : Prop where
  once : ∀ rid, (holds.map Hold.rid).count rid + env.releases.count rid +
    (env.adoptions.map Adoption.rid).count rid = if rid < env.nextRid then 1 else 0
  freeSized : Sized env.store.allocator.free
  objectsSized : Sized (extents env.store.objects)
  ids : (env.store.objects.map Service.ObjectRecord.id).Nodup
  apart : ∀ byte, cover env.store.allocator.free byte + cover (extents env.store.objects) byte +
    cover (holds.map Hold.extent) byte ≤ 1
  roomy : ∀ hold ∈ holds, (hold.length : Int) ≤ hold.extent.size

section Ledger

variable {env next : Env} {holds others : List Hold} {hold other : Hold} {res : Reservation}
  {peer : String} {byte : Int}

theorem Ledger.perm (ledger : Ledger env holds) (order : holds.Perm others) : Ledger env others where
  once rid := (order.map Hold.rid).count_eq rid ▸ ledger.once rid
  freeSized := ledger.freeSized
  objectsSized := ledger.objectsSized
  ids := ledger.ids
  apart byte := cover_perm (order.map Hold.extent) byte ▸ ledger.apart byte
  roomy hold mem := ledger.roomy hold (order.mem_iff.mpr mem)

theorem Ledger.disjoint (ledger : Ledger env (hold :: holds)) (mem : other ∈ holds)
    (inside : other.extent.Contains byte) : ¬ hold.extent.Contains byte := by
  intro here
  have bound := ledger.apart byte
  have first : cover [hold.extent] byte = 1 := by simp [cover_cons, here]
  have second := cover_pos (mem_map_of_mem mem) inside
  rw [map_cons, cover_cons_single, first] at bound
  omega

variable {destId : String} {store : Store} {sizeBytes : Nat} {info : Info}

theorem Ledger.reserve {nbytes : Nat} {overwrite : Bool} {hub : Hub}
    (ledger : Ledger hub.env holds)
    (reserved : tryReserve destId nbytes overwrite hub = .ok (res, next)) :
    Ledger next (res.hold :: holds) := by
  obtain ⟨extent, allocator, allocation, hold, _, _, store, _, rids, releases, adoptions⟩ :=
    try_reserve_cases reserved
  have moved := fun byte : Int => alloc_cover byte (Int.natCast_nonneg nbytes)
    ledger.freeSized allocation
  rw [hold]
  constructor
  · intro rid
    have before := ledger.once rid
    rw [rids, releases, adoptions, map_cons, count_cons]
    split_ifs at before ⊢ <;> simp_all <;> omega
  · rw [store]
    exact (moved 0).2.1
  · rw [store]
    exact ledger.objectsSized
  · rw [store]
    exact ledger.ids
  · intro byte
    have before := ledger.apart byte
    rw [(moved byte).2.2] at before
    rw [store, map_cons, cover_cons_single]
    simp only
    omega
  · exact forall_mem_cons.mpr ⟨(moved 0).1, ledger.roomy⟩

theorem Ledger.release (ledger : Ledger env (res.hold :: holds)) :
    Ledger (env.release peer res) holds := by
  have sized : 0 ≤ res.extent.size :=
    (Int.natCast_nonneg _).trans (ledger.roomy res.hold mem_cons_self)
  have moved := fun byte : Int => release_cover byte ledger.freeSized sized
  constructor
  · intro rid
    have before := ledger.once rid
    have added : (env.releases ++ [res.rid]).count rid =
        env.releases.count rid + [res.hold.rid].count rid := count_append
    rw [map_cons, ← singleton_append, count_append] at before
    show _ + (env.releases ++ [res.rid]).count rid + _ = ite (rid < env.nextRid) 1 0
    simp only [Env.release]
    omega
  · exact (moved 0).1
  · exact ledger.objectsSized
  · exact ledger.ids
  · intro byte
    have before := ledger.apart byte
    rw [map_cons, cover_cons_single] at before
    show cover (env.store.allocator.release res.extent).free byte +
      cover (extents env.store.objects) byte + _ ≤ 1
    rw [(moved byte).2]
    have same : res.hold.extent = res.extent := rfl
    rw [same] at before
    omega
  · exact (forall_mem_cons.mp ledger.roomy).2

theorem adopt_inbound_cases {final : Store} {extent : Extent}
    (adopted : store.adoptInbound destId extent sizeBytes info = some final) :
    final.slab = store.slab ∧ ∃ record : Service.ObjectRecord, record.id = destId ∧ record.extent = extent ∧
      ((store.object destId = none ∧ final.allocator = store.allocator ∧
        final.objects = store.objects ++ [record]) ∨ ∃ old, store.object destId = some old ∧
        final.allocator = store.allocator.release old.extent ∧ final.objects =
          update Service.ObjectRecord.id destId (fun _ => record) store.objects) := by
  unfold Store.adoptInbound at adopted
  split at adopted
  · next absent =>
    cases adopted
    exact ⟨rfl, _, rfl, rfl, .inl ⟨absent, rfl, rfl⟩⟩
  next old found =>
  split at adopted
  · cases adopted
  · cases adopted
    exact ⟨rfl, _, rfl, rfl, .inr ⟨old, found, rfl, rfl⟩⟩

theorem Ledger.adopt
    {adoption : Adoption} (ledger : Ledger env (hold :: holds)) (number : adoption.rid = hold.rid)
    (adopted : env.store.adoptInbound destId hold.extent sizeBytes info = some store) :
    Ledger { env with store := store, adoptions := env.adoptions ++ [adoption] } holds := by
  obtain ⟨_, record, id, extent, change⟩ := adopt_inbound_cases adopted
  have sized := (Int.natCast_nonneg _).trans (ledger.roomy hold mem_cons_self)
  have before : ∀ byte, cover env.store.allocator.free byte +
      cover (extents env.store.objects) byte +
      (cover [hold.extent] byte + cover (holds.map Hold.extent) byte) ≤ 1 :=
    fun byte => cover_cons_single hold.extent _ ▸ ledger.apart byte
  have numbers : ∀ rid, (holds.map Hold.rid).count rid + env.releases.count rid +
      ((env.adoptions ++ [adoption]).map Adoption.rid).count rid =
        if rid < env.nextRid then 1 else 0 := by
    intro rid
    have once := ledger.once rid
    rw [map_cons, ← singleton_append, count_append] at once
    rw [map_append, count_append, map_singleton, number]
    omega
  have roomy : ∀ other ∈ holds, (other.length : Int) ≤ other.extent.size :=
    (forall_mem_cons.mp ledger.roomy).2
  rcases change with ⟨absent, allocator, objects⟩ | ⟨old, found, allocator, objects⟩
  · refine ⟨numbers, allocator ▸ ledger.freeSized, ?_, ?_, ?_, roomy⟩
    · simp only [objects, extents, map_append]
      intro other mem
      rcases mem_append.mp mem with there | new
      · exact ledger.objectsSized other there
      · have place := (mem_singleton.mp new).trans extent
        exact place ▸ sized
    · rw [objects]
      exact keys_append_nodup ledger.ids (id ▸ lookup_none.mp absent)
    · intro byte
      simp only [objects, allocator, extents, map_append, cover_append, map_singleton, extent]
      have bound := before byte
      unfold extents at bound
      omega
  -- the replaced record and the new one stand in the same place
  have took := perm_remove ledger.ids found
  have gave := update_perm record ledger.ids found
  have oldSized := ledger.objectsSized old.extent (mem_map_of_mem (lookup_mem found))
  have moved := fun byte : Int => release_cover byte ledger.freeSized oldSized
  refine ⟨numbers, allocator ▸ (moved 0).1, ?_, ?_, ?_, roomy⟩
  · intro other mem
    simp only [objects] at mem
    rcases mem_cons.mp ((gave.map (·.extent)).mem_iff.mp mem) with new | kept
    · have place := new.trans extent
      exact place ▸ sized
    · exact ledger.objectsSized other ((took.map (·.extent)).mem_iff.mpr (mem_cons_of_mem _ kept))
  · simp only [objects]
    have key := (lookup_key found).trans id.symm
    have order := (took.map Service.ObjectRecord.id).nodup_iff.mp ledger.ids
    rw [map_cons, key, ← map_cons] at order
    exact (gave.map Service.ObjectRecord.id).nodup_iff.mpr order
  intro byte
  have bound := before byte
  have first := cover_perm (took.map (·.extent)) byte
  have second := cover_perm (gave.map (·.extent)) byte
  simp only [map_cons, extent] at first second
  rw [cover_cons_single] at first second
  simp only [objects, allocator, extents, (moved byte).2] at bound ⊢
  omega

theorem Ledger.lease (ledger : Ledger env holds) (object : String) (change : Nat → Nat) :
    Ledger { env with store := env.store.lease object change } holds := by
  have same : ∀ {Value : Type} (field : Service.ObjectRecord → Value),
      (∀ record count, field { record with leaseRefs := count } = field record) →
      (env.store.lease object change).objects.map field = env.store.objects.map field := by
    intro Value field kept
    simp only [Store.lease, map_map]
    apply map_congr_left
    intro record _
    simp only [Function.comp_apply]
    split_ifs
    · exact kept record _
    · rfl
  have places : extents (env.store.lease object change).objects = extents env.store.objects :=
    same _ fun _ _ => rfl
  refine ⟨ledger.once, ledger.freeSized, ?_, ?_, ?_, ledger.roomy⟩
  · exact places ▸ ledger.objectsSized
  · exact same Service.ObjectRecord.id (fun _ _ => rfl) ▸ ledger.ids
  · exact fun byte => places ▸ ledger.apart byte

def Untouched (env next : Env) (hold : Hold) : Prop :=
  ∀ byte, hold.extent.Contains byte → next.store.slab byte = env.store.slab byte

theorem Untouched.read (same : Untouched env next hold) {count : Nat}
    (fits : (count : Int) ≤ hold.extent.size) :
    ByteRanges.read next.store.slab hold.extent.offset count =
      ByteRanges.read env.store.slab hold.extent.offset count :=
  read_congr fun byte lower upper => same byte ⟨lower, by omega⟩

theorem Ledger.write (ledger : Ledger env (hold :: holds)) {start : Nat} {data : Bytes}
    (fits : start + data.length ≤ hold.length) (mem : other ∈ holds) :
    Untouched env (env.writeSlab (hold.extent.offset + start) data) other := by
  intro byte inside
  have outside := ledger.disjoint mem inside
  have room := ledger.roomy hold mem_cons_self
  apply write_outside
  by_contra within
  apply outside
  constructor <;> omega

end Ledger

end Dataflow.Peer
