import Dataflow.ByteRanges
import Mathlib.Data.Rat.Defs

/-!
The slab store of `service/store.py`, as far as inbound transfers use it: the
first-fit allocator with address-ordered coalescing, and the reservation,
release and adoption of an extent for an object that arrives from a peer. The
allocator is accounted for by counts: an allocation moves bytes out of the free
list, a release moves them back, and coalescing moves none.
-/

namespace Dataflow.Service

open ByteRanges List

abbrev Extent := Range

def align : Int := 4096

/-- The aligned size, rounded up as the source's floor division does. -/
def alignedSize (size : Int) : Int := -(Int.fdiv (-size) align) * align

structure SlabAllocator where
  capacity : Int
  free : List Extent
  usedBytes : Int := 0
  peakBytes : Int := 0
  deriving DecidableEq

/-- The first free extent that is large enough gives up its head. -/
def takeFirst (need : Int) : List Extent → Option (Extent × List Extent)
  | [] => none
  | extent :: rest =>
    if need ≤ extent.size then
      some (⟨extent.offset, need⟩,
        if extent.size = need then rest
        else ⟨extent.offset + need, extent.size - need⟩ :: rest)
    else (takeFirst need rest).map fun found => (found.1, extent :: found.2)

/-- `none` is the CAPACITY error. -/
def SlabAllocator.alloc (allocator : SlabAllocator) (size : Int) :
    Option (Extent × SlabAllocator) :=
  let need := alignedSize size
  (takeFirst need allocator.free).map fun found =>
    (found.1, { allocator with
      free := found.2
      usedBytes := allocator.usedBytes + need
      peakBytes := max allocator.peakBytes (allocator.usedBytes + need) })

def insertOrdered (extent : Extent) : List Extent → List Extent
  | [] => [extent]
  | head :: rest =>
    if extent.offset < head.offset then extent :: head :: rest
    else head :: insertOrdered extent rest

/-- Merge each extent into the one before it where they meet. -/
def coalesceFrom : Extent → List Extent → List Extent
  | last, [] => [last]
  | last, extent :: rest =>
    if last.offset + last.size = extent.offset
    then coalesceFrom ⟨last.offset, last.size + extent.size⟩ rest
    else last :: coalesceFrom extent rest

def coalesce : List Extent → List Extent
  | [] => []
  | extent :: rest => coalesceFrom extent rest

def SlabAllocator.release (allocator : SlabAllocator) (extent : Extent) : SlabAllocator :=
  { allocator with
    usedBytes := allocator.usedBytes - extent.size
    free := coalesce (insertOrdered extent allocator.free) }

/-! ### the allocator moves bytes -/

section Allocator

variable {need : Int} {extents rest : List Extent} {got extent : Extent} {byte : Int}

def Sized (extents : List Extent) : Prop := ∀ extent ∈ extents, 0 ≤ extent.size

/-- What is left of an extent when its head is taken. -/
def remainder (need : Int) (extent : Extent) : List Extent :=
  if extent.size = need then [] else [⟨extent.offset + need, extent.size - need⟩]

theorem carve_cover {before after : List Extent} (byte : Int) (nonneg : 0 ≤ need)
    (fits : need ≤ extent.size) : cover (before ++ extent :: after) byte =
      cover [⟨extent.offset, need⟩] byte + cover (before ++ (remainder need extent ++ after)) byte := by
  have cut : cover [extent] byte =
      cover [⟨extent.offset, need⟩] byte + cover (remainder need extent) byte := by
    unfold remainder
    split_ifs with exactly
    · rw [← exactly]
      rfl
    · exact cover_split rfl rfl (by simp) nonneg (show 0 ≤ extent.size - need by omega)
  simp only [cover_append, cover_cons_single extent after, cut]
  omega

theorem take_first_split (found : takeFirst need extents = some (got, rest)) :
    ∃ before extent after, extents = before ++ extent :: after ∧ need ≤ extent.size ∧
      got = ⟨extent.offset, need⟩ ∧ rest = before ++ (remainder need extent ++ after) := by
  induction extents generalizing rest with
  | nil => cases found
  | cons head tail ih =>
    unfold takeFirst at found
    split_ifs at found with large exactly
    · cases found
      exact ⟨[], head, tail, rfl, large, rfl, by simp [remainder, exactly]⟩
    · cases found
      exact ⟨[], head, tail, rfl, large, rfl, by simp [remainder, exactly]⟩
    · obtain ⟨⟨taken, left⟩, there, same⟩ := Option.map_eq_some_iff.mp found
      cases same
      obtain ⟨before, extent, after, rfl, fits, rfl, rfl⟩ := ih there
      exact ⟨head :: before, extent, after, rfl, fits, rfl, rfl⟩

theorem take_first_cover (byte : Int) (nonneg : 0 ≤ need) (sized : Sized extents)
    (found : takeFirst need extents = some (got, rest)) :
    got.size = need ∧ Sized rest ∧ cover extents byte = cover [got] byte + cover rest byte := by
  obtain ⟨before, extent, after, rfl, fits, rfl, rfl⟩ := take_first_split found
  refine ⟨rfl, ?_, carve_cover byte nonneg fits⟩
  have left : Sized (remainder need extent) := by
    unfold remainder
    split_ifs
    · exact forall_mem_nil _
    · exact forall_mem_singleton.mpr (Int.sub_nonneg_of_le fits)
  obtain ⟨first, last⟩ := forall_mem_append.mp sized
  exact forall_mem_append.mpr ⟨first, forall_mem_append.mpr ⟨left, (forall_mem_cons.mp last).2⟩⟩

theorem insert_ordered_perm (extent : Extent) (extents : List Extent) :
    (insertOrdered extent extents).Perm (extent :: extents) := by
  induction extents with
  | nil => exact .refl _
  | cons head tail ih =>
    unfold insertOrdered
    split_ifs
    · exact .refl _
    · exact (ih.cons head).trans (.swap extent head tail)

theorem coalesce_from_cover (last : Extent) (extents : List Extent)
    (sized : Sized (last :: extents)) : Sized (coalesceFrom last extents) ∧
      cover (coalesceFrom last extents) byte = cover (last :: extents) byte := by
  induction extents generalizing last with
  | nil => exact ⟨sized, rfl⟩
  | cons head tail ih =>
    have first := sized last mem_cons_self
    have second := sized head (mem_cons_of_mem last mem_cons_self)
    have tailSized := (forall_mem_cons.mp sized).2
    unfold coalesceFrom
    split_ifs with meets
    · obtain ⟨joined, same⟩ := ih ⟨last.offset, last.size + head.size⟩
        (forall_mem_cons.mpr ⟨Int.add_nonneg first second, (forall_mem_cons.mp tailSized).2⟩)
      have cut : cover [⟨last.offset, last.size + head.size⟩] byte =
          cover [last] byte + cover [head] byte :=
        cover_split rfl meets.symm rfl first second
      refine ⟨joined, ?_⟩
      rw [same, cover_cons_single, cut, cover_cons_single _ (head :: tail),
        cover_cons_single _ tail, Nat.add_assoc]
    · obtain ⟨later, same⟩ := ih head tailSized
      refine ⟨forall_mem_cons.mpr ⟨first, later⟩, ?_⟩
      rw [cover_cons, same, cover_cons last]

theorem coalesce_cover (sized : Sized extents) (byte : Int) :
    Sized (coalesce extents) ∧ cover (coalesce extents) byte = cover extents byte := by
  cases extents with
  | nil => exact ⟨sized, rfl⟩
  | cons head tail => exact coalesce_from_cover head tail sized

theorem coalesce_insert_cover (byte : Int) (sized : Sized extents) (nonneg : 0 ≤ extent.size) :
    Sized (coalesce (insertOrdered extent extents)) ∧
      cover (coalesce (insertOrdered extent extents)) byte =
        cover [extent] byte + cover extents byte := by
  have order := insert_ordered_perm extent extents
  have whole : Sized (extent :: extents) := forall_mem_cons.mpr ⟨nonneg, sized⟩
  obtain ⟨kept, same⟩ := coalesce_cover (fun other mem => whole other (order.mem_iff.mp mem)) byte
  refine ⟨kept, ?_⟩
  rw [same, cover_perm order byte, cover_cons_single]

variable {allocator next : SlabAllocator} {size : Int}

theorem le_aligned_size (size : Int) : size ≤ alignedSize size := by
  have floor := Int.fdiv_eq_ediv_of_nonneg (-size) (b := align) (by decide)
  rw [alignedSize, floor, align]
  omega

theorem alloc_cover (byte : Int) (nonneg : 0 ≤ size) (sized : Sized allocator.free)
    (found : allocator.alloc size = some (got, next)) : size ≤ got.size ∧ Sized next.free ∧
      cover allocator.free byte = cover [got] byte + cover next.free byte := by
  obtain ⟨⟨taken, left⟩, there, same⟩ := Option.map_eq_some_iff.mp found
  cases same
  have bound := le_aligned_size size
  obtain ⟨exactly, leftSized, moved⟩ := take_first_cover byte (nonneg.trans bound) sized there
  exact ⟨exactly ▸ bound, leftSized, moved⟩

theorem release_cover (byte : Int) (sized : Sized allocator.free) (nonneg : 0 ≤ extent.size) :
    Sized (allocator.release extent).free ∧
      cover (allocator.release extent).free byte = cover [extent] byte + cover allocator.free byte :=
  coalesce_insert_cover byte sized nonneg

end Allocator

/-! ### inbound objects -/

abbrev Info := List (String × String)

structure ObjectRecord where
  id : String
  sizeBytes : Nat
  info : Info := []
  extent : Extent
  isProtected : Bool := false
  leaseRefs : Nat := 0
  version : Nat := 0
  deriving DecidableEq

structure Store where
  slab : ByteRanges.Memory
  allocator : SlabAllocator
  objects : List ObjectRecord := []

inductive NackCode where
  | busy
  | capacity
  | collision
  deriving DecidableEq

namespace Store

def object (store : Store) (id : String) : Option ObjectRecord :=
  store.objects.find? fun record => record.id = id

/-- The extent of an arriving object, or the code of the refusal. -/
def reserveInbound (store : Store) (destId : String) (sizeBytes : Nat) (overwrite : Bool) :
    Except NackCode (Extent × Store) :=
  let allocate := match store.allocator.alloc sizeBytes with
    | none => .error .capacity
    | some (extent, allocator) => .ok (extent, { store with allocator := allocator })
  match store.object destId with
  | none => allocate
  | some record =>
    if 0 < record.leaseRefs then .error .busy
    else if overwrite = false then .error .collision
    else if record.sizeBytes ≠ sizeBytes then .error .collision
    else allocate

def releaseInbound (store : Store) (extent : Extent) : Store :=
  { store with allocator := store.allocator.release extent }

/-- The commit of an arrived object; `none` is the LEASED error, raised before
any change. An object it replaces gives its extent back. -/
def adoptInbound (store : Store) (destId : String) (extent : Extent) (sizeBytes : Nat)
    (info : Info) : Option Store :=
  match store.object destId with
  | none => some { store with
      objects := store.objects ++
        [{ id := destId, sizeBytes := sizeBytes, info := info, extent := extent, version := 1 }] }
  | some old =>
    if 0 < old.leaseRefs then none
    else some { store with
      allocator := store.allocator.release old.extent
      objects := store.objects.map fun record =>
        if record.id = destId then
          { id := destId, sizeBytes := sizeBytes, info := info, extent := extent
            isProtected := old.isProtected, version := old.version + 1 }
        else record }

def lease (store : Store) (id : String) (change : Nat → Nat) : Store :=
  { store with
    objects := store.objects.map fun record =>
      if record.id = id then { record with leaseRefs := change record.leaseRefs } else record }

end Store

end Dataflow.Service
