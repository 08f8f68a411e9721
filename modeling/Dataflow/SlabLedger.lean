import Dataflow.Store
import Mathlib.Algebra.BigOperators.Group.List.Basic

/-!
The slab as a ledger of who holds which extent. As long as no held extent is empty,
the free list is exactly what nobody holds, cut into runs that nowhere touch. So a
request is refused only when no run of unheld bytes is long enough, and when nothing
is held the free list is the slab.
-/

namespace Dataflow.Service

open ByteRanges List

/-- An extent somebody holds, with the size it was requested for. -/
structure Holding where
  sizeBytes : Int
  extent : Extent
  deriving DecidableEq

/-! ### free lists -/

section FreeList

def Before (first second : Extent) : Prop := first.offset + first.size ≤ second.offset

def Apart (first second : Extent) : Prop := first.offset + first.size < second.offset

structure Settled (extents : List Extent) : Prop where
  filled : ∀ extent ∈ extents, 0 < extent.size
  apart : extents.Pairwise Apart

variable {need : Int} {extents rest : List Extent} {got extent last : Extent}

theorem Settled.tail (settled : Settled (extent :: extents)) : Settled extents where
  filled := (forall_mem_cons.mp settled.filled).2
  apart := settled.apart.tail

theorem Settled.cons (settled : Settled extents) (filled : 0 < extent.size)
    (first : ∀ other ∈ extents, Apart extent other) : Settled (extent :: extents) where
  filled := forall_mem_cons.mpr ⟨filled, settled.filled⟩
  apart := pairwise_cons.mpr ⟨first, settled.apart⟩

/-- Filled extents from `low` on, in order and at least `gap` apart. -/
def Spaced (gap : Int) : Int → List Extent → Prop
  | _, [] => True
  | low, extent :: rest =>
    low ≤ extent.offset ∧ 0 < extent.size ∧ Spaced gap (extent.offset + extent.size + gap) rest

variable {low bound gap closer : Int}

theorem Spaced.mono (spaced : Spaced gap low extents) (less : closer ≤ gap) (lower : bound ≤ low) :
    Spaced closer bound extents := by
  induction extents generalizing low bound with
  | nil => trivial
  | cons head tail ih =>
    obtain ⟨start, filled, rest⟩ := spaced
    exact ⟨lower.trans start, filled, ih rest (by omega)⟩

theorem Spaced.settled (spaced : Spaced 1 low extents) :
    Settled extents ∧ ∀ extent ∈ extents, low ≤ extent.offset := by
  induction extents generalizing low with
  | nil => exact ⟨⟨forall_mem_nil _, .nil⟩, forall_mem_nil _⟩
  | cons head tail ih =>
    obtain ⟨start, filled, rest⟩ := spaced
    obtain ⟨settled, starts⟩ := ih rest
    refine ⟨settled.cons filled starts, forall_mem_cons.mpr ⟨start, fun extent mem => ?_⟩⟩
    have next := starts extent mem
    omega

theorem Settled.spaced (settled : Settled extents)
    (starts : ∀ extent ∈ extents, low ≤ extent.offset) : Spaced 1 low extents := by
  induction extents generalizing low with
  | nil => trivial
  | cons head tail ih =>
    exact ⟨starts head mem_cons_self, settled.filled head mem_cons_self,
      ih settled.tail (pairwise_cons.mp settled.apart).1⟩

theorem carve_spaced {before after : List Extent} (spaced : Spaced 1 low (before ++ extent :: after))
    (fits : need ≤ extent.size) (positive : 0 < need) :
    Spaced 1 low (before ++ (remainder need extent ++ after)) := by
  induction before generalizing low with
  | cons head before ih => exact ⟨spaced.1, spaced.2.1, ih spaced.2.2⟩
  | nil =>
    obtain ⟨start, filled, rest⟩ := spaced
    unfold remainder
    split_ifs with exactly
    · exact rest.mono le_rfl (by omega)
    · refine ⟨?_, ?_, rest.mono le_rfl ?_⟩ <;> simp only <;> omega

theorem take_first_none (refused : takeFirst need extents = none) :
    ∀ extent ∈ extents, extent.size < need := by
  induction extents with
  | nil => exact fun extent mem => absurd mem not_mem_nil
  | cons head tail ih =>
    unfold takeFirst at refused
    split_ifs at refused with large
    rintro extent (_ | ⟨_, mem⟩)
    · exact not_le.mp large
    · exact ih (Option.map_eq_none_iff.mp refused) extent mem

theorem before_or_before {first second : Extent} (left : 0 < first.size) (right : 0 < second.size)
    (none : ∀ byte, first.Contains byte → ¬second.Contains byte) :
    Before first second ∨ Before second first := by
  by_contra overlap
  have here := none (max first.offset second.offset)
  simp only [Before, Range.Contains] at overlap here
  omega

theorem insert_ordered_spaced (spaced : Spaced 1 low extents) (start : low ≤ extent.offset)
    (filled : 0 < extent.size)
    (clear : ∀ other ∈ extents, Before extent other ∨ Before other extent) :
    Spaced 0 low (insertOrdered extent extents) := by
  induction extents generalizing low with
  | nil => exact ⟨start, filled, trivial⟩
  | cons head tail ih =>
    obtain ⟨first, size, rest⟩ := spaced
    obtain ⟨side, later⟩ := forall_mem_cons.mp clear
    simp only [Before] at side
    unfold insertOrdered
    split_ifs with before
    · exact ⟨start, filled, by omega, size, rest.mono (by decide) (by omega)⟩
    · exact ⟨first, size, ih (rest.mono le_rfl (by omega)) (by omega) later⟩

theorem coalesce_spaced (spaced : Spaced 0 low extents) : Spaced 1 low (coalesce extents) := by
  cases extents with
  | nil => trivial
  | cons last extents =>
    show Spaced 1 low (coalesceFrom last extents)
    induction extents generalizing last low with
    | nil => exact spaced
    | cons head tail ih =>
      obtain ⟨start, filled, next, size, rest⟩ := spaced
      unfold coalesceFrom
      split_ifs with meets
      · exact ih _ ⟨start, Int.add_pos filled size, rest.mono le_rfl (by simp only; omega)⟩
      · exact ⟨start, filled, ih head ⟨by omega, size, rest⟩⟩

theorem Spaced.cover_below (spaced : Spaced 1 low extents) {byte : Int} (below : byte < low) :
    cover extents byte = 0 := by
  induction extents generalizing low with
  | nil => rfl
  | cons head tail ih =>
    obtain ⟨start, filled, rest⟩ := spaced
    rw [cover_cons, if_neg fun inside => by have := inside.1; omega, ih rest (by omega)]

theorem Spaced.run_inside (spaced : Spaced 1 low extents) (positive : 0 < need) (start : Int)
    (free : ∀ byte, start ≤ byte → byte < start + need → 0 < cover extents byte) :
    ∃ extent ∈ extents, extent.offset ≤ start ∧ start + need ≤ extent.offset + extent.size := by
  induction extents generalizing low with
  | nil => exact absurd (free start le_rfl (by omega)) (Nat.lt_irrefl 0)
  | cons head tail ih =>
    obtain ⟨_, filled, rest⟩ := spaced
    -- between the head and the next extent there is a byte that nothing covers
    have here {byte : Int} (above : start ≤ byte) (below : byte < start + need)
        (first : byte ≤ head.offset + head.size) : head.Contains byte := by
      by_contra outside
      have covered := free byte above below
      rw [cover_cons, if_neg outside, rest.cover_below (by omega)] at covered
      exact Nat.lt_irrefl 0 covered
    by_cases ends : start ≤ head.offset + head.size
    · refine ⟨head, mem_cons_self, (here le_rfl (by omega) ends).1, ?_⟩
      by_contra short
      exact absurd (here ends (by omega) le_rfl).2 (lt_irrefl _)
    · obtain ⟨extent, mem, bounds⟩ := ih rest fun byte above below => by
        have covered := free byte above below
        rwa [cover_cons, if_neg fun inside => by have := inside.2; omega, Nat.zero_add] at covered
      exact ⟨extent, mem_cons_of_mem head mem, bounds⟩

theorem cover_slab (capacity byte : Int) :
    cover [⟨0, capacity⟩] byte = if 0 ≤ byte ∧ byte < capacity then 1 else 0 := by
  simp [cover_cons, Range.Contains]

end FreeList

/-! ### tiling -/

/-- Free runs that nowhere touch and held extents, which together are the slab. -/
structure Tiled (capacity : Int) (free held : List Extent) : Prop where
  spaced : Spaced 1 0 free
  filled : ∀ extent ∈ held, 0 < extent.size
  whole : ∀ byte, cover free byte + cover held byte = cover [⟨0, capacity⟩] byte

section Tiling

variable {capacity need : Int} {free held others : List Extent} {extent : Extent}

theorem Tiled.boot (positive : 0 < capacity) : Tiled capacity [⟨0, capacity⟩] [] where
  spaced := ⟨le_rfl, positive, trivial⟩
  filled := forall_mem_nil _
  whole := fun _ => rfl

theorem Tiled.perm (tiled : Tiled capacity free held) (order : held.Perm others) :
    Tiled capacity free others where
  spaced := tiled.spaced
  filled := fun extent mem => tiled.filled extent (order.mem_iff.mpr mem)
  whole := fun byte => by
    rw [← cover_perm order byte]
    exact tiled.whole byte

theorem Tiled.carve {before after : List Extent}
    (tiled : Tiled capacity (before ++ extent :: after) held) (fits : need ≤ extent.size)
    (positive : 0 < need) : Tiled capacity (before ++ (remainder need extent ++ after))
      (⟨extent.offset, need⟩ :: held) where
  spaced := carve_spaced tiled.spaced fits positive
  filled := forall_mem_cons.mpr ⟨positive, tiled.filled⟩
  whole := fun byte => by
    have before := tiled.whole byte
    rw [carve_cover byte positive.le fits] at before
    rw [cover_cons_single _ held]
    omega

theorem Tiled.held_once (tiled : Tiled capacity free (extent :: held)) {byte : Int}
    (inside : extent.Contains byte) :
    0 ≤ byte ∧ byte < capacity ∧ cover free byte = 0 ∧ cover held byte = 0 := by
  have total := tiled.whole byte
  rw [cover_cons, if_pos inside, cover_slab] at total
  split_ifs at total with slab <;> omega

theorem Tiled.clear (tiled : Tiled capacity free (extent :: held)) :
    ∀ other ∈ free, Before extent other ∨ Before other extent := by
  intro other mem
  apply before_or_before (tiled.filled extent mem_cons_self) (tiled.spaced.settled.1.filled other mem)
  intro byte inside both
  have alone := (tiled.held_once inside).2.2.1
  have covered := cover_pos mem both
  omega

theorem Tiled.starts (tiled : Tiled capacity free (extent :: held)) : 0 ≤ extent.offset := by
  have size := tiled.filled extent mem_cons_self
  exact (tiled.held_once ⟨le_refl extent.offset, by omega⟩).1

theorem Tiled.release (tiled : Tiled capacity free (extent :: held)) :
    Tiled capacity (coalesce (insertOrdered extent free)) held := by
  have size := tiled.filled extent mem_cons_self
  refine ⟨coalesce_spaced (insert_ordered_spaced tiled.spaced tiled.starts size tiled.clear),
    (forall_mem_cons.mp tiled.filled).2, fun byte => ?_⟩
  have before := tiled.whole byte
  rw [cover_cons_single] at before
  rw [(coalesce_insert_cover byte (fun other mem => (tiled.spaced.settled.1.filled other mem).le)
    size.le).2]
  omega

/-- Where no free extent is large enough, every run of bytes that long is partly held. -/
theorem Tiled.refused (tiled : Tiled capacity free held) (positive : 0 < need)
    (small : ∀ extent ∈ free, extent.size < need) (start : Int) (low : 0 ≤ start)
    (high : start + need ≤ capacity) :
    ∃ byte, start ≤ byte ∧ byte < start + need ∧ 0 < cover held byte := by
  by_contra! unheld
  obtain ⟨extent, mem, starts, ends⟩ := tiled.spaced.run_inside positive start (by
    intro byte above below
    have total := tiled.whole byte
    have nobody := unheld byte above below
    rw [cover_slab, if_pos ⟨by omega, by omega⟩] at total
    omega)
  have short := small extent mem
  omega

end Tiling

/-! ### the ledger -/

structure Sound (capacity : Int) (allocator : SlabAllocator) (held : List Holding) : Prop where
  slab : allocator.capacity = capacity
  room : 0 < capacity
  settled : Settled allocator.free
  filled : ∀ holding ∈ held, 0 < holding.extent.size
  aligned : ∀ holding ∈ held, holding.extent.size = alignedSize holding.sizeBytes
  whole : ∀ byte, cover allocator.free byte + cover (held.map Holding.extent) byte =
    cover [⟨0, capacity⟩] byte
  used : allocator.usedBytes = (held.map fun holding => alignedSize holding.sizeBytes).sum

section Ledger

variable {capacity : Int} {allocator next : SlabAllocator} {held others : List Holding} {holding other : Holding}
  {size : Int} {extent : Extent}

theorem Sound.tiled (sound : Sound capacity allocator held) :
    Tiled capacity allocator.free (held.map Holding.extent) :=
  ⟨sound.settled.spaced fun extent mem => by
    have total := sound.whole extent.offset
    have size := sound.settled.filled extent mem
    have covered := cover_pos mem (⟨le_rfl, by omega⟩ : extent.Contains extent.offset)
    rw [cover_slab] at total
    split_ifs at total <;> omega, forall_mem_map.mpr sound.filled, sound.whole⟩

theorem Tiled.sound (tiled : Tiled capacity allocator.free (held.map Holding.extent))
    (slab : allocator.capacity = capacity) (room : 0 < capacity)
    (aligned : ∀ holding ∈ held, holding.extent.size = alignedSize holding.sizeBytes)
    (used : allocator.usedBytes = (held.map fun holding => alignedSize holding.sizeBytes).sum) :
    Sound capacity allocator held :=
  ⟨slab, room, tiled.spaced.settled.1, fun _ mem => tiled.filled _ (mem_map_of_mem mem), aligned, tiled.whole, used⟩

theorem Sound.boot (positive : 0 < capacity) :
    Sound capacity { capacity := capacity, free := [⟨0, capacity⟩] } [] :=
  (Tiled.boot positive).sound rfl positive (forall_mem_nil _) rfl

theorem Sound.perm (sound : Sound capacity allocator held) (order : held.Perm others) :
    Sound capacity allocator others := by
  refine (sound.tiled.perm (order.map Holding.extent)).sound sound.slab sound.room
    (fun holding mem => sound.aligned holding (order.mem_iff.mpr mem)) ?_
  rw [← (order.map fun holding => alignedSize holding.sizeBytes).sum_eq]
  exact sound.used

theorem Sound.alloc (sound : Sound capacity allocator held) (positive : 0 < size)
    (found : allocator.alloc size = some (extent, next)) :
    Sound capacity next (⟨size, extent⟩ :: held) := by
  obtain ⟨⟨taken, left⟩, there, same⟩ := Option.map_eq_some_iff.mp found
  cases same
  obtain ⟨before, hole, after, whole, fits, rfl, rfl⟩ := take_first_split there
  have tiled := sound.tiled
  rw [whole] at tiled
  refine (tiled.carve fits (positive.trans_le (le_aligned_size size))).sound sound.slab sound.room
    (forall_mem_cons.mpr ⟨rfl, sound.aligned⟩) ?_
  rw [map_cons, sum_cons, ← sound.used]
  exact Int.add_comm _ _

theorem Sound.covered (sound : Sound capacity allocator held) (mem : holding ∈ held) {byte : Int}
    (inside : holding.extent.Contains byte) :
    cover allocator.free byte = 0 ∧ cover (held.map Holding.extent) byte = 1 := by
  have total := sound.whole byte
  have owned := cover_pos (mem_map_of_mem (f := Holding.extent) mem) inside
  rw [cover_slab] at total
  split_ifs at total with slab <;> omega

theorem Sound.disjoint (sound : Sound capacity allocator (holding :: held)) (mem : other ∈ held) :
    Before holding.extent other.extent ∨ Before other.extent holding.extent := by
  apply before_or_before (sound.filled holding mem_cons_self)
    (sound.filled other (mem_cons_of_mem holding mem))
  intro byte inside both
  have alone := (sound.tiled.held_once inside).2.2.2
  have covered := cover_pos (mem_map_of_mem (f := Holding.extent) mem) both
  omega

theorem Sound.release (sound : Sound capacity allocator (holding :: held)) :
    Sound capacity (allocator.release holding.extent) held := by
  obtain ⟨first, aligned⟩ := forall_mem_cons.mp sound.aligned
  refine sound.tiled.release.sound sound.slab sound.room aligned ?_
  have before := sound.used
  rw [map_cons, sum_cons, ← first] at before
  simp only [SlabAllocator.release]
  omega

theorem Sound.refused (sound : Sound capacity allocator held) (positive : 0 < size)
    (refused : allocator.alloc size = none) (start : Int) (low : 0 ≤ start)
    (high : start + alignedSize size ≤ capacity) :
    ∃ byte, start ≤ byte ∧ byte < start + alignedSize size ∧
      0 < cover (held.map Holding.extent) byte :=
  sound.tiled.refused (positive.trans_le (le_aligned_size size))
    (take_first_none (Option.map_eq_none_iff.mp refused)) start low high

theorem Sound.all_free (sound : Sound capacity allocator []) :
    allocator.free = [⟨0, capacity⟩] := by
  have room := sound.room
  have whole (byte : Int) : cover allocator.free byte = cover [⟨0, capacity⟩] byte := sound.whole byte
  have inside {byte : Int} (covered : 0 < cover allocator.free byte) : 0 ≤ byte ∧ byte < capacity := by
    rw [whole, cover_slab] at covered
    by_contra outside
    rw [if_neg outside] at covered
    exact Nat.lt_irrefl 0 covered
  obtain ⟨extent, mem, starts, ends⟩ := sound.tiled.spaced.run_inside room 0 fun byte above below => by
    rw [whole, cover_slab, if_pos ⟨above, by omega⟩]
    exact Nat.one_pos
  have size := sound.settled.filled extent mem
  have first := inside (cover_pos mem ⟨le_refl extent.offset, by omega⟩)
  have last := inside (cover_pos mem (⟨by omega, by omega⟩ :
    extent.Contains (extent.offset + extent.size - 1)))
  obtain rfl : extent = ⟨0, capacity⟩ := by
    cases extent
    simp only [Range.mk.injEq] at *
    omega
  obtain ⟨left, right, same⟩ := append_of_mem mem
  have alone : left ++ right = [] := by
    apply eq_nil_iff_forall_not_mem.mpr
    intro other listed
    have size := sound.settled.filled other (same ▸ by
      simp only [mem_append, mem_cons] at listed ⊢
      tauto)
    have covered := cover_pos listed ⟨le_refl other.offset, by omega⟩
    have total := whole other.offset
    rw [same, cover_append, cover_cons_single] at total
    rw [cover_append] at covered
    omega
  obtain ⟨rfl, rfl⟩ := append_eq_nil_iff.mp alone
  exact same

end Ledger

end Dataflow.Service
