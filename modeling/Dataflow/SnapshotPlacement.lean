import Dataflow.RestoreAtomicity

/-!
Where a restore puts the bytes of a snapshot. `Lands` states the mapping of the slices
and of a remap plan byte by byte, without the intersections and file offsets of the
code; the pieces the code cuts are exactly the bytes that land. `Holds` says that a
payload file has the bytes of a slice.
-/

namespace Dataflow.Service

open StatefulOutcome ByteRanges List

def Span.Contains (span : Span) (byte : Int) : Prop := span.lo ≤ byte ∧ byte < span.hi

instance (span : Span) (byte : Int) : Decidable (span.Contains byte) :=
  inferInstanceAs (Decidable (_ ∧ _))

/-- A logical byte of a slice is restored to this place of a target of this size. -/
def Lands (remap : Option Remap) (entry : SliceEntry) (byte : Int) (target : String)
    (size place : Int) : Prop :=
  entry.dst.Contains byte ∧
    match remap with
    | none => entry.logicalId = target ∧ entry.logicalBytes = size ∧ byte = place
    | some plan => ∃ window ∈ (plan.lookup entry.logicalId).getD [],
        window.logical.Contains byte ∧ window.id = target ∧ window.bytes = size ∧
          window.target.lo + (byte - window.logical.lo) = place

section Pieces

variable {Digest : Type} {remap : Option Remap} {slice : StoredSlice Digest}
  {piece : Required × Placement} {byte size place : Int} {target : String}

theorem piece_lands (mem : piece ∈ slicePieces remap slice) (place : Int)
    (low : piece.2.lo ≤ place) (high : place < piece.2.hi) :
    ∃ byte, Lands remap slice.entry byte piece.1.target piece.1.size place ∧
      piece.2.fileOffset + (place - piece.2.lo) = slice.offset + (byte - slice.entry.dst.lo) := by
  cases remap with
  | none =>
    rw [slicePieces, mem_singleton] at mem
    subst mem
    exact ⟨place, ⟨⟨low, high⟩, rfl, rfl, rfl⟩, rfl⟩
  | some plan =>
    obtain ⟨window, listed, cut⟩ := mem_filterMap.mp mem
    simp only [windowPiece] at cut
    split_ifs at cut
    cases cut
    simp only at low high ⊢
    refine ⟨window.logical.lo + (place - window.target.lo), ⟨⟨?_, ?_⟩, window, listed,
      ⟨?_, ?_⟩, rfl, rfl, ?_⟩, ?_⟩ <;> omega

theorem lands_piece (lands : Lands remap slice.entry byte target size place) :
    ∃ piece ∈ slicePieces remap slice, piece.1.target = target ∧ piece.1.size = size ∧
      piece.2.lo ≤ place ∧ place < piece.2.hi := by
  obtain ⟨⟨low, high⟩, mapped⟩ := lands
  cases remap with
  | none =>
    obtain ⟨named, sized, same⟩ := mapped
    exact ⟨_, mem_singleton_self _, named, sized, same ▸ low, same ▸ high⟩
  | some plan =>
    obtain ⟨window, listed, ⟨above, below⟩, named, sized, same⟩ := mapped
    have cut : ∃ piece, windowPiece slice window = some piece ∧ piece.1.target = target ∧
        piece.1.size = size ∧ piece.2.lo ≤ place ∧ place < piece.2.hi := by
      simp only [windowPiece]
      rw [if_neg (by omega)]
      refine ⟨_, rfl, named, sized, ?_, ?_⟩ <;> simp only <;> omega
    obtain ⟨piece, found, facts⟩ := cut
    exact ⟨piece, mem_filterMap.mpr ⟨window, listed, found⟩, facts⟩

theorem piece_target (mem : piece ∈ slicePieces remap slice) : piece.2.target = piece.1.target := by
  cases remap with
  | none =>
    rw [slicePieces, mem_singleton] at mem
    rw [mem]
  | some plan =>
    obtain ⟨window, _, cut⟩ := mem_filterMap.mp mem
    simp only [windowPiece] at cut
    split_ifs at cut
    cases cut
    rfl

theorem piece_inside (filled : slice.entry.dst.lo < slice.entry.dst.hi)
    (mem : piece ∈ slicePieces remap slice) :
    piece.2.lo < piece.2.hi ∧ slice.offset ≤ piece.2.fileOffset ∧
      piece.2.fileOffset + (piece.2.hi - piece.2.lo) ≤ slice.offset + slice.entry.dst.length := by
  cases remap with
  | none =>
    rw [slicePieces, mem_singleton] at mem
    subst mem
    exact ⟨filled, le_refl _, le_refl _⟩
  | some plan =>
    obtain ⟨window, _, cut⟩ := mem_filterMap.mp mem
    simp only [windowPiece] at cut
    split_ifs at cut
    cases cut
    simp only [Span.length]
    omega

end Pieces

/-! ### the payload -/

section Payload

variable {Digest : Type} {digest : Bytes → Digest} {payload : Bytes} {data : SliceEntry → Bytes}
  {slices : List (StoredSlice Digest)} {slice : StoredSlice Digest}

/-- The payload has the bytes of the slice at its offset, under their hash. -/
structure Holds (digest : Bytes → Digest) (payload : Bytes) (data : SliceEntry → Bytes)
    (slice : StoredSlice Digest) : Prop where
  offset : 0 ≤ slice.offset
  size : slice.size = (data slice.entry).length
  bytes : segment payload slice.offset slice.size = data slice.entry
  hash : slice.hash = some (digest (data slice.entry))

theorem verify_payload_holds [DecidableEq Digest] (slices : List (StoredSlice Digest))
    (holds : ∀ slice ∈ slices, Holds digest payload data slice) :
    verifyPayload digest payload slices = .ok () := by
  induction slices with
  | nil => rfl
  | cons slice rest ih =>
    have here := holds slice mem_cons_self
    have long : ¬((data slice.entry).length : Int) < slice.size := by
      rw [here.size]
      omega
    simp only [verifyPayload, here.bytes, long, here.hash, ne_eq, not_true_eq_false, ↓reduceIte]
    exact ih (forall_mem_cons.mp holds).2

theorem Holds.part (holds : Holds digest payload data slice) {offset count : Int}
    (low : slice.offset ≤ offset) (high : offset + count ≤ slice.offset + slice.size)
    (nonneg : 0 ≤ count) : segment payload offset count =
      ((data slice.entry).drop (offset - slice.offset).toNat).take count.toNat := by
  have start := holds.offset
  have whole := holds.bytes
  simp only [segment] at whole ⊢
  rw [← whole, drop_take, take_take, drop_drop]
  congr 2 <;> omega

theorem Holds.part_length (holds : Holds digest payload data slice) {offset count : Int}
    (low : slice.offset ≤ offset) (high : offset + count ≤ slice.offset + slice.size)
    (nonneg : 0 ≤ count) : ((segment payload offset count).length : Int) = count := by
  have size := holds.size
  rw [holds.part low high nonneg, length_take, length_drop]
  omega

end Payload

/-! ### placing bytes -/

section Place

variable {payload : Bytes}

def Store.base (store : Store) (id : String) : Int :=
  ((store.object id).map fun record => record.extent.offset).getD 0

def placed (store : Store) (payload : Bytes) (placement : Placement) : Int × Bytes :=
  (store.base placement.target + placement.lo,
    segment payload placement.fileOffset (placement.hi - placement.lo))

theorem place_all_ok (placements : List Placement) (store : Store)
    (present : ∀ placement ∈ placements, (store.object placement.target).isSome)
    (full : ∀ placement ∈ placements,
      ((segment payload placement.fileOffset (placement.hi - placement.lo)).length : Int) =
        placement.hi - placement.lo) : placeAll payload placements store = .ok { store with
      slab := writeAll store.slab (placements.map (placed store payload)) } := by
  induction placements generalizing store with
  | nil => rfl
  | cons placement rest ih =>
    obtain ⟨record, found⟩ := Option.isSome_iff_exists.mp (present placement mem_cons_self)
    have long : ¬((segment payload placement.fileOffset
        (placement.hi - placement.lo)).length : Int) < placement.hi - placement.lo := by
      rw [full placement mem_cons_self]
      omega
    have start : store.base placement.target = record.extent.offset := by
      simp only [Store.base, found, Option.map_some, Option.getD_some]
    let next : Store := { store with
      slab := write store.slab (record.extent.offset + placement.lo)
        (segment payload placement.fileOffset (placement.hi - placement.lo)) }
    have later := ih next (forall_mem_cons.mp present).2
      (forall_mem_cons.mp full).2
    simp only [placeAll, found, long, ↓reduceIte]
    rw [later]
    simp only [writeAll, map_cons, foldl_cons, next]
    congr 2
    simp only [placed, start]
    rfl

end Place

end Dataflow.Service
