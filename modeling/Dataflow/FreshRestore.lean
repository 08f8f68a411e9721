import Dataflow.SnapshotPlacement
import Mathlib.Data.List.Pairwise

/-!
A restore into a fresh store. It creates its targets one behind the other, and every
byte that lands somewhere has the value that the payload holds for it, provided that the
bytes that land on one place agree. Identity slices bring back metadata and protection.
-/

namespace Dataflow.Service

open StatefulOutcome ByteRanges KeyedTable List

/-! ### creating the targets of a fresh store -/

def laidOut : Int → List Required → List ObjectRecord
  | _, [] => []
  | base, want :: rest =>
    { id := want.target
      sizeBytes := want.size.toNat
      info := want.info.getD []
      extent := ⟨base, alignedSize want.size.toNat⟩
      version := 1 } :: laidOut (base + alignedSize want.size.toNat) rest

theorem laid_out_ids (required : List Required) (base : Int) :
    (laidOut base required).map ObjectRecord.id = required.map Required.target := by
  induction required generalizing base with
  | nil => rfl
  | cons want rest ih => simp only [laidOut, map_cons, ih]

variable {record : ObjectRecord} {required : List Required}

theorem laid_out_mem (required : List Required) (base : Int)
    (mem : record ∈ laidOut base required) :
    base ≤ record.extent.offset ∧ ∃ want ∈ required, record.id = want.target ∧
      record.sizeBytes = want.size.toNat ∧ record.info = want.info.getD [] ∧
      record.extent.size = alignedSize record.sizeBytes := by
  induction required generalizing base with
  | nil => exact absurd mem not_mem_nil
  | cons want rest ih =>
    rcases mem_cons.mp mem with rfl | later
    · exact ⟨le_refl _, want, mem_cons_self, rfl, rfl, rfl, rfl⟩
    · obtain ⟨above, other, listed, facts⟩ := ih _ later
      have grown := le_aligned_size (want.size.toNat : Int)
      exact ⟨by omega, other, mem_cons_of_mem want listed, facts⟩

def ExtentsClear (first second : ObjectRecord) : Prop :=
  first.extent.offset + first.extent.size ≤ second.extent.offset ∨
    second.extent.offset + second.extent.size ≤ first.extent.offset

instance : Std.Symm ExtentsClear := ⟨fun _ _ either => either.symm⟩

theorem laid_out_clear (required : List Required) (base : Int) :
    (laidOut base required).Pairwise ExtentsClear := by
  induction required generalizing base with
  | nil => exact .nil
  | cons want rest ih =>
    apply Pairwise.cons _ (ih _)
    intro later mem
    exact .inl (laid_out_mem rest _ mem).1

theorem laid_out_lookup {target : String}
    (found : lookup ObjectRecord.id target (laidOut 0 required) = some record) :
    ∃ want ∈ required, want.target = target ∧ record.sizeBytes = want.size.toNat ∧
      record.info = want.info.getD [] ∧ (record.sizeBytes : Int) ≤ record.extent.size := by
  obtain ⟨_, want, mem, named, sized, info, extent⟩ := laid_out_mem required 0 (lookup_mem found)
  refine ⟨want, mem, named.symm.trans (lookup_key found), sized, info, ?_⟩
  rw [extent]
  exact le_aligned_size _

theorem laid_out_found {want : Required} (mem : want ∈ required) :
    ∃ record, lookup ObjectRecord.id want.target (laidOut 0 required) = some record := by
  apply lookup_listed
  rw [laid_out_ids]
  exact mem_map_of_mem mem

theorem laid_out_place {first second : ObjectRecord}
    {left right : String} {place there : Int}
    (here : lookup ObjectRecord.id left (laidOut 0 required) = some first)
    (beside : lookup ObjectRecord.id right (laidOut 0 required) = some second)
    (low : 0 ≤ place) (high : place < first.sizeBytes) (above : 0 ≤ there)
    (below : there < second.sizeBytes)
    (same : first.extent.offset + place = second.extent.offset + there) :
    left = right ∧ place = there := by
  obtain ⟨_, _, _, _, _, first_fits⟩ := laid_out_lookup here
  obtain ⟨_, _, _, _, _, second_fits⟩ := laid_out_lookup beside
  by_cases one : first = second
  · subst one
    have named := (lookup_key here).symm.trans (lookup_key beside)
    exact ⟨named, by omega⟩
  · rcases (laid_out_clear required 0).forall (lookup_mem here)
      (lookup_mem beside) one with before | after <;> omega

/-- The free space is one extent of this room, or nothing when the room is used up. -/
def Flat (allocator : SlabAllocator) (base room : Int) : Prop :=
  allocator.free = [⟨base, room⟩] ∨ (room = 0 ∧ allocator.free = [])

theorem Flat.alloc {allocator : SlabAllocator} {base room : Int} (size : Nat)
    (flat : Flat allocator base room) (positive : 0 < size) (fits : alignedSize size ≤ room) :
    ∃ next, allocator.alloc size = some (⟨base, alignedSize size⟩, next) ∧
      Flat next (base + alignedSize size) (room - alignedSize size) := by
  have grown := le_aligned_size (size : Int)
  rcases flat with one | ⟨used, _⟩
  · have taken : takeFirst (alignedSize size) allocator.free = some (⟨base, alignedSize size⟩,
        if room = alignedSize size then []
        else [⟨base + alignedSize size, room - alignedSize size⟩]) := by
      simp only [one, takeFirst, fits, ↓reduceIte]
    simp only [SlabAllocator.alloc, taken, Option.map_some]
    refine ⟨_, rfl, ?_⟩
    by_cases exactly : room = alignedSize size
    · exact .inr ⟨by omega, if_pos exactly⟩
    · exact .inl (if_neg exactly)
  · omega

theorem create_targets_flat (required : List Required) (created : List String) (store : Store)
    (base room : Int) (flat : Flat store.allocator base room)
    (absent : ∀ want ∈ required, store.object want.target = none)
    (distinct : (required.map Required.target).Nodup)
    (positive : ∀ want ∈ required, 0 < want.size)
    (fits : (required.map fun want => alignedSize want.size.toNat).sum ≤ room) :
    ∃ allocator, createTargets required created store =
      .ok (created ++ required.map Required.target, { store with
        allocator := allocator
        objects := store.objects ++ laidOut base required }) := by
  induction required generalizing created store base room with
  | nil => exact ⟨store.allocator, by simp [createTargets, laidOut]⟩
  | cons want rest ih =>
    obtain ⟨unlisted, distinct⟩ := nodup_cons.mp distinct
    have wanted := positive want mem_cons_self
    have later_fit : 0 ≤ (rest.map fun want => alignedSize want.size.toNat).sum := by
      apply total_nonneg
      intro other _
      have grown := le_aligned_size (other.size.toNat : Int)
      omega
    rw [map_cons, sum_cons] at fits
    obtain ⟨next, room_found, left⟩ := flat.alloc want.size.toNat (by omega) (by omega)
    have missing := absent want mem_cons_self
    have put := put_absent (want.info.getD []) missing room_found
    let record : ObjectRecord :=
      { id := want.target
        sizeBytes := want.size.toNat
        info := want.info.getD []
        extent := ⟨base, alignedSize want.size.toNat⟩
        version := 1 }
    let after : Store := { store with allocator := next, objects := store.objects ++ [record] }
    have still : ∀ other ∈ rest, after.object other.target = none := by
      intro other mem
      have apart : ¬want.target = other.target := fun same =>
        unlisted (same ▸ mem_map_of_mem mem)
      show lookup ObjectRecord.id other.target (store.objects ++ [record]) = none
      have before : lookup ObjectRecord.id other.target store.objects = none :=
        absent other (mem_cons_of_mem want mem)
      rw [lookup_append_single, before, if_neg apart]
      rfl
    obtain ⟨allocator, made⟩ := ih (created ++ [want.target]) after _ _ left still distinct
      (forall_mem_cons.mp positive).2 (by omega)
    refine ⟨allocator, ?_⟩
    simp only [createTargets, missing]
    rw [put, ok_bind]
    rw [made]
    simp [after, record, laidOut]

/-! ### what a restore requires -/

theorem require_all (wants required : List Required)
    (agree : ∀ first ∈ required ++ wants, ∀ second ∈ required ++ wants,
      first.target = second.target → first.size = second.size) :
    ∃ done, wants.foldlM require required = .ok done ∧ (∀ want ∈ done, want ∈ required ++ wants) ∧
      ∀ want ∈ required ++ wants, ∃ kept ∈ done, kept.target = want.target := by
  induction wants generalizing required with
  | nil =>
    refine ⟨required, rfl, ?_, ?_⟩
    · intro want mem
      exact mem_append_left _ mem
    · intro want mem
      rw [append_nil] at mem
      exact ⟨want, mem, rfl⟩
  | cons want rest ih =>
    rw [foldlM_cons]
    cases seen : lookup Required.target want.target required with
    | none =>
      have added : require required want = .ok (required ++ [want]) := by
        simp only [require, seen]
      have listed : required ++ [want] ++ rest = required ++ want :: rest := by simp
      rw [← listed] at agree ⊢
      rw [added]
      exact ih (required ++ [want]) agree
    | some kept =>
      have mem := lookup_mem seen
      have named := lookup_key seen
      have same : kept.size = want.size := by
        apply agree kept (mem_append_left _ mem) want _ named
        exact mem_append_right _ mem_cons_self
      have skipped : require required want = .ok required := by
        simp only [require, seen, same, ne_eq, not_true_eq_false, ↓reduceIte]
      have fewer : ∀ other ∈ required ++ rest, other ∈ required ++ want :: rest := by
        exact forall_mem_append.mpr ⟨fun other early => mem_append_left _ early,
          fun other late => mem_append_right _ (mem_cons_of_mem want late)⟩
      obtain ⟨done, reached, from_wants, met⟩ := ih required fun first here second there =>
        agree first (fewer first here) second (fewer second there)
      rw [skipped]
      refine ⟨done, reached, fun other there => fewer other (from_wants other there), ?_⟩
      intro other there
      rcases mem_append.mp there with early | late
      · exact met other (mem_append_left _ early)
      · rcases mem_cons.mp late with rfl | later
        · obtain ⟨first, found, called⟩ := met kept (mem_append_left _ mem)
          exact ⟨first, found, called.trans named⟩
        · exact met other (mem_append_right _ later)

/-! ### protection -/

section Protection

variable {Digest : Type}

/-- The protection a record is left with: the last identity slice of its object decides. -/
def protection (slices : List (StoredSlice Digest)) (record : ObjectRecord) : Bool :=
  slices.foldl (fun kept slice =>
    if slice.entry.identitySlice ∧ slice.entry.id = record.id then slice.entry.isProtected
    else kept) record.isProtected

theorem restore_protection_objects (slices : List (StoredSlice Digest)) (store : Store) :
    (restoreProtection slices store).objects = store.objects.map (fun record =>
        { record with isProtected := protection slices record }) ∧
      (restoreProtection slices store).slab = store.slab := by
  induction slices generalizing store with
  | nil => exact ⟨by simp [restoreProtection, protection], rfl⟩
  | cons slice rest ih =>
    simp only [restoreProtection, foldl_cons] at ih ⊢
    by_cases whole : slice.entry.identitySlice
    · rw [if_pos whole]
      obtain ⟨objects, slab⟩ := ih (store.update slice.entry.id fun record =>
        { record with isProtected := slice.entry.isProtected })
      refine ⟨?_, slab⟩
      rw [objects, Store.update, update, map_map]
      apply map_congr_left
      intro record _
      by_cases hit : record.id = slice.entry.id
      · simp only [Function.comp_apply, hit, ↓reduceIte, protection, foldl_cons, whole, and_self]
      · have back : ¬slice.entry.id = record.id := fun same => hit same.symm
        simp only [Function.comp_apply, hit, ↓reduceIte, protection, foldl_cons, back, and_false]
    · rw [if_neg whole]
      obtain ⟨objects, slab⟩ := ih store
      refine ⟨?_, slab⟩
      rw [objects]
      apply map_congr_left
      intro record _
      simp only [protection, foldl_cons, whole, false_and, ↓reduceIte]

theorem protection_agreed {value : Bool} (slices : List (StoredSlice Digest))
    (record : ObjectRecord)
    (agreed : ∀ slice ∈ slices, slice.entry.identitySlice → slice.entry.id = record.id →
      slice.entry.isProtected = value) (met : record.isProtected = value ∨
      ∃ slice ∈ slices, slice.entry.identitySlice ∧ slice.entry.id = record.id) :
    protection slices record = value := by
  simp only [protection]
  generalize record.isProtected = kept at met
  induction slices generalizing kept with
  | nil =>
    rcases met with same | ⟨_, mem, _⟩
    · exact same
    · exact absurd mem not_mem_nil
  | cons slice rest ih =>
    rw [foldl_cons]
    apply ih (forall_mem_cons.mp agreed).2
    split_ifs with hit
    · exact .inl (agreed slice mem_cons_self hit.1 hit.2)
    rcases met with same | ⟨other, mem, facts⟩
    · exact .inl same
    · rcases mem_cons.mp mem with rfl | later
      · exact absurd facts hit
      · exact .inr ⟨other, later, facts⟩

end Protection

/-! ### restoring into a fresh store -/

def valueAt (data : SliceEntry → Bytes) (entry : SliceEntry) (byte : Int) : UInt8 :=
  (data entry).getD (byte - entry.dst.lo).toNat 0

/-- Each slice has its bytes; what lands on one target agrees on its size, and what lands
on one place agrees on the value there. -/
structure Placeable (entries : List SliceEntry) (remap : Option Remap)
    (data : SliceEntry → Bytes) : Prop where
  filled : ∀ entry ∈ entries, entry.dst.lo < entry.dst.hi ∧
    ((data entry).length : Int) = entry.dst.length
  inside : ∀ entry ∈ entries, ∀ byte target size place,
    Lands remap entry byte target size place → 0 ≤ place ∧ place < size
  sizes : ∀ first ∈ entries, ∀ second ∈ entries, ∀ byte other target size last place there,
    Lands remap first byte target size place → Lands remap second other target last there →
      size = last
  agree : ∀ first ∈ entries, ∀ second ∈ entries, ∀ byte other target size place,
    Lands remap first byte target size place → Lands remap second other target size place →
      valueAt data first byte = valueAt data second other
  whole : remap = none → ∀ entry ∈ entries, entry.identitySlice →
    ∀ other ∈ entries, other.logicalId = entry.logicalId → other = entry

/-- The store has exactly the targets, and every byte where it lands. -/
structure Restored (entries : List SliceEntry) (remap : Option Remap) (data : SliceEntry → Bytes)
    (store : Store) : Prop where
  distinct : (store.objects.map ObjectRecord.id).Nodup
  targets : ∀ target size, (∃ record, store.object target = some record ∧
      (record.sizeBytes : Int) = size) ↔
    ∃ entry ∈ entries, ∃ byte place, Lands remap entry byte target size place
  bytes : ∀ entry ∈ entries, ∀ byte target size place record,
    Lands remap entry byte target size place → store.object target = some record →
      0 ≤ place ∧ place < record.sizeBytes ∧
        store.slab (record.extent.offset + place) = valueAt data entry byte
  identity : remap = none → ∀ entry ∈ entries, entry.identitySlice →
    ∃ record, store.object entry.id = some record ∧ record.sizeBytes = entry.sizeBytes ∧
      record.info = entry.info ∧ record.isProtected = entry.isProtected

def Fresh (store : Store) : Prop :=
  store.objects = [] ∧ store.allocator.free = [⟨0, store.allocator.capacity⟩]

/-- The distinct targets fit, each with its aligned size. -/
def Roomy (entries : List SliceEntry) (remap : Option Remap) (room : Int) : Prop :=
  ∀ wanted : List (String × Int), wanted.Nodup →
    (∀ target ∈ wanted, ∃ entry ∈ entries, ∃ byte place,
      Lands remap entry byte target.1 target.2 place) →
    (wanted.map fun target => alignedSize target.2).sum ≤ room

section Fresh

variable {Digest : Type} {digest : Bytes → Digest} {payload : Bytes} {data : SliceEntry → Bytes}
  {slices : List (StoredSlice Digest)} {slice : StoredSlice Digest} {remap : Option Remap}
  {piece : Required × Placement} {required : List Required} {store : Store}

/-- One want for each target of a piece. -/
structure Requirements (slices : List (StoredSlice Digest)) (remap : Option Remap)
    (required : List Required) : Prop where
  distinct : (required.map Required.target).Nodup
  wanted : ∀ want ∈ required, ∃ slice ∈ slices, ∃ piece ∈ slicePieces remap slice, piece.1 = want
  met : ∀ slice ∈ slices, ∀ piece ∈ slicePieces remap slice,
    ∃ want ∈ required, want.target = piece.1.target

theorem Placeable.piece_start (placeable : Placeable (slices.map StoredSlice.entry) remap data)
    (mem : slice ∈ slices) (cut : piece ∈ slicePieces remap slice) :
    ∃ byte, Lands remap slice.entry byte piece.1.target piece.1.size piece.2.lo := by
  have filled := (placeable.filled _ (mem_map_of_mem mem)).1
  obtain ⟨byte, lands, _⟩ := piece_lands cut piece.2.lo (le_refl _) (piece_inside filled cut).1
  exact ⟨byte, lands⟩

theorem resolve_placements_ok (placeable : Placeable (slices.map StoredSlice.entry) remap data) :
    ∃ required, resolvePlacements slices remap =
        .ok ((slices.flatMap (slicePieces remap)).map Prod.snd, required) ∧
      Requirements slices remap required := by
  have agree : ∀ first ∈ (slices.flatMap (slicePieces remap)).map Prod.fst,
      ∀ second ∈ (slices.flatMap (slicePieces remap)).map Prod.fst,
        first.target = second.target → first.size = second.size := by
    intro first here second there same
    obtain ⟨piece, cut, rfl⟩ := mem_map.mp here
    obtain ⟨other, beside, rfl⟩ := mem_map.mp there
    obtain ⟨slice, mem, cut⟩ := mem_flatMap.mp cut
    obtain ⟨twin, listed, beside⟩ := mem_flatMap.mp beside
    obtain ⟨byte, lands⟩ := placeable.piece_start mem cut
    obtain ⟨byte', lands'⟩ := placeable.piece_start listed beside
    rw [← same] at lands'
    exact placeable.sizes _ (mem_map_of_mem mem) _ (mem_map_of_mem listed)
      _ _ _ _ _ _ _ lands lands'
  obtain ⟨required, reached, from_wants, met⟩ := require_all _ [] agree
  refine ⟨required, ?_, ?_, ?_, ?_⟩
  · simp only [resolvePlacements, reached]
    rfl
  · exact require_all_distinct _ [] required nodup_nil reached
  · intro want mem
    obtain ⟨piece, cut, named⟩ := mem_map.mp (from_wants want mem)
    obtain ⟨slice, listed, cut⟩ := mem_flatMap.mp cut
    exact ⟨slice, listed, piece, cut, named⟩
  · intro slice mem piece cut
    exact met piece.1 (mem_map_of_mem (mem_flatMap.mpr ⟨slice, mem, cut⟩))

theorem Requirements.lands (requires : Requirements slices remap required)
    (placeable : Placeable (slices.map StoredSlice.entry) remap data) {want : Required}
    (mem : want ∈ required) : ∃ entry ∈ slices.map StoredSlice.entry, ∃ byte place,
      Lands remap entry byte want.target want.size place := by
  obtain ⟨slice, listed, piece, cut, rfl⟩ := requires.wanted want mem
  obtain ⟨byte, lands⟩ := placeable.piece_start listed cut
  exact ⟨_, mem_map_of_mem listed, byte, _, lands⟩

theorem Requirements.of_lands (requires : Requirements slices remap required)
    (placeable : Placeable (slices.map StoredSlice.entry) remap data) {entry : SliceEntry}
    {byte size place : Int} {target : String} (mem : entry ∈ slices.map StoredSlice.entry)
    (lands : Lands remap entry byte target size place) :
    ∃ want ∈ required, want.target = target ∧ want.size = size := by
  obtain ⟨slice, listed, rfl⟩ := mem_map.mp mem
  obtain ⟨piece, cut, named, _, _⟩ := lands_piece lands
  obtain ⟨want, wanted, called⟩ := requires.met slice listed piece cut
  obtain ⟨entry, there, other, place', lands'⟩ := requires.lands placeable wanted
  rw [called, named] at lands'
  refine ⟨want, wanted, called.trans named, ?_⟩
  exact placeable.sizes _ there _ mem _ _ _ _ _ _ _ lands' lands

theorem admit_targets_empty (empty : store.objects = []) (overwrite : Bool)
    (required : List Required) : admitTargets store overwrite required = .ok () := by
  induction required with
  | nil => rfl
  | cons want rest ih =>
    have absent : store.object want.target = none := by
      rw [Store.object, empty]
      rfl
    simp only [admitTargets, absent, ih]

/-- The targets of a restore, as the job gets them. -/
def sortedTargets (required : List Required) : List String :=
  (required.map Required.target).insertionSort (· ≤ ·)

/-- The targets as the restore is admitted: created and leased. -/
def leasedTargets (required : List Required) : List ObjectRecord :=
  (laidOut 0 required).map fun record =>
    { record with leaseRefs := record.leaseRefs + (sortedTargets required).count record.id }

variable {file : SnapshotFile Digest} {request : RestoreRequest} {admitted : Store}

theorem admitted_object (objects : admitted.objects = leasedTargets required) (target : String) :
    admitted.object target = (lookup ObjectRecord.id target (laidOut 0 required)).map fun record =>
      { record with
        leaseRefs := record.leaseRefs + (sortedTargets required).count record.id } := by
  show lookup ObjectRecord.id target admitted.objects = _
  rw [objects]
  exact lookup_map fun _ => rfl

theorem admit_fresh (fresh : Fresh store)
    (schema : file.schema = snapshotSchema) (given : request.remap.filter (· ≠ []) = remap)
    (placeable : Placeable (file.slices.map StoredSlice.entry) remap data)
    (valid : ∀ plan, remap = some plan → validateRemap plan = .ok ())
    (roomy : Roomy (file.slices.map StoredSlice.entry) remap store.allocator.capacity) :
    ∃ required admitted, Requirements file.slices remap required ∧
      restoreSnapshot store (some file) request = .ok (⟨request.path, file,
        (file.slices.flatMap (slicePieces remap)).map Prod.snd,
        sortedTargets required, required.map Required.target, request.verify, remap⟩, admitted) ∧
      admitted.slab = store.slab ∧
      admitted.objects = leasedTargets required := by
  obtain ⟨empty, free⟩ := fresh
  obtain ⟨required, resolved, requires⟩ := resolve_placements_ok placeable
  have accepted : remap.elim (.ok ()) validateRemap = .ok () := by
    cases remap with
    | none => rfl
    | some plan => exact valid plan rfl
  have planned : planRestore store file request.overwrite remap =
      .ok ((file.slices.flatMap (slicePieces remap)).map Prod.snd, required) := by
    simp only [planRestore, accepted, resolved, admit_targets_empty empty]
    rfl
  have positive : ∀ want ∈ required, 0 < want.size := by
    intro want mem
    obtain ⟨entry, there, byte, place, lands⟩ := requires.lands placeable mem
    have inside := placeable.inside entry there _ _ _ _ lands
    omega
  have fits : (required.map fun want => alignedSize want.size.toNat).sum ≤
      store.allocator.capacity := by
    have apart : (required.map fun want => (want.target, want.size)).Nodup := by
      apply Nodup.of_map Prod.fst
      rw [map_map]
      exact requires.distinct
    have room := roomy (required.map fun want => (want.target, want.size)) apart (by
      intro target mem
      obtain ⟨want, listed, rfl⟩ := mem_map.mp mem
      exact requires.lands placeable listed)
    rw [map_map] at room
    rw [map_congr_left (g := (fun target => alignedSize target.2) ∘
      fun want : Required => (want.target, want.size))]
    · exact room
    · intro want mem
      have size := positive want mem
      simp only [Function.comp_apply, Int.toNat_of_nonneg (le_of_lt size)]
  obtain ⟨allocator, made⟩ := create_targets_flat required [] store 0 store.allocator.capacity
    (.inl free) (fun want _ => by rw [Store.object, empty]; rfl) requires.distinct positive fits
  rw [empty, nil_append, nil_append] at made
  let filled : Store := { store with allocator := allocator, objects := laidOut 0 required }
  have present : (sortedTargets required).find? (fun id => (filled.object id).isNone) = none := by
    apply find?_eq_none.mpr
    intro id mem absent
    obtain ⟨want, wanted, rfl⟩ := mem_map.mp ((perm_insertionSort _ _).mem_iff.mp mem)
    obtain ⟨record, found⟩ := laid_out_found wanted
    have clash := found.symm.trans (Option.isNone_iff_eq_none.mp absent)
    cases clash
  obtain ⟨objects, slab, _⟩ := fold_lease_objects (sortedTargets required) filled
  refine ⟨required, _, requires, ?_, slab, objects⟩
  simp only [restoreSnapshot, schema, given, ne_eq, not_true_eq_false, ↓reduceIte]
  have leased := Store.acquireLeases.eq_1 filled (sortedTargets required)
  rw [present] at leased
  simp only [planned, admitRestore, made, ok_bind]
  erw [leased]
  rfl

theorem piece_bytes (holds : Holds digest payload data slice)
    (filled : slice.entry.dst.lo < slice.entry.dst.hi)
    (long : ((data slice.entry).length : Int) = slice.entry.dst.length)
    (cut : piece ∈ slicePieces remap slice) :
    ((segment payload piece.2.fileOffset (piece.2.hi - piece.2.lo)).length : Int) =
        piece.2.hi - piece.2.lo ∧ ∀ index : Nat, (index : Int) < piece.2.hi - piece.2.lo →
        ∃ byte, Lands remap slice.entry byte piece.1.target piece.1.size (piece.2.lo + index) ∧
          (segment payload piece.2.fileOffset (piece.2.hi - piece.2.lo))[index]? =
            some (valueAt data slice.entry byte) := by
  obtain ⟨some_bytes, low, high⟩ := piece_inside filled cut
  have size := holds.size
  have top : piece.2.fileOffset + (piece.2.hi - piece.2.lo) ≤ slice.offset + slice.size := by omega
  refine ⟨holds.part_length low top (by omega), ?_⟩
  intro index below
  obtain ⟨byte, lands, offset⟩ := piece_lands cut (piece.2.lo + index) (by omega) (by omega)
  refine ⟨byte, lands, ?_⟩
  have place : (byte - slice.entry.dst.lo).toNat =
      (piece.2.fileOffset - slice.offset).toNat + index := by omega
  rw [holds.part low top (by omega), getElem?_take_of_lt (by omega), getElem?_drop,
    valueAt, place, getD_eq_getElem?_getD]
  have inside : (piece.2.fileOffset - slice.offset).toNat + index < (data slice.entry).length := by
    omega
  rw [getElem?_eq_getElem inside]
  rfl

theorem restore_job_fresh [DecidableEq Digest] (job : RestoreJob Digest)
    (content : job.file.payload = some payload)
    (holds : ∀ slice ∈ job.file.slices, Holds digest payload data slice)
    (placeable : Placeable (job.file.slices.map StoredSlice.entry) job.remap data)
    (requires : Requirements job.file.slices job.remap required)
    (placements : job.placements = (job.file.slices.flatMap (slicePieces job.remap)).map Prod.snd)
    (targets : job.targets = sortedTargets required)
    (objects : admitted.objects = leasedTargets required) :
    (restoreJob digest admitted job).1 = none ∧
      (restoreJob digest admitted job).2.objects = (laidOut 0 required).map (fun record =>
        { record with
          isProtected :=
            if job.remap = none then protection job.file.slices record else record.isProtected }) ∧
      (restoreJob digest admitted job).2.slab =
        writeAll admitted.slab (job.placements.map (placed admitted payload)) := by
  have opened : openPayload digest job = .ok payload := by
    simp only [openPayload, content]
    split_ifs
    · rw [verify_payload_holds job.file.slices holds]
      rfl
    · rfl
  have present : ∀ placement ∈ job.placements, (admitted.object placement.target).isSome := by
    intro placement mem
    rw [placements] at mem
    obtain ⟨piece, cut, rfl⟩ := mem_map.mp mem
    obtain ⟨slice, listed, cut⟩ := mem_flatMap.mp cut
    obtain ⟨want, wanted, named⟩ := requires.met slice listed piece cut
    obtain ⟨record, found⟩ := laid_out_found wanted
    rw [piece_target cut, ← named, admitted_object objects, found]
    rfl
  have full : ∀ placement ∈ job.placements,
      ((segment payload placement.fileOffset (placement.hi - placement.lo)).length : Int) =
        placement.hi - placement.lo := by
    intro placement mem
    rw [placements] at mem
    obtain ⟨piece, cut, rfl⟩ := mem_map.mp mem
    obtain ⟨slice, listed, cut⟩ := mem_flatMap.mp cut
    obtain ⟨filled, long⟩ := placeable.filled _ (mem_map_of_mem listed)
    exact (piece_bytes (holds slice listed) filled long cut).1
  have body := place_all_ok job.placements admitted present full
  simp only [restoreJob, restoreBody, opened, body, ok_bind]
  obtain ⟨released, slab, _⟩ := release_leases_objects job.targets
    (if job.remap = none then restoreProtection job.file.slices { admitted with
        slab := writeAll admitted.slab (job.placements.map (placed admitted payload)) }
      else { admitted with
        slab := writeAll admitted.slab (job.placements.map (placed admitted payload)) })
  refine ⟨trivial, ?_, ?_⟩
  · rw [released, targets]
    split_ifs with unmapped
    · rw [(restore_protection_objects _ _).1, objects, leasedTargets, map_map, map_map]
      apply map_congr_left
      intro record _
      simp [protection]
    · rw [objects, leasedTargets, map_map]
      apply map_congr_left
      intro record _
      simp
  · rw [slab]
    split_ifs with unmapped
    · rw [(restore_protection_objects _ _).2]
    · rfl

theorem restored_fresh {last : Store}
    (holds : ∀ slice ∈ slices, Holds digest payload data slice)
    (placeable : Placeable (slices.map StoredSlice.entry) remap data)
    (requires : Requirements slices remap required)
    (leased : admitted.objects = leasedTargets required)
    (objects : last.objects = (laidOut 0 required).map fun record =>
      { record with
        isProtected := if remap = none then protection slices record else record.isProtected })
    (slab : last.slab = writeAll admitted.slab
      (((slices.flatMap (slicePieces remap)).map Prod.snd).map (placed admitted payload))) :
    Restored (slices.map StoredSlice.entry) remap data last := by
  have last_object (target : String) : last.object target =
      (lookup ObjectRecord.id target (laidOut 0 required)).map fun record =>
        { record with
          isProtected := if remap = none then protection slices record else record.isProtected } := by
    show lookup ObjectRecord.id target last.objects = _
    rw [objects]
    exact lookup_map fun _ => rfl
  have base (target : String) (record : ObjectRecord)
      (found : lookup ObjectRecord.id target (laidOut 0 required) = some record) :
      admitted.base target = record.extent.offset := by
    simp only [Store.base, admitted_object leased, found, Option.map_some, Option.getD_some]
  have sized (target : String) (record : ObjectRecord)
      (found : lookup ObjectRecord.id target (laidOut 0 required) = some record) :
      ∃ entry ∈ slices.map StoredSlice.entry, ∃ byte place,
        Lands remap entry byte target record.sizeBytes place := by
    obtain ⟨want, wanted, rfl, size, _⟩ := laid_out_lookup found
    obtain ⟨entry, there, byte, place, lands⟩ := requires.lands placeable wanted
    have inside := placeable.inside entry there _ _ _ _ lands
    have exactly : (record.sizeBytes : Int) = want.size := by omega
    exact ⟨entry, there, byte, place, exactly ▸ lands⟩
  constructor
  · rw [objects, map_map]
    show ((laidOut 0 required).map ObjectRecord.id).Nodup
    rw [laid_out_ids]
    exact requires.distinct
  · intro target size
    constructor
    · rintro ⟨record, found, rfl⟩
      rw [last_object] at found
      obtain ⟨old, there, rfl⟩ := Option.map_eq_some_iff.mp found
      exact sized target old there
    rintro ⟨entry, mem, byte, place, lands⟩
    obtain ⟨want, wanted, rfl, rfl⟩ := requires.of_lands placeable mem lands
    obtain ⟨record, found⟩ := laid_out_found wanted
    obtain ⟨other, there, byte', place', lands'⟩ := sized want.target record found
    refine ⟨_, by rw [last_object, found, Option.map_some], ?_⟩
    exact placeable.sizes _ there _ mem _ _ _ _ _ _ _ lands' lands
  · intro entry mem byte target size place record lands found
    rw [last_object] at found
    obtain ⟨old, there, rfl⟩ := Option.map_eq_some_iff.mp found
    obtain ⟨other, listed, byte', place', lands'⟩ := sized target old there
    obtain rfl := placeable.sizes _ listed _ mem _ _ _ _ _ _ _ lands' lands
    obtain ⟨low, high⟩ := placeable.inside entry mem _ _ _ _ lands
    refine ⟨low, high, ?_⟩
    rw [slab]
    -- every write that meets this place carries a byte that lands on it
    apply write_all_agreed
    · intro step written index below here
      obtain ⟨placement, put, rfl⟩ := mem_map.mp written
      obtain ⟨piece, cut, rfl⟩ := mem_map.mp put
      obtain ⟨slice, stored, cut⟩ := mem_flatMap.mp cut
      obtain ⟨filled, long⟩ := placeable.filled _ (mem_map_of_mem stored)
      obtain ⟨whole, carried⟩ := piece_bytes (holds slice stored) filled long cut
      simp only [placed] at below here ⊢
      obtain ⟨moved, moves, value⟩ := carried index (by omega)
      obtain ⟨want, wanted, named⟩ := requires.met slice stored piece cut
      obtain ⟨second, beside⟩ := laid_out_found wanted
      rw [piece_target cut, ← named, base _ _ beside] at here
      rw [← named] at moves
      obtain ⟨twin, twin_there, _, _, twin_lands⟩ := sized _ _ beside
      have size := placeable.sizes _ twin_there _ (mem_map_of_mem stored) _ _ _ _ _ _ _
        twin_lands moves
      have within := placeable.inside _ (mem_map_of_mem stored) _ _ _ _ moves
      obtain ⟨rfl, rfl⟩ := laid_out_place there beside low high within.1 (by omega)
        (by omega)
      rw [there] at beside
      cases beside
      rw [value, placeable.agree _ (mem_map_of_mem stored) _ mem _ _ _ _ _ (size ▸ moves) lands]
    · right
      obtain ⟨slice, stored, rfl⟩ := mem_map.mp mem
      obtain ⟨piece, cut, named, _, above, under⟩ := lands_piece lands
      obtain ⟨filled, long⟩ := placeable.filled _ (mem_map_of_mem stored)
      have whole := (piece_bytes (holds slice stored) filled long cut).1
      refine ⟨placed admitted payload piece.2, mem_map_of_mem (mem_map_of_mem
        (mem_flatMap.mpr ⟨slice, stored, cut⟩)), (place - piece.2.lo).toNat, ?_, ?_⟩
      · simp only [placed]
        omega
      · simp only [placed]
        rw [piece_target cut, named, base _ _ there]
        omega
  · intro unmapped entry mem identity
    subst unmapped
    obtain ⟨filled, _⟩ := placeable.filled entry mem
    have lands : Lands none entry entry.dst.lo entry.logicalId entry.logicalBytes entry.dst.lo :=
      ⟨⟨le_refl _, filled⟩, rfl, rfl, rfl⟩
    obtain ⟨want, wanted, named, size⟩ := requires.of_lands placeable mem lands
    obtain ⟨record, found⟩ := laid_out_found wanted
    obtain ⟨source, from_required, called, sized_as, info, _⟩ := laid_out_lookup found
    obtain ⟨slice, stored, piece, cut, made⟩ := requires.wanted source from_required
    rw [slicePieces, mem_singleton] at cut
    subst cut
    -- no other slice has this logical object, so the want is its own
    have own : slice.entry = entry := by
      apply placeable.whole rfl entry mem identity _ (mem_map_of_mem stored)
      rw [← named, ← called, ← made]
    have target := named.trans identity.1
    rw [target] at found
    refine ⟨_, by rw [last_object, found, Option.map_some], ?_, ?_, ?_⟩
    · rw [sized_as, ← made, own, identity.2.2.2]
      rfl
    · rw [info, ← made, own, if_pos identity]
      rfl
    have id_of := lookup_key found
    apply protection_agreed
    · intro other listed whole same
      rw [placeable.whole rfl entry mem identity other.entry (mem_map_of_mem listed)]
      rw [whole.1, same, id_of, identity.1]
    · exact .inr ⟨slice, stored, own ▸ identity, by rw [own, id_of]⟩

theorem restore_fresh [DecidableEq Digest]
    (fresh : Fresh store) (schema : file.schema = snapshotSchema)
    (content : file.payload = some payload)
    (holds : ∀ slice ∈ file.slices, Holds digest payload data slice)
    (given : request.remap.filter (· ≠ []) = remap)
    (placeable : Placeable (file.slices.map StoredSlice.entry) remap data)
    (valid : ∀ plan, remap = some plan → validateRemap plan = .ok ())
    (roomy : Roomy (file.slices.map StoredSlice.entry) remap store.allocator.capacity) :
    ∃ job admitted, restoreSnapshot store (some file) request = .ok (job, admitted) ∧
      (restoreJob digest admitted job).1 = none ∧
      Restored (file.slices.map StoredSlice.entry) remap data
        (restoreJob digest admitted job).2 := by
  obtain ⟨required, admitted, requires, accepted, slab, objects⟩ :=
    admit_fresh fresh schema given placeable valid roomy
  obtain ⟨done, last, written⟩ := restore_job_fresh ⟨request.path, file,
      (file.slices.flatMap (slicePieces remap)).map Prod.snd,
      sortedTargets required, required.map Required.target, request.verify, remap⟩
    content holds placeable requires rfl rfl objects
  exact ⟨_, admitted, accepted, done, restored_fresh holds placeable requires objects last written⟩

end Fresh

end Dataflow.Service
