import Dataflow.FreshRestore
import Mathlib.Data.List.Dedup

/-!
A snapshot and its restore, end to end. The payload job appends the slices at aligned
offsets, so every slice can be read back at its own; what `resolve_slices` and
`validate_remap` check makes the slices placeable, once no two windows write to one
place. The check on the windows compares logical ranges only.
-/

namespace Dataflow.Service

open StatefulOutcome ByteRanges KeyedTable List

/-! ### what the checks establish -/

def SizesAgree (sizes : List (String × Int)) : Prop :=
  ∀ first ∈ sizes, ∀ second ∈ sizes, first.1 = second.1 → first.2 = second.2

variable {sizes : List (String × Int)}
  {name logicalId : String} {store : Store} {window : Window}

theorem SizesAgree.cons {size : Int}
    (agree : SizesAgree sizes) (seen : ∀ value, sizes.lookup name = some value → value = size) :
    SizesAgree ((name, size) :: sizes) := by
  have known : ∀ pair ∈ sizes, pair.1 = name → pair.2 = size := by
    intro pair mem same
    cases found : sizes.lookup name with
    | none =>
      have unlisted := lookup_eq_none_iff.mp found pair mem
      simp [same] at unlisted
    | some value =>
      obtain ⟨before, after, split, _⟩ := lookup_eq_some_iff.mp found
      have here : (name, value) ∈ sizes := by
        rw [split]
        exact mem_append_right _ mem_cons_self
      rw [agree pair mem _ here same]
      exact seen value found
  intro first here second there same
  rcases mem_cons.mp here with rfl | early <;> rcases mem_cons.mp there with rfl | late
  · rfl
  · exact (known second late same.symm).symm
  · exact known first early same
  · exact agree first early second late same

/-- What a resolved slice says about the store. -/
structure Resolved (store : Store) (entry : SliceEntry) (record : ObjectRecord) : Prop where
  found : store.object entry.id = some record
  size : entry.sizeBytes = record.sizeBytes
  info : entry.info = record.info
  guarded : entry.isProtected = record.isProtected
  src : entry.src.Inside record.sizeBytes
  length : entry.dst.length = entry.src.length
  dst : entry.dst.Inside entry.logicalBytes

theorem resolve_slice_ok {spec : SliceSpec}
    {entry : SliceEntry} (resolved : resolveSlice store sizes spec = .ok entry) :
    (∃ record, Resolved store entry record) ∧
      ∀ seen, sizes.lookup entry.logicalId = some seen → seen = entry.logicalBytes := by
  simp only [resolveSlice] at resolved
  split at resolved
  · cases resolved
  next record found =>
  split_ifs at resolved with src length dst
  rw [not_ne_iff] at length
  split at resolved
  · next seen known =>
    split_ifs at resolved with same
    cases resolved
    refine ⟨⟨record, found, rfl, rfl, rfl, src, length, dst⟩, ?_⟩
    intro value again
    rw [known] at again
    cases again
    exact not_not.mp same
  · next unknown =>
    cases resolved
    refine ⟨⟨record, found, rfl, rfl, rfl, src, length, dst⟩, ?_⟩
    intro value again
    rw [unknown] at again
    cases again

theorem SizesAgree.mono {sizes fewer : List (String × Int)} (agree : SizesAgree sizes)
    (within : ∀ pair ∈ fewer, pair ∈ sizes) : SizesAgree fewer :=
  fun first here second there => agree first (within first here) second (within second there)

theorem resolve_slices_from_ok (specs : List SliceSpec)
    (sizes : List (String × Int)) (entries : List SliceEntry)
    (resolved : resolveSlicesFrom store sizes specs = .ok entries) (agree : SizesAgree sizes) :
    (∀ entry ∈ entries, ∃ record, Resolved store entry record) ∧
      SizesAgree (entries.map (fun entry => (entry.logicalId, entry.logicalBytes)) ++ sizes) := by
  induction specs generalizing sizes entries with
  | nil =>
    cases resolved
    exact ⟨forall_mem_nil _, agree⟩
  | cons spec specs ih =>
    obtain ⟨entry, first, resolved⟩ := bind_ok.mp resolved
    obtain ⟨rest, others, resolved⟩ := bind_ok.mp resolved
    cases resolved
    obtain ⟨here, known⟩ := resolve_slice_ok first
    obtain ⟨later, together⟩ := ih _ rest others (agree.cons known)
    refine ⟨?_, together.mono ?_⟩
    · exact forall_mem_cons.mpr ⟨here, later⟩
    · intro pair mem
      simp only [map_cons, cons_append, mem_cons, mem_append] at mem ⊢
      tauto

/-! ### remap plans -/

/-- What the checks on one window establish. -/
structure WindowValid (window : Window) : Prop where
  filled : window.logical.lo < window.logical.hi
  length : window.logical.length = window.target.length
  inside : window.target.Inside window.bytes

theorem validate_window_ok
    {done : Unit} (checked : validateWindow logicalId sizes window = .ok done) :
    WindowValid window ∧ ∀ seen, sizes.lookup window.id = some seen → seen = window.bytes := by
  simp only [validateWindow] at checked
  split_ifs at checked with shape inside
  rw [not_or, not_le, not_ne_iff] at shape
  refine ⟨⟨shape.1, shape.2, inside⟩, ?_⟩
  intro seen known
  rw [known] at checked
  simp only at checked
  split_ifs at checked with same
  exact not_ne_iff.mp same

theorem validate_windows_ok (windows : List Window)
    (sizes after : List (String × Int))
    (valid : validateWindows logicalId sizes windows = .ok after) (agree : SizesAgree sizes) :
    (∀ window ∈ windows, WindowValid window ∧ (window.id, window.bytes) ∈ after) ∧
      (∀ pair ∈ sizes, pair ∈ after) ∧ SizesAgree after := by
  induction windows generalizing sizes with
  | nil =>
    cases valid
    exact ⟨forall_mem_nil _, fun _ mem => mem, agree⟩
  | cons window rest ih =>
    obtain ⟨_, checked, valid⟩ := bind_ok.mp valid
    obtain ⟨facts, known⟩ := validate_window_ok checked
    obtain ⟨later, kept, together⟩ := ih _ valid (agree.cons known)
    refine ⟨?_, (forall_mem_cons.mp kept).2, together⟩
    exact forall_mem_cons.mpr ⟨⟨facts, kept _ mem_cons_self⟩, later⟩

theorem validate_remap_from_ok (plan : Remap) (sizes : List (String × Int))
    (valid : validateRemapFrom sizes plan = .ok ()) (agree : SizesAgree sizes) :
    ∃ after, (∀ named ∈ plan, ∀ window ∈ named.2,
        WindowValid window ∧ (window.id, window.bytes) ∈ after) ∧
      (∀ pair ∈ sizes, pair ∈ after) ∧ SizesAgree after := by
  induction plan generalizing sizes with
  | nil => exact ⟨sizes, forall_mem_nil _, fun _ mem => mem, agree⟩
  | cons named rest ih =>
    obtain ⟨logicalId, windows⟩ := named
    obtain ⟨between, checked, valid⟩ := bind_ok.mp valid
    split_ifs at valid
    obtain ⟨here, kept, agree⟩ := validate_windows_ok windows sizes between checked agree
    obtain ⟨after, later, onward, together⟩ := ih between valid agree
    refine ⟨after, ?_, fun pair mem => onward pair (kept pair mem), together⟩
    exact forall_mem_cons.mpr ⟨fun window listed => ⟨(here window listed).1,
      onward _ (here window listed).2⟩, later⟩

/-! ### the payload file -/

section Payload

variable {Digest : Type}

def savedBytes (store : Store) (entry : SliceEntry) : Bytes :=
  ((store.object entry.id).map fun record => sliceBytes store record entry.src).getD []

theorem le_align_up (count : Int) : count ≤ alignUp count := by
  rw [alignUp, mul_comm]
  simp only [align] at *
  omega

theorem write_at_append {payload : Bytes} (offset : Nat) (data : Bytes)
    (short : payload.length ≤ offset) : writeAt payload offset data =
      payload ++ (replicate (offset - payload.length) 0 ++ data) := by
  rw [writeAt, take_of_length_le short, drop_eq_nil_of_le (by omega), append_nil,
    append_assoc]

theorem segment_appended (before data after : Bytes) :
    segment (before ++ (data ++ after)) before.length data.length = data := by
  simp [segment]

theorem copy_slices_holds (digest : Bytes → Digest) (store : Store) (entries : List SliceEntry)
    (offset : Int) (payload : Bytes) (short : (payload.length : Int) ≤ offset)
    (found : ∀ entry ∈ entries, ∃ record, Resolved store entry record) :
    ∃ slices file, copySlices digest store (planPayload offset entries).1 payload =
        some (slices, file) ∧
      slices.map StoredSlice.entry = entries ∧ (∃ tail, file = payload ++ tail) ∧
      ∀ slice ∈ slices, Holds digest file (savedBytes store) slice := by
  induction entries generalizing offset payload with
  | nil =>
    exact ⟨[], payload, rfl, rfl, ⟨[], (append_nil _).symm⟩, forall_mem_nil _⟩
  | cons entry rest ih =>
    obtain ⟨record, resolved⟩ := found entry mem_cons_self
    have saved : savedBytes store entry = sliceBytes store record entry.src := by
      rw [savedBytes, resolved.found]
      rfl
    have length : ((sliceBytes store record entry.src).length : Int) = entry.src.length := by
      have inside := resolved.src
      simp only [Span.Inside] at inside
      simp only [sliceBytes, read_length, Span.length]
      omega
    have appended := write_at_append offset.toNat (sliceBytes store record entry.src)
      (by omega : payload.length ≤ offset.toNat)
    have next_short : ((writeAt payload offset.toNat
        (sliceBytes store record entry.src)).length : Int) ≤
        alignUp (offset + entry.src.length) := by
      have grown := le_align_up (offset + entry.src.length)
      rw [appended, length_append, length_append, length_replicate]
      omega
    obtain ⟨slices, file, copied, listed, ⟨tail, grown⟩, holds⟩ := ih _ _ next_short
      (forall_mem_cons.mp found).2
    refine ⟨⟨entry, offset, entry.src.length,
      some (digest (sliceBytes store record entry.src))⟩ :: slices, file, ?_, ?_, ?_, ?_⟩
    · simp only [planPayload, copySlices, resolved.found]
      show (copySlices digest store (planPayload (alignUp (offset + entry.src.length)) rest).1
        (writeAt payload offset.toNat (sliceBytes store record entry.src)) >>= _) = _
      rw [copied]
      rfl
    · rw [map_cons, listed]
    · exact ⟨_, by rw [grown, appended, append_assoc]⟩
    intro slice mem
    rcases mem_cons.mp mem with rfl | later
    · refine ⟨?_, ?_, ?_, ?_⟩
      · show 0 ≤ offset
        omega
      · rw [saved, length]
      · rw [saved, grown, appended, ← append_assoc payload, append_assoc]
        have reads := segment_appended (payload ++ replicate (offset.toNat - payload.length) 0)
          (sliceBytes store record entry.src) tail
        have start : ((payload ++ replicate (offset.toNat - payload.length)
            (0 : UInt8)).length : Int) = offset := by
          rw [length_append, length_replicate]
          omega
        rw [start, length] at reads
        exact reads
      · rw [saved]
    · exact holds slice later

def requestedSlices (store : Store) (slices : Option (List SliceSpec)) : List SliceSpec :=
  slices.getD (store.sortedIds.map fun id => { id := id })

theorem Resolved.leased {store : Store} {ids : List String} {entry : SliceEntry}
    {record : ObjectRecord} (resolved : Resolved store entry record) :
    (∃ record, Resolved (ids.foldl (fun store id => store.lease id (· + 1)) store) entry record) ∧
      savedBytes (ids.foldl (fun store id => store.lease id (· + 1)) store) entry =
        savedBytes store entry := by
  obtain ⟨objects, slab, _⟩ := fold_lease_objects ids store
  have found : (ids.foldl (fun store id => store.lease id (· + 1)) store).object entry.id =
      some { record with leaseRefs := record.leaseRefs + ids.count record.id } := by
    have listed : lookup ObjectRecord.id entry.id store.objects = some record := resolved.found
    show lookup ObjectRecord.id entry.id
      (ids.foldl (fun store id => store.lease id (· + 1)) store).objects = _
    rw [objects, lookup_map, listed]
    · rfl
    · intro _
      rfl
  refine ⟨⟨_, { resolved with found := found }⟩, ?_⟩
  rw [savedBytes, savedBytes, found, resolved.found]
  simp only [Option.map_some, Option.getD_some, sliceBytes, slab]

theorem snapshot_file (digest : Bytes → Digest) {store : Store} {slices : Option (List SliceSpec)}
    {entries : List SliceEntry}
    (accepted : resolveSlices store (requestedSlices store slices) = .ok entries)
    (some_slices : entries ≠ []) :
    ∃ job leased file payload, snapshot store slices = .ok (job, leased) ∧
      (snapshotJob digest leased job).1 = some file ∧ file.schema = snapshotSchema ∧
      file.payload = some payload ∧ file.slices.map StoredSlice.entry = entries ∧
      ∀ slice ∈ file.slices, Holds digest payload (savedBytes store) slice := by
  have resolved := (resolve_slices_from_ok _ [] entries accepted
    (forall_mem_nil _)).1
  have explicit : ¬slices = some [] := by
    rintro rfl
    cases accepted
    exact some_slices rfl
  have stocked : ¬(slices = none ∧ store.objects = []) := by
    rintro ⟨rfl, empty⟩
    simp only [requestedSlices, Store.sortedIds, empty] at accepted
    cases accepted
    exact some_slices rfl
  have present : (sortedSet (entries.map SliceEntry.id)).find?
      (fun id => (store.object id).isNone) = none := by
    apply find?_eq_none.mpr
    intro id mem absent
    have named := mem_dedup.mp ((perm_insertionSort _ _).mem_iff.mp mem)
    obtain ⟨entry, listed, rfl⟩ := mem_map.mp named
    obtain ⟨record, here⟩ := resolved entry listed
    rw [here.found] at absent
    cases absent
  let ids := sortedSet (entries.map SliceEntry.id)
  let leased := ids.foldl (fun store id => store.lease id (· + 1)) store
  have leased_resolved : ∀ entry ∈ entries, (∃ record, Resolved leased entry record) ∧
      savedBytes leased entry = savedBytes store entry := by
    intro entry mem
    obtain ⟨record, here⟩ := resolved entry mem
    exact here.leased
  obtain ⟨stored, payload, copied, listed, _, holds⟩ := copy_slices_holds digest leased entries 0 []
    (le_refl _) fun entry mem => (leased_resolved entry mem).1
  let plan : List (StoredSlice Digest) × Int := planPayload 0 entries
  refine ⟨⟨plan.1, ids, plan.2⟩, leased,
    ⟨snapshotSchema, stored, some payload⟩, payload, ?_, ?_, rfl, rfl, listed, ?_⟩
  · have reached : resolveSlices store (slices.getD (store.sortedIds.map fun id => { id := id })) =
        .ok entries := accepted
    simp only [snapshot, explicit, stocked, ↓reduceIte, reached, Store.acquireLeases, present]
    rfl
  · simp only [snapshotJob, plan, copied, Option.map_some]
  · intro slice mem
    have here := holds slice mem
    have same := (leased_resolved slice.entry (listed ▸ mem_map_of_mem mem)).2
    exact ⟨here.offset, same ▸ here.size, same ▸ here.bytes, same ▸ here.hash⟩

end Payload

/-! ### placeable slices -/

/-- Slices of one logical object do not overlap in it. -/
def SlicesApart (first second : SliceEntry) : Prop :=
  first.logicalId = second.logicalId →
    first.dst.hi ≤ second.dst.lo ∨ second.dst.hi ≤ first.dst.lo

instance : Std.Symm SlicesApart := ⟨fun _ _ apart same => (apart same.symm).symm⟩

def WindowsApart (first second : Window) : Prop :=
  first.id = second.id →
    first.target.hi ≤ second.target.lo ∨ second.target.hi ≤ first.target.lo

instance : Std.Symm WindowsApart := ⟨fun _ _ apart same => (apart same.symm).symm⟩

/-- The windows of two logical objects, each with each. -/
def PlansApart (first second : String × List Window) : Prop :=
  ∀ window ∈ first.2, ∀ other ∈ second.2, WindowsApart window other

instance : Std.Symm PlansApart :=
  ⟨fun _ _ apart window here other there => Std.Symm.symm _ _ (apart other there window here)⟩

theorem window_listed {plan : Remap}
    (mem : window ∈ (plan.lookup name).getD []) :
    ∃ windows, (name, windows) ∈ plan ∧ window ∈ windows := by
  cases found : plan.lookup name with
  | none =>
    rw [found] at mem
    exact absurd mem not_mem_nil
  | some windows =>
    rw [found] at mem
    obtain ⟨before, after, split, _⟩ := lookup_eq_some_iff.mp found
    refine ⟨windows, ?_, mem⟩
    rw [split]
    exact mem_append_right _ mem_cons_self

section Placeable

variable {store : Store} {entries : List SliceEntry} {first second entry : SliceEntry}

theorem covered_once (apart : entries.Pairwise SlicesApart) (here : first ∈ entries)
    (there : second ∈ entries) (same : first.logicalId = second.logicalId) {byte : Int}
    (covered : first.dst.Contains byte) (again : second.dst.Contains byte) : first = second := by
  by_contra ne
  have away := apart.forall here there ne same
  simp only [Span.Contains] at covered again
  omega

theorem Resolved.filled {record : ObjectRecord} (resolved : Resolved store entry record) :
    entry.dst.lo < entry.dst.hi ∧ ((savedBytes store entry).length : Int) = entry.dst.length := by
  have src := resolved.src
  have dst := resolved.dst
  have length := resolved.length
  simp only [Span.Inside] at src dst
  refine ⟨dst.2.1, ?_⟩
  rw [savedBytes, resolved.found]
  simp only [Option.map_some, Option.getD_some, sliceBytes, read_length]
  simp only [Span.length] at length ⊢
  omega

theorem placeable_logical (resolved : ∀ entry ∈ entries, ∃ record, Resolved store entry record)
    (sizes : SizesAgree (entries.map fun entry => (entry.logicalId, entry.logicalBytes)))
    (apart : entries.Pairwise SlicesApart) : Placeable entries none (savedBytes store) where
  filled := by
    intro entry mem
    obtain ⟨record, here⟩ := resolved entry mem
    exact here.filled
  inside := by
    rintro entry mem byte target size place ⟨⟨low, high⟩, rfl, rfl, rfl⟩
    obtain ⟨record, here⟩ := resolved entry mem
    obtain ⟨above, _, below⟩ := here.dst
    omega
  sizes := by
    rintro first here second there byte other target size last place far
      ⟨_, named, rfl, _⟩ ⟨_, called, rfl, _⟩
    exact sizes _ (mem_map_of_mem here) _ (mem_map_of_mem there) (named.trans called.symm)
  agree := by
    rintro first here second there byte other target size place
      ⟨covered, named, _, rfl⟩ ⟨again, called, _, rfl⟩
    rw [covered_once apart here there (named.trans called.symm) covered again]
  whole := by
    rintro - entry mem identity other listed same
    have inside : entry.dst.Contains other.dst.lo := by
      obtain ⟨record, here⟩ := resolved other listed
      obtain ⟨low, filled, high⟩ := here.dst
      obtain ⟨_, src, dst, size⟩ := identity
      have bytes := sizes _ (mem_map_of_mem listed) _ (mem_map_of_mem mem) same
      rw [Span.Contains, dst, src]
      simp only
      omega
    obtain ⟨record, here⟩ := resolved other listed
    exact covered_once apart listed mem same ⟨le_refl _, here.dst.2.1⟩ inside

theorem placeable_windows {plan : Remap}
    (resolved : ∀ entry ∈ entries, ∃ record, Resolved store entry record)
    (apart : entries.Pairwise SlicesApart) (valid : validateRemap plan = .ok ())
    (clear : (plan.flatMap Prod.snd).Pairwise WindowsApart) :
    Placeable entries (some plan) (savedBytes store) := by
  obtain ⟨after, checked, _, sizes⟩ := validate_remap_from_ok plan [] valid
    (forall_mem_nil _)
  obtain ⟨_, plans⟩ := pairwise_flatMap.mp clear
  have plans : plan.Pairwise PlansApart := plans
  constructor
  case filled =>
    intro entry mem
    obtain ⟨record, here⟩ := resolved entry mem
    exact here.filled
  case inside =>
    rintro entry mem byte target size place ⟨_, window, listed, ⟨low, high⟩, rfl, rfl, rfl⟩
    obtain ⟨windows, named, listed⟩ := window_listed listed
    obtain ⟨⟨_, length, inside⟩, _⟩ := checked _ named window listed
    simp only [Span.length, Span.Inside] at length inside
    omega
  case sizes =>
    rintro first here second there byte other target size last place far
      ⟨_, window, listed, _, named, rfl, _⟩ ⟨_, twin, beside, _, called, rfl, _⟩
    obtain ⟨windows, keyed, listed⟩ := window_listed listed
    obtain ⟨others, beside_keyed, beside⟩ := window_listed beside
    exact sizes _ (checked _ keyed window listed).2 _ (checked _ beside_keyed twin beside).2
      (named.trans called.symm)
  case agree =>
    rintro first here second there byte other target size place
      ⟨covered, window, listed, shown, named, _, lands⟩ ⟨again, twin, beside, seen, called, _, meets⟩
    obtain ⟨windows, keyed, listed⟩ := window_listed listed
    obtain ⟨others, beside_keyed, beside⟩ := window_listed beside
    have length := (checked _ keyed window listed).1.length
    have twin_length := (checked _ beside_keyed twin beside).1.length
    -- two windows that share this place are one window of one logical object
    have together : ¬WindowsApart window twin := by
      intro away
      have away := away (named.trans called.symm)
      simp only [Span.Contains, Span.length] at shown seen length twin_length
      omega
    have same_window : window = twin := by
      by_contra ne
      exact together (clear.forall (mem_flatMap.mpr ⟨_, keyed, listed⟩)
        (mem_flatMap.mpr ⟨_, beside_keyed, beside⟩) ne)
    have same_logical : first.logicalId = second.logicalId := by
      by_contra ne
      have away := plans.forall keyed beside_keyed fun same => ne (congrArg Prod.fst same)
      exact together (away window listed twin beside)
    subst same_window
    obtain rfl : byte = other := by omega
    rw [covered_once apart here there same_logical covered again]
  case whole =>
    intro unmapped
    cases unmapped

end Placeable

/-! ### the round trip -/

/-- What restoring a snapshot of the source leaves in an empty store. -/
structure RoundTrip (source : Store) (entries : List SliceEntry) (remap : Option Remap)
    (store : Store) : Prop where
  distinct : (store.objects.map ObjectRecord.id).Nodup
  targets : ∀ target size, (∃ record, store.object target = some record ∧
      (record.sizeBytes : Int) = size) ↔
    ∃ entry ∈ entries, ∃ byte place, Lands remap entry byte target size place
  bytes : ∀ entry ∈ entries, ∀ byte target size place record old,
    Lands remap entry byte target size place → store.object target = some record →
      source.object entry.id = some old →
      0 ≤ place ∧ place < record.sizeBytes ∧ store.slab (record.extent.offset + place) =
        source.slab (old.extent.offset + entry.src.lo + (byte - entry.dst.lo))
  identity : remap = none → ∀ entry ∈ entries, entry.identitySlice →
    ∀ old, source.object entry.id = some old →
      ∃ record, store.object entry.id = some record ∧ record.sizeBytes = old.sizeBytes ∧
        record.info = old.info ∧ record.isProtected = old.isProtected

theorem Restored.round_trip {source : Store} {entries : List SliceEntry}
    {remap : Option Remap} (resolved : ∀ entry ∈ entries, ∃ record, Resolved source entry record)
    (restored : Restored entries remap (savedBytes source) store) :
    RoundTrip source entries remap store where
  distinct := restored.distinct
  targets := restored.targets
  bytes := by
    intro entry mem byte target size place record old lands found there
    obtain ⟨low, high, value⟩ := restored.bytes entry mem _ _ _ _ record lands found
    refine ⟨low, high, value.trans ?_⟩
    obtain ⟨record, here⟩ := resolved entry mem
    obtain rfl := Option.some.inj (here.found.symm.trans there)
    obtain ⟨_, _⟩ := lands.1
    have src := here.src
    have length := here.length
    simp only [Span.Inside, Span.length] at src length
    rw [valueAt, savedBytes, here.found, getD_eq_getElem?_getD]
    simp only [Option.map_some, Option.getD_some, sliceBytes, Span.length]
    rw [read_byte (by omega), Option.getD_some]
    congr 1
    omega
  identity := by
    intro unmapped entry mem identity old there
    obtain ⟨record, found, size, info, guarded⟩ := restored.identity unmapped entry mem identity
    obtain ⟨origin, here⟩ := resolved entry mem
    obtain rfl := Option.some.inj (here.found.symm.trans there)
    exact ⟨record, found, size.trans here.size, info.trans here.info, guarded.trans here.guarded⟩

section RoundTrip

variable {Digest : Type} [DecidableEq Digest]

/-- Save the slices of one store, and restore the file into another. -/
def saveAndRestore (digest : Bytes → Digest) (source target : Store)
    (slices : Option (List SliceSpec)) (request : RestoreRequest) : Option Store := do
  let (job, leased) ← (snapshot source slices).toOption
  let file ← (snapshotJob digest leased job).1
  let (restore, admitted) ← (restoreSnapshot target (some file) request).toOption
  if (restoreJob digest admitted restore).1 = none then (restoreJob digest admitted restore).2
  else none

/-- The round trip, for slices that do not overlap in their logical objects and windows
that do not overlap in their targets. -/
theorem snapshot_restore_round_trip (digest : Bytes → Digest) (source target : Store)
    (slices : Option (List SliceSpec)) (entries : List SliceEntry) (request : RestoreRequest)
    (accepted : resolveSlices source (requestedSlices source slices) = .ok entries)
    (some_slices : entries ≠ []) (apart : entries.Pairwise SlicesApart)
    (valid : ∀ plan, request.remap = some plan →
      validateRemap plan = .ok () ∧ (plan.flatMap Prod.snd).Pairwise WindowsApart)
    (fresh : Fresh target)
    (roomy : Roomy entries (request.remap.filter (· ≠ [])) target.allocator.capacity) :
    ∃ restored, saveAndRestore digest source target slices request = some restored ∧
      RoundTrip source entries (request.remap.filter (· ≠ [])) restored := by
  obtain ⟨resolved, sizes⟩ := resolve_slices_from_ok _ [] entries accepted
    (forall_mem_nil _)
  rw [append_nil] at sizes
  obtain ⟨job, leased, file, payload, saved, written, schema, content, listed, holds⟩ :=
    snapshot_file digest accepted some_slices
  have placeable : Placeable entries (request.remap.filter (· ≠ [])) (savedBytes source) := by
    cases given : request.remap.filter (· ≠ []) with
    | none => exact placeable_logical resolved sizes apart
    | some plan =>
      obtain ⟨checked, clear⟩ := valid plan (Option.filter_eq_some_iff.mp given).1
      exact placeable_windows resolved apart checked clear
  rw [← listed] at placeable roomy
  obtain ⟨restore, admitted, accepted, done, exactly⟩ := restore_fresh fresh schema content holds
    rfl placeable (fun plan given => (valid plan (Option.filter_eq_some_iff.mp given).1).1) roomy
  rw [listed] at exactly
  refine ⟨(restoreJob digest admitted restore).2, ?_, exactly.round_trip resolved⟩
  simp only [saveAndRestore, saved, written, accepted, done, Except.toOption, Option.bind_eq_bind,
    Option.bind_some, ↓reduceIte]

def eightBytes : Store :=
  { slab := fun byte => (byte + 1).toNat.toUInt8
    allocator := { capacity := 4096, free := [] }
    objects := [{ id := "a", sizeBytes := 8, extent := ⟨0, 4096⟩ }] }

def wholeEntry : SliceEntry :=
  { id := "a", sizeBytes := 8, info := [], isProtected := false, src := ⟨0, 8⟩
    logicalId := "a", dst := ⟨0, 8⟩, logicalBytes := 8 }

/-- A plan that sends the first half to the start of `x` and the second half here. -/
def halvesOnto (second : Span) : Remap :=
  [("a", [⟨⟨0, 4⟩, "x", ⟨0, 4⟩, 8⟩, ⟨⟨4, 8⟩, "x", second, 8⟩])]

/-- Both halves in their place under a new name, in a store of one page. -/
theorem snapshot_restore_round_trip_renamed :
    ∃ restored, saveAndRestore id eightBytes (emptyStore 4096) none
        { path := "s", remap := some (halvesOnto ⟨4, 8⟩) } = some restored ∧
      RoundTrip eightBytes [wholeEntry] (some (halvesOnto ⟨4, 8⟩)) restored := by
  apply snapshot_restore_round_trip id eightBytes (emptyStore 4096) none [wholeEntry]
    { path := "s", remap := some (halvesOnto ⟨4, 8⟩) }
  · decide +kernel
  · exact cons_ne_nil _ _
  · exact pairwise_singleton _ _
  · rintro plan ⟨⟩
    refine ⟨by decide +kernel, ?_⟩
    simp [halvesOnto, WindowsApart]
  · exact ⟨rfl, rfl⟩
  intro wanted distinct lands
  have only : ∀ pair ∈ wanted, pair = ("x", 8) := by
    intro pair member
    obtain ⟨entry, listed, byte, place, _, window, shown, _, named, sized, _⟩ := lands pair member
    rw [mem_singleton.mp listed] at shown
    have either : window = ⟨⟨0, 4⟩, "x", ⟨0, 4⟩, 8⟩ ∨ window = ⟨⟨4, 8⟩, "x", ⟨4, 8⟩, 8⟩ := by
      simpa [halvesOnto, wholeEntry] using shown
    rcases either with rfl | rfl <;> exact Prod.ext named.symm sized.symm
  obtain ⟨count, rfl⟩ := subset_singleton_iff.mp fun pair member =>
    mem_singleton.mpr (only pair member)
  have once := nodup_replicate.mp distinct
  rcases Nat.le_one_iff_eq_zero_or_eq_one.mp once with rfl | rfl <;> decide

/-- With both halves sent to the first four bytes the checks pass, and the first
half of the source is lost. -/
theorem overlapping_windows_lose_bytes :
    resolveSlices eightBytes (requestedSlices eightBytes none) = .ok [wholeEntry] ∧
      validateRemap (halvesOnto ⟨0, 4⟩) = .ok () ∧
      Lands (some (halvesOnto ⟨0, 4⟩)) wholeEntry 0 "x" 8 0 ∧ eightBytes.slab 0 = 1 ∧
      (saveAndRestore id eightBytes (emptyStore 4096) none
        { path := "s", remap := some (halvesOnto ⟨0, 4⟩) }).map
          (fun restored => read restored.slab (restored.base "x") 4) = some [5, 6, 7, 8] := by
  refine ⟨by decide +kernel, by decide +kernel, ?_, by decide +kernel, by decide +kernel⟩
  exact ⟨⟨le_refl _, by decide⟩, ⟨⟨0, 4⟩, "x", ⟨0, 4⟩, 8⟩, by decide, by decide, rfl, rfl, rfl⟩

end RoundTrip

end Dataflow.Service
