import Dataflow.StoreVerbs

/-!
Snapshot and restore of `service/handlers_snapshot.py`. A slice maps a byte range
of a stored object into a logical object. Admission runs on the dispatcher and
takes leases; the payload job copies bytes while the leases are held. The slice
hash is a parameter, applied to the bytes of a slice in one piece: feeding it
chunk by chunk gives the same digest.
-/

namespace Dataflow.Service

open StatefulOutcome ByteRanges

/-- A half-open byte range as the request writes it. -/
structure Span where
  lo : Int
  hi : Int
  deriving DecidableEq

def Span.length (span : Span) : Int := span.hi - span.lo

def Span.text (span : Span) : String :=
  "[" ++ toString span.lo ++ ", " ++ toString span.hi ++ "]"

def Span.Inside (span : Span) (size : Int) : Prop :=
  0 ≤ span.lo ∧ span.lo < span.hi ∧ span.hi ≤ size

instance (span : Span) (size : Int) : Decidable (span.Inside size) :=
  inferInstanceAs (Decidable (_ ∧ _ ∧ _))

structure SliceSpec where
  id : String
  src : Option Span := none
  logicalId : Option String := none
  dst : Option Span := none
  logicalBytes : Option Int := none
  deriving DecidableEq

structure SliceEntry where
  id : String
  sizeBytes : Nat
  info : Info
  isProtected : Bool
  src : Span
  logicalId : String
  dst : Span
  logicalBytes : Int
  deriving DecidableEq

def SliceEntry.identitySlice (entry : SliceEntry) : Prop :=
  entry.logicalId = entry.id ∧ entry.src = ⟨0, entry.sizeBytes⟩ ∧
    entry.dst = entry.src ∧ entry.logicalBytes = entry.sizeBytes

instance (entry : SliceEntry) : Decidable entry.identitySlice :=
  inferInstanceAs (Decidable (_ ∧ _ ∧ _ ∧ _))

/-- An absent or empty field falls back, as the source's `or` does. -/
def orElse {Value : Type} [DecidableEq Value] (empty : Value) (given : Option Value)
    (fallback : Value) : Value :=
  match given with
  | none => fallback
  | some value => if value = empty then fallback else value

def badRequest (message : String) : ServiceError := ⟨.badRequest, message⟩

/-- One slice against the sizes the earlier slices gave their logical objects. -/
def resolveSlice (store : Store) (sizes : List (String × Int)) (spec : SliceSpec) :
    Except ServiceError SliceEntry :=
  match store.object spec.id with
  | none => .error (badRequest ("slice id absent: " ++ spec.id))
  | some record =>
    let size : Int := record.sizeBytes
    let src := spec.src.getD ⟨0, size⟩
    let logicalId := orElse "" spec.logicalId spec.id
    let dst := spec.dst.getD src
    let logicalBytes := orElse 0 spec.logicalBytes size
    if ¬src.Inside size then
      .error (badRequest ("src " ++ src.text ++ " outside " ++ spec.id ++ " (" ++
        toString size ++ " B)"))
    else if dst.length ≠ src.length then
      .error (badRequest (spec.id ++ ": dst " ++ dst.text ++ " length != src " ++ src.text ++
        " length"))
    else if ¬dst.Inside logicalBytes then
      .error (badRequest (spec.id ++ ": dst " ++ dst.text ++ " outside logical " ++ logicalId ++
        " (" ++ toString logicalBytes ++ " B)"))
    else
      match sizes.lookup logicalId with
      | some seen =>
        if seen ≠ logicalBytes then
          .error (badRequest ("logical " ++ logicalId ++ ": conflicting logical_bytes " ++
            toString seen ++ " != " ++ toString logicalBytes))
        else .ok ⟨spec.id, record.sizeBytes, record.info, record.isProtected, src, logicalId,
          dst, logicalBytes⟩
      | none => .ok ⟨spec.id, record.sizeBytes, record.info, record.isProtected, src, logicalId,
          dst, logicalBytes⟩

def resolveSlicesFrom (store : Store) :
    List (String × Int) → List SliceSpec → Except ServiceError (List SliceEntry)
  | _, [] => .ok []
  | sizes, spec :: specs => do
      let entry ← resolveSlice store sizes spec
      let entries ← resolveSlicesFrom store ((entry.logicalId, entry.logicalBytes) :: sizes) specs
      .ok (entry :: entries)

def resolveSlices (store : Store) (specs : List SliceSpec) : Except ServiceError (List SliceEntry) :=
  resolveSlicesFrom store [] specs

/-- A window of a remap plan: a logical range and where its bytes go. -/
structure Window where
  logical : Span
  id : String
  target : Span
  bytes : Int
  deriving DecidableEq

abbrev Remap := List (String × List Window)

def validateWindow (logicalId : String) (sizes : List (String × Int)) (window : Window) :
    Except ServiceError Unit :=
  if window.logical.hi ≤ window.logical.lo ∨ window.logical.length ≠ window.target.length then
    .error (badRequest ("remap " ++ logicalId ++ ": local " ++ window.target.text ++
      " length != logical " ++ window.logical.text))
  else if ¬window.target.Inside window.bytes then
    .error (badRequest ("remap " ++ logicalId ++ ": local " ++ window.target.text ++ " outside " ++
      window.id ++ " (" ++ toString window.bytes ++ " B)"))
  else
    match sizes.lookup window.id with
    | some seen =>
      if seen ≠ window.bytes then
        .error (badRequest ("remap: " ++ window.id ++ " sized " ++ toString seen ++ " B and " ++
          toString window.bytes ++ " B"))
      else .ok ()
    | none => .ok ()

def validateWindows (logicalId : String) :
    List (String × Int) → List Window → Except ServiceError (List (String × Int))
  | sizes, [] => .ok sizes
  | sizes, window :: windows => do
      validateWindow logicalId sizes window
      validateWindows logicalId ((window.id, window.bytes) :: sizes) windows

def spanLe (left right : Span) : Prop :=
  left.lo < right.lo ∨ (left.lo = right.lo ∧ left.hi ≤ right.hi)

instance : DecidableRel spanLe := fun _ _ => inferInstanceAs (Decidable (_ ∨ _))

/-- Neighbours in the sorted order do not overlap. -/
def neighboursApart : List Span → Bool
  | first :: second :: rest => decide (first.hi ≤ second.lo) && neighboursApart (second :: rest)
  | _ => true

def validateRemapFrom : List (String × Int) → Remap → Except ServiceError Unit
  | _, [] => .ok ()
  | sizes, (logicalId, windows) :: rest => do
      let sizes ← validateWindows logicalId sizes windows
      if neighboursApart ((windows.map Window.logical).insertionSort spanLe) then
        validateRemapFrom sizes rest
      else .error (badRequest ("remap " ++ logicalId ++ ": overlapping windows"))

def validateRemap (remap : Remap) : Except ServiceError Unit := validateRemapFrom [] remap

/-- A slice with its place in the payload file and its hash. -/
structure StoredSlice (Digest : Type) where
  entry : SliceEntry
  offset : Int
  size : Int
  hash : Option Digest
  deriving DecidableEq

structure Placement where
  target : String
  lo : Int
  hi : Int
  fileOffset : Int
  deriving DecidableEq

structure Required where
  target : String
  size : Int
  info : Option Info
  deriving DecidableEq

section Restore

variable {Digest : Type}

def windowPiece (slice : StoredSlice Digest) (window : Window) : Option (Required × Placement) :=
  let lo := max slice.entry.dst.lo window.logical.lo
  let hi := min slice.entry.dst.hi window.logical.hi
  if hi ≤ lo then none
  else
    let at_ := window.target.lo + (lo - window.logical.lo)
    some (⟨window.id, window.bytes, none⟩,
      ⟨window.id, at_, at_ + (hi - lo), slice.offset + (lo - slice.entry.dst.lo)⟩)

def slicePieces (remap : Option Remap) (slice : StoredSlice Digest) : List (Required × Placement) :=
  match remap with
  | none =>
    [(⟨slice.entry.logicalId, slice.entry.logicalBytes,
        if slice.entry.identitySlice then some slice.entry.info else none⟩,
      ⟨slice.entry.logicalId, slice.entry.dst.lo, slice.entry.dst.hi, slice.offset⟩)]
  | some plan =>
    ((plan.lookup slice.entry.logicalId).getD []).filterMap (windowPiece slice)

/-- Only the first placement on a target decides its size and metadata. -/
def require (required : List Required) (want : Required) : Except ServiceError (List Required) :=
  match KeyedTable.lookup Required.target want.target required with
  | none => .ok (required ++ [want])
  | some seen =>
    if seen.size ≠ want.size then
      .error (badRequest (want.target ++ ": placements disagree on size (" ++
        toString seen.size ++ " B != " ++ toString want.size ++ " B)"))
    else .ok required

def resolvePlacements (slices : List (StoredSlice Digest)) (remap : Option Remap) :
    Except ServiceError (List Placement × List Required) := do
  let pieces := slices.flatMap (slicePieces remap)
  let required ← (pieces.map Prod.fst).foldlM require []
  .ok (pieces.map Prod.snd, required)

/-! ### admission -/

def alignUp (count : Int) : Int := (count + align - 1) / align * align

/-- Payload offsets in order, each aligned, and the total. -/
def planPayload : Int → List SliceEntry → List (StoredSlice Digest) × Int
  | offset, [] => ([], offset)
  | offset, entry :: entries =>
    let (slices, total) := planPayload (alignUp (offset + entry.src.length)) entries
    (⟨entry, offset, entry.src.length, none⟩ :: slices, total)

def sortedSet (ids : List String) : List String := ids.dedup.insertionSort (· ≤ ·)

structure SnapshotJob (Digest : Type) where
  slices : List (StoredSlice Digest)
  leaseIds : List String
  bytesTotal : Int
  deriving DecidableEq

/-- The dispatcher's part of a snapshot; without slices it takes the whole store. -/
def snapshot (store : Store) (slices : Option (List SliceSpec)) :
    StoreRun (SnapshotJob Digest × Store) :=
  if slices = some [] then .error (badRequest "slices is empty", store)
  else if slices = none ∧ store.objects = [] then
    .error (badRequest "store is empty; nothing to snapshot", store)
  else
    match resolveSlices store (slices.getD (store.sortedIds.map fun id => { id := id })) with
    | .error error => .error (error, store)
    | .ok entries => do
        let (planned, total) := planPayload 0 entries
        let leaseIds := sortedSet (entries.map SliceEntry.id)
        let leased ← store.acquireLeases leaseIds
        .ok (⟨planned, leaseIds, total⟩, leased)

/-- What a snapshot directory holds: the document, and the payload file if it is there. -/
structure SnapshotFile (Digest : Type) where
  schema : String
  slices : List (StoredSlice Digest)
  payload : Option Bytes
  deriving DecidableEq

def snapshotSchema : String := "dataflow-snapshot/v1"

structure RestoreRequest where
  path : String
  overwrite : Bool := false
  verify : Bool := true
  remap : Option Remap := none
  deriving DecidableEq

structure RestoreJob (Digest : Type) where
  path : String
  file : SnapshotFile Digest
  placements : List Placement
  targets : List String
  created : List String
  verify : Bool
  remap : Option Remap
  deriving DecidableEq

/-- The checks on the targets that exist; nothing changes. -/
def admitTargets (store : Store) (overwrite : Bool) : List Required → Except ServiceError Unit
  | [] => .ok ()
  | want :: rest =>
    match store.object want.target with
    | none => admitTargets store overwrite rest
    | some record =>
      if 0 < record.leaseRefs then .error ⟨.leased, want.target⟩
      else if (record.sizeBytes : Int) ≠ want.size then
        .error ⟨.bindingMismatch, want.target ++ ": resident " ++ toString record.sizeBytes ++
          " B != snapshot " ++ toString want.size ++ " B"⟩
      else if overwrite = false then
        .error ⟨.collision, want.target ++ " resident; pass overwrite=True"⟩
      else admitTargets store overwrite rest

/-- Absent targets are created one by one. A put that raises here leaves the ones
before it in the store. -/
def createTargets : List Required → List String → Store → StoreRun (List String × Store)
  | [], created, store => .ok (created, store)
  | want :: rest, created, store =>
    match store.object want.target with
    | some _ => createTargets rest created store
    | none => do
        let put ← store.put want.target none (some want.size.toNat) (want.info.getD [])
        createTargets rest (created ++ [want.target]) put

/-- Everything a restore checks before its first change. -/
def planRestore (store : Store) (file : SnapshotFile Digest) (overwrite : Bool)
    (remap : Option Remap) : Except ServiceError (List Placement × List Required) := do
  remap.elim (.ok ()) validateRemap
  let (placements, required) ← resolvePlacements file.slices remap
  admitTargets store overwrite required
  .ok (placements, required)

/-- Creation and leases; the rollback guards the leases only. -/
def admitRestore (store : Store) (file : SnapshotFile Digest) (request : RestoreRequest)
    (remap : Option Remap) (placements : List Placement) (required : List Required) :
    StoreRun (RestoreJob Digest × Store) := do
  let (created, filled) ← createTargets required [] store
  let targets := (required.map Required.target).insertionSort (· ≤ ·)
  match filled.acquireLeases targets with
  | .error (error, failed) => .error (error, failed.rollbackCreated created)
  | .ok leased =>
    .ok (⟨request.path, file, placements, targets, created, request.verify, remap⟩, leased)

def restoreSnapshot (store : Store) (file : Option (SnapshotFile Digest))
    (request : RestoreRequest) : StoreRun (RestoreJob Digest × Store) :=
  match file with
  | none => .error (⟨.ioError, "no snapshot.json at " ++ request.path⟩, store)
  | some file =>
    -- an empty plan counts as no plan
    let remap := request.remap.filter (· ≠ [])
    if file.schema ≠ snapshotSchema then
      .error (⟨.versionSkew, "snapshot schema '" ++ file.schema ++ "' != '" ++ snapshotSchema ++
        "'"⟩, store)
    else
      match planRestore store file request.overwrite remap with
      | .error error => .error (error, store)
      | .ok (placements, required) =>
        admitRestore store file request remap placements required

/-! ### payload jobs -/

/-- A write at an offset of the payload file; a gap before it reads as zeros. -/
def writeAt (file : Bytes) (offset : Nat) (data : Bytes) : Bytes :=
  file.take offset ++ List.replicate (offset - file.length) 0 ++ data ++
    file.drop (offset + data.length)

def sliceBytes (store : Store) (record : ObjectRecord) (src : Span) : Bytes :=
  read store.slab (record.extent.offset + src.lo) src.length.toNat

/-- The payload copy with the hash of each slice; `none` when an object is gone. -/
def copySlices (digest : Bytes → Digest) (store : Store) :
    List (StoredSlice Digest) → Bytes → Option (List (StoredSlice Digest) × Bytes)
  | [], payload => some ([], payload)
  | slice :: rest, payload => do
      let record ← store.object slice.entry.id
      let data := sliceBytes store record slice.entry.src
      let (slices, file) ← copySlices digest store rest (writeAt payload slice.offset.toNat data)
      some ({ slice with hash := some (digest data) } :: slices, file)

/-- What the job leaves on disk, with its leases given back on every path. -/
def snapshotJob (digest : Bytes → Digest) (store : Store) (job : SnapshotJob Digest) :
    Option (SnapshotFile Digest) × Store :=
  ((copySlices digest store job.slices []).map fun copied =>
    ⟨snapshotSchema, copied.1, some copied.2⟩, store.releaseLeases job.leaseIds)

def segment (payload : Bytes) (offset size : Int) : Bytes :=
  (payload.drop offset.toNat).take size.toNat

def verifyPayload [DecidableEq Digest] (digest : Bytes → Digest) (payload : Bytes) :
    List (StoredSlice Digest) → Except ServiceError Unit
  | [] => .ok ()
  | slice :: rest =>
    let data := segment payload slice.offset slice.size
    if (data.length : Int) < slice.size then
      .error ⟨.ioError, "short payload read for " ++ slice.entry.id⟩
    else if slice.hash ≠ some (digest data) then
      .error ⟨.verifyFailed, slice.entry.id ++ ": payload hash mismatch (corrupt or tampered " ++
        "slice); pass verify=False to restore the on-disk bytes anyway"⟩
    else verifyPayload digest payload rest

def placeAll (payload : Bytes) : List Placement → Store → StoreRun Store
  | [], store => .ok store
  | placement :: rest, store =>
    match store.object placement.target with
    | none => .error (⟨.ioError, "KeyError: '" ++ placement.target ++ "'"⟩, store)
    | some record =>
      let wanted := placement.hi - placement.lo
      let data := segment payload placement.fileOffset wanted
      let placed := { store with
        slab := write store.slab (record.extent.offset + placement.lo) data }
      if (data.length : Int) < wanted then
        .error (⟨.ioError, "short payload read for " ++ placement.target⟩, placed)
      else placeAll payload rest placed

/-- Identity slices restore the protection of their object. -/
def restoreProtection (slices : List (StoredSlice Digest)) (store : Store) : Store :=
  slices.foldl (fun store slice =>
    if slice.entry.identitySlice then
      store.update slice.entry.id fun record =>
        { record with isProtected := slice.entry.isProtected }
    else store) store

def openPayload [DecidableEq Digest] (digest : Bytes → Digest) (job : RestoreJob Digest) :
    Except ServiceError Bytes :=
  match job.file.payload with
  | none => .error ⟨.ioError, "FileNotFoundError: [Errno 2] No such file or directory: '" ++
      job.path ++ "/payload.bin'"⟩
  | some payload => do
      if job.verify then verifyPayload digest payload job.file.slices
      .ok payload

def restoreBody [DecidableEq Digest] (digest : Bytes → Digest) (store : Store)
    (job : RestoreJob Digest) : StoreRun Store :=
  match openPayload digest job with
  | .error error => .error (error, store)
  | .ok payload => do
      let placed ← placeAll payload job.placements store
      .ok (if job.remap = none then restoreProtection job.file.slices placed else placed)

/-- A failed restore removes what its admission created; the leases go back either way. -/
def restoreJob [DecidableEq Digest] (digest : Bytes → Digest) (store : Store)
    (job : RestoreJob Digest) : Option ServiceError × Store :=
  match restoreBody digest store job with
  | .ok restored => (none, restored.releaseLeases job.targets)
  | .error (error, failed) =>
    (some error, (failed.rollbackCreated job.created).releaseLeases job.targets)

end Restore

end Dataflow.Service
