import Dataflow.KeyedTable
import Dataflow.StatefulOutcome
import Dataflow.Store
import Mathlib.Data.List.Sort

/-!
The verbs of the resident store of `service/store.py`. A verb that raises keeps
the store as it is at that point, because the dispatcher may run it again. A
wipe removes objects one by one in the order of their ids and stops at the
first one that is leased.
-/

namespace Dataflow.Service

open StatefulOutcome ByteRanges

inductive ErrorCode where
  | leased
  | badRequest
  | bindingMismatch
  | capacity
  | isProtected
  | unknownObject
  | ioError
  | collision
  | versionSkew
  | verifyFailed
  | missingInputs
  | unknownProgram
  | runFailed
  | cancelled
  | internal
  | peerUnreachable
  deriving DecidableEq

structure ServiceError where
  code : ErrorCode
  message : String
  deriving DecidableEq

/-- Store code: what it returns, or the error with the store as the code left it. -/
abbrev StoreRun := Outcome ServiceError Store

def SlabAllocator.largestFree (allocator : SlabAllocator) : Int :=
  allocator.free.foldl (fun largest extent => max largest extent.size) 0

def ServiceError.capacity (allocator : SlabAllocator) (size : Nat) : ServiceError :=
  ⟨.capacity, "backing slab exhausted: need " ++ toString size ++ " B (aligned " ++
    toString (alignedSize size) ++ "), largest free extent " ++
    toString allocator.largestFree ++ " B"⟩

namespace Store

def update (store : Store) (id : String) (change : ObjectRecord → ObjectRecord) : Store :=
  { store with objects := KeyedTable.update ObjectRecord.id id change store.objects }

variable (store : Store)

def bytes (record : ObjectRecord) : Bytes :=
  read store.slab record.extent.offset record.sizeBytes

/-- The last part of `put`, on the record of the object. -/
def fill (record : ObjectRecord) (data : Option Bytes) (info : Info) : Store :=
  let renewed := store.update record.id fun record =>
    { record with
      info := if info = [] then record.info else info
      version := record.version + 1 }
  match data with
  | none => renewed
  | some data => { renewed with slab := write store.slab record.extent.offset data }

def carve (id : String) (sizeBytes : Nat) (info : Info) : Option (ObjectRecord × Store) :=
  (store.allocator.alloc sizeBytes).map fun found =>
    let record : ObjectRecord :=
      { id := id, sizeBytes := sizeBytes, info := info, extent := found.1 }
    (record, { store with allocator := found.2, objects := store.objects ++ [record] })

def put (store : Store) (id : String) (data : Option Bytes) (sizeBytes : Option Nat)
    (info : Info := []) : StoreRun Store :=
  match (data.map List.length).or sizeBytes with
  | none => .error (⟨.badRequest, "put needs data or size_bytes"⟩, store)
  | some size =>
    match store.object id with
    | some record =>
      if 0 < record.leaseRefs then .error (⟨.leased, id⟩, store)
      else if record.sizeBytes ≠ size then
        .error (⟨.bindingMismatch, id ++ ": resident " ++ toString record.sizeBytes ++ " B != " ++
          toString size ++ " B"⟩, store)
      else .ok (store.fill record data info)
    | none =>
      match store.carve id size info with
      | none => .error (.capacity store.allocator size, store)
      | some (record, carved) => .ok (carved.fill record data info)

/-- `file` is what the path holds; it does not change between the size check and the read. -/
def putFromFile (id path : String) (file : Option Bytes) (info : Info := []) :
    StoreRun Store :=
  match file with
  | none => .error (⟨.ioError, "no such file: " ++ path⟩, store)
  | some data => do
      let put ← store.put id none (some data.length) info
      match put.object id with
      | none => .ok put
      | some record => .ok { put with slab := write put.slab record.extent.offset data }

def dropRecord (record : ObjectRecord) : Store :=
  { store with
    allocator := store.allocator.release record.extent
    objects := KeyedTable.remove ObjectRecord.id record.id store.objects }

def release (id : String) (force : Bool) : StoreRun (Bool × Store) :=
  match store.object id with
  | none => .ok (false, store)
  | some record =>
    if record.isProtected = true ∧ force = false then .error (⟨.isProtected, id⟩, store)
    else if 0 < record.leaseRefs then .error (⟨.leased, id⟩, store)
    else .ok (true, store.dropRecord record)

structure WipeReport where
  freedBytes : Nat := 0
  nObjects : Nat := 0
  skipped : List String := []
  deriving DecidableEq

def wipeLoop (force : Bool) : List String → WipeReport → Store → StoreRun (WipeReport × Store)
  | [], report, store => .ok (report, store)
  | id :: rest, report, store =>
    match store.object id with
    | none => wipeLoop force rest report store
    | some record =>
      if record.isProtected = true ∧ force = false then
        wipeLoop force rest { report with skipped := report.skipped ++ [id] } store
      else if 0 < record.leaseRefs then .error (⟨.leased, id⟩, store)
      else wipeLoop force rest { report with
        freedBytes := report.freedBytes + record.sizeBytes
        nObjects := report.nObjects + 1 } (store.dropRecord record)

def sortedIds : List String :=
  (store.objects.map ObjectRecord.id).insertionSort (· ≤ ·)

def resolveScope (scope : String) : Except ServiceError (List String) :=
  if scope = "backing" ∨ scope = "all" then .ok store.sortedIds
  else if scope = "fast" then .ok []
  else .error ⟨.badRequest, "unknown scope '" ++ scope ++ "'"⟩

/-- The high-water mark starts again from what is left. -/
def wipe (scope : String) (force : Bool) : StoreRun (WipeReport × Store) :=
  match store.resolveScope scope with
  | .error error => .error (error, store)
  | .ok ids => do
      let (report, left) ← wipeLoop force ids {} store
      .ok (report, { left with
        allocator := { left.allocator with peakBytes := left.allocator.usedBytes } })

def duplicate (src dst : String) : StoreRun Store :=
  match store.object src with
  | none => .error (⟨.unknownObject, src⟩, store)
  | some source =>
    match store.object dst with
    | some _ => .error (⟨.badRequest, dst ++ " already exists"⟩, store)
    | none =>
      match store.carve dst source.sizeBytes source.info with
      | none => .error (.capacity store.allocator source.sizeBytes, store)
      | some (record, carved) =>
        .ok { carved with
          slab := write carved.slab record.extent.offset (store.bytes source) }

/-- All ids are looked up before the first one is leased. -/
def acquireLeases (ids : List String) : StoreRun Store :=
  match ids.find? fun id => (store.object id).isNone with
  | some id => .error (⟨.unknownObject, id⟩, store)
  | none => .ok (ids.foldl (fun store id => store.lease id (· + 1)) store)

def releaseLeases (ids : List String) : Store :=
  ids.foldl (fun store id => store.lease id (· - 1)) store

def rollbackCreated (ids : List String) : Store :=
  ids.foldl (fun store id =>
    match store.object id with
    | none => store
    | some record => store.dropRecord record) store

end Store

end Dataflow.Service
