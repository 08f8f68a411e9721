import Dataflow.Engine

/-!
The buffer pool of `runtime/pool.py` in the two regimes the fake backend runs:
direct allocation with exact-size free lists, and assigned placement, where an
instance of a tag waits for its fixed offset range. Slab carving, external
owners, the VMM arena, recording and guard events are left out; results about
the engine hold for every `PoolOps`, so they cover those regimes too.
-/

namespace Dataflow

structure Placement where
  offsets : List ((String × Nat) × Int)
  sizes : List ((String × Nat) × Int)
  deriving DecidableEq

structure BufferPool where
  /-- Identity of the next buffer object the backend allocates. -/
  nextHandle : Nat := 0
  /-- All free lists in one stack; a pop takes the newest of the exact size. -/
  freeLists : List Buffer := []
  placement : Option Placement := none
  incarnations : List (String × Nat) := []
  liveRanges : List ((String × Nat) × Int × Int) := []
  deriving DecidableEq

namespace BufferPool

def nextKey (pool : BufferPool) (tag : String) : String × Nat :=
  (tag, (pool.incarnations.lookup tag).getD 0)

def assigned (pool : BufferPool) (location : Location) (tag : String) : Option Int :=
  match pool.placement, location with
  | some placement, .fast => placement.offsets.lookup (pool.nextKey tag)
  | _, _ => none

def canGet (pool : BufferPool) (location : Location) (sizeBytes : Int) (tag : String) : Bool :=
  match pool.assigned location tag with
  | none => true
  | some offset =>
    pool.liveRanges.all fun range =>
      !(decide (range.2.1 < offset + sizeBytes) && decide (offset < range.2.2))

def getDynamic (pool : BufferPool) (location : Location) (sizeBytes : Int) : Buffer × BufferPool :=
  match pool.freeLists.find? fun buffer =>
      buffer.location = location ∧ buffer.sizeBytes = sizeBytes with
  | some buffer => (buffer, { pool with freeLists := pool.freeLists.erase buffer })
  | none =>
    ({ handle := pool.nextHandle, location := location, sizeBytes := sizeBytes },
      { pool with nextHandle := pool.nextHandle + 1 })

def advance (pool : BufferPool) (tag : String) : BufferPool :=
  { pool with incarnations := (tag, (pool.nextKey tag).2 + 1) :: pool.incarnations }

def getEscaped (pool : BufferPool) (location : Location) (sizeBytes : Int) (tag : String) :
    Buffer × BufferPool :=
  (pool.advance tag).getDynamic location sizeBytes

/-- `none` where the source raises: a placed instance of another size, or a range still live. -/
def get (pool : BufferPool) (location : Location) (sizeBytes : Int) (tag : Option String) :
    Option (Buffer × BufferPool) :=
  match tag with
  | none => some (pool.getDynamic location sizeBytes)
  | some tag =>
    match pool.assigned location tag, pool.placement with
    | some offset, some placement =>
      let key := pool.nextKey tag
      if placement.sizes.lookup key ≠ some sizeBytes then none
      else if ¬ pool.canGet location sizeBytes tag then none
      else
        some ({ handle := pool.nextHandle, location := .fast, sizeBytes := sizeBytes
                placed := some key },
          { pool.advance tag with
            nextHandle := pool.nextHandle + 1
            liveRanges := (key, offset, offset + sizeBytes) :: pool.liveRanges })
    | _, _ => some (pool.getDynamic location sizeBytes)

def put (pool : BufferPool) (buffer : Buffer) : BufferPool :=
  match buffer.placed with
  | some key => { pool with liveRanges := pool.liveRanges.filter (·.1 ≠ key) }
  | none => { pool with freeLists := buffer :: pool.freeLists }

instance : PoolOps BufferPool where
  canGet := canGet
  get := get
  getEscaped := fun pool location sizeBytes tag => some (pool.getEscaped location sizeBytes tag)
  put := put

/-- The buffer exists and is not the pool's to hand out. -/
def Foreign (pool : BufferPool) (handle : Nat) : Prop :=
  handle < pool.nextHandle ∧ ∀ buffer ∈ pool.freeLists, buffer.handle ≠ handle

variable {buffer : Buffer} {pool next : BufferPool} {handle : Nat} {location : Location}

theorem get_dynamic_foreign {sizeBytes : Int} (foreign : Foreign pool handle)
    (got : pool.getDynamic location sizeBytes = (buffer, next)) :
    buffer.handle ≠ handle ∧ Foreign next handle := by
  obtain ⟨allocated, absent⟩ := foreign
  unfold getDynamic at got
  split at got
  · rename_i free found
    cases got
    refine ⟨absent buffer (List.mem_of_find?_eq_some found), allocated, ?_⟩
    intro other mem
    exact absent other (List.mem_of_mem_erase mem)
  · cases got
    exact ⟨Nat.ne_of_gt allocated, Nat.lt_succ_of_lt allocated, absent⟩

theorem get_escaped_foreign {sizeBytes : Int} {tag : String} (foreign : Foreign pool handle)
    (got : some (pool.getEscaped location sizeBytes tag) = some (buffer, next)) :
    buffer.handle ≠ handle ∧ Foreign next handle :=
  have advanced : Foreign (pool.advance tag) handle := foreign
  get_dynamic_foreign advanced (Option.some.inj got)

theorem get_foreign {sizeBytes : Int} {tag : Option String} (foreign : Foreign pool handle)
    (got : pool.get location sizeBytes tag = some (buffer, next)) :
    buffer.handle ≠ handle ∧ Foreign next handle := by
  unfold get at got
  split at got
  · exact get_dynamic_foreign foreign (Option.some.inj got)
  split at got
  · dsimp only at got
    split at got
    · cases got
    split at got
    · cases got
    · -- a placed instance is a new buffer
      cases got
      exact ⟨Nat.ne_of_gt foreign.1, Nat.lt_succ_of_lt foreign.1, foreign.2⟩
  · exact get_dynamic_foreign foreign (Option.some.inj got)

theorem put_foreign {pool : BufferPool}
    (foreign : Foreign pool handle) (other : buffer.handle ≠ handle) :
    Foreign (pool.put buffer) handle := by
  unfold put
  split
  · exact foreign
  refine ⟨foreign.1, ?_⟩
  intro free mem
  rcases List.mem_cons.mp mem with new | old
  · exact new ▸ other
  · exact foreign.2 free old

end BufferPool

end Dataflow
