import Dataflow.SlabLedger
import Mathlib.Data.List.TakeWhile

/-!
The runtime's slab, one device allocation cut by best fit. A freed range joins the hole
before it and the hole after it where they touch. The two parallel lists of the source
are one list of holes here.
-/

namespace Dataflow.RuntimeSlab

open ByteRanges List Service

def align : Int := 512

def roundUp (size : Int) : Int := (size + align - 1) / align * align

structure SlabAllocator where
  capacityBytes : Int
  holes : List Extent
  usedBytes : Int := 0
  deriving DecidableEq

namespace SlabAllocator

/-- The capacity, padded by at most 2 GiB of the headroom that the factor gives. -/
def padded (capacityBytes headroom : Int) : Int :=
  capacityBytes + min headroom (2 * 1024 * 1024 * 1024)

def boot (capacityBytes headroom : Int) : SlabAllocator :=
  let capacity := roundUp (padded capacityBytes headroom)
  { capacityBytes := capacity, holes := [⟨0, capacity⟩] }

/-- The scan for the smallest hole that fits. It ends at one that fits exactly. -/
def bestFit (size : Int) : Nat → Option (Nat × Extent) → List Extent → Option (Nat × Extent)
  | _, best, [] => best
  | i, best, hole :: rest =>
    if size ≤ hole.size ∧ best.all (fun found => hole.size < found.2.size) then
      if hole.size = size then some (i, hole) else bestFit size (i + 1) (some (i, hole)) rest
    else bestFit size (i + 1) best rest

def allocate (slab : SlabAllocator) (sizeBytes : Int) : Option (Int × SlabAllocator) :=
  let size := roundUp sizeBytes
  (bestFit size 0 none slab.holes).map fun (best, hole) =>
    let remaining := hole.size - size
    (hole.offset, { slab with
      holes := if remaining ≠ 0 then slab.holes.set best ⟨hole.offset + size, remaining⟩
        else slab.holes.eraseIdx best
      usedBytes := slab.usedBytes + size })

/-- Two lists of holes, with the last of one and the first of the other joined where they touch. -/
def join : List Extent → List Extent → List Extent
  | [], right => right
  | [last], first :: rest =>
    if last.offset + last.size = first.offset
    then ⟨last.offset, last.size + first.size⟩ :: rest
    else last :: first :: rest
  | head :: left, right => head :: join left right

/-- A freed range among the holes, which the bisection cuts at its offset. -/
def giveBack (hole : Extent) (holes : List Extent) : List Extent :=
  join (holes.takeWhile (·.offset < hole.offset))
    (join [hole] (holes.dropWhile (·.offset < hole.offset)))

def free (slab : SlabAllocator) (offset sizeBytes : Int) : SlabAllocator :=
  let size := roundUp sizeBytes
  { slab with
    holes := giveBack ⟨offset, size⟩ slab.holes
    usedBytes := slab.usedBytes - size }

end SlabAllocator

open SlabAllocator

/-! ### allocate -/

section Allocate

variable {size sizeBytes offset : Int} {holes : List Extent} {hole : Extent} {index i : Nat}
  {best : Option (Nat × Extent)} {slab next : SlabAllocator}

theorem best_fit_none (refused : bestFit size i best holes = none) :
    best = none ∧ ∀ hole ∈ holes, hole.size < size := by
  induction holes generalizing i best with
  | nil => exact ⟨refused, forall_mem_nil _⟩
  | cons head tail ih =>
    unfold bestFit at refused
    split_ifs at refused with better
    · cases (ih refused).1
    · obtain ⟨rfl, small⟩ := ih refused
      refine ⟨rfl, forall_mem_cons.mpr ⟨?_, small⟩⟩
      simpa using better

theorem best_fit_some (found : bestFit size i best holes = some (index, hole)) :
    best = some (index, hole) ∨ ∃ before after, holes = before ++ hole :: after ∧
      index = i + before.length ∧ size ≤ hole.size := by
  induction holes generalizing i best with
  | nil => exact .inl found
  | cons head tail ih =>
    have later {best : Option (Nat × Extent)} (found : bestFit size (i + 1) best tail =
        some (index, hole)) : best = some (index, hole) ∨ ∃ before after,
          head :: tail = before ++ hole :: after ∧ index = i + before.length ∧ size ≤ hole.size := by
      refine (ih found).imp_right ?_
      rintro ⟨before, after, rfl, rfl, fits⟩
      exact ⟨head :: before, after, rfl, by rw [length_cons]; omega, fits⟩
    unfold bestFit at found
    split_ifs at found with better
    · cases found
      exact .inr ⟨[], tail, rfl, rfl, better.1⟩
    · refine .inr ((later found).elim (fun here => ?_) id)
      cases here
      exact ⟨[], tail, rfl, rfl, better.1⟩
    · exact later found

theorem allocate_carves (got : slab.allocate sizeBytes = some (offset, next)) :
    ∃ before hole after, slab.holes = before ++ hole :: after ∧ roundUp sizeBytes ≤ hole.size ∧
      offset = hole.offset ∧ next = { slab with
        holes := before ++ (remainder (roundUp sizeBytes) hole ++ after)
        usedBytes := slab.usedBytes + roundUp sizeBytes } := by
  obtain ⟨⟨index, hole⟩, found, same⟩ := Option.map_eq_some_iff.mp got
  cases same
  obtain none_yet | ⟨before, after, whole, rfl, fits⟩ := best_fit_some found
  · cases none_yet
  refine ⟨before, hole, after, whole, fits, rfl, ?_⟩
  simp only [whole, remainder, Nat.zero_add, ne_eq, Int.sub_eq_zero]
  by_cases exactly : hole.size = roundUp sizeBytes
  · simp [exactly, eraseIdx_append_of_length_le]
  · simp [exactly, set_append_right]

end Allocate

/-! ### free -/

section Free

variable {low : Int} {left right holes : List Extent} {hole : Extent}

theorem join_single_spaced (spaced : Spaced 1 (hole.offset + hole.size) right)
    (start : low ≤ hole.offset) (filled : 0 < hole.size) : Spaced 1 low (join [hole] right) := by
  cases right with
  | nil => exact ⟨start, filled, trivial⟩
  | cons head tail =>
    obtain ⟨first, size, rest⟩ := spaced
    unfold join
    split_ifs with meets
    · exact ⟨start, Int.add_pos filled size, rest.mono le_rfl (by simp only; omega)⟩
    · exact ⟨start, filled, by omega, size, rest⟩

theorem give_back_spaced (spaced : Spaced 1 low holes) (start : low ≤ hole.offset)
    (filled : 0 < hole.size) (clear : ∀ other ∈ holes, Before hole other ∨ Before other hole) :
    Spaced 1 low (giveBack hole holes) := by
  induction holes generalizing low with
  | nil => exact ⟨start, filled, trivial⟩
  | cons head tail ih =>
    obtain ⟨first, size, rest⟩ := spaced
    obtain ⟨side, later⟩ := forall_mem_cons.mp clear
    simp only [Before] at side
    simp only [giveBack, takeWhile_cons, dropWhile_cons] at ih ⊢
    by_cases early : head.offset < hole.offset
    · simp only [early, decide_true, ↓reduceIte]
      cases before : tail.takeWhile (·.offset < hole.offset) with
      | nil =>
        have joined := ih (rest.mono le_rfl (by omega : head.offset + head.size ≤ _)) (by omega) later
        rw [before] at joined
        exact join_single_spaced joined first size
      | cons next more =>
        -- the hole joins nothing but a neighbour, and here one stands between
        have mem : next ∈ tail.takeWhile (·.offset < hole.offset) := before ▸ mem_cons_self
        have below : next.offset < hole.offset := by simpa using mem_takeWhile_imp mem
        have after := rest.settled.2 next (takeWhile_subset _ mem)
        have joined := ih rest (by omega) later
        rw [before] at joined
        exact ⟨first, size, joined⟩
    · simp only [early, decide_false, Bool.false_eq_true, ↓reduceIte]
      exact join_single_spaced ⟨by omega, size, rest⟩ start filled

theorem join_cover (first : Sized left) (second : Sized right) (byte : Int) :
    cover (join left right) byte = cover left byte + cover right byte := by
  fun_induction join left right with
  | case1 right => exact (Nat.zero_add _).symm
  | case2 last head rest meets =>
    have cut : cover [⟨last.offset, last.size + head.size⟩] byte =
        cover [last] byte + cover [head] byte :=
      cover_split rfl meets.symm rfl (first last mem_cons_self) (second head mem_cons_self)
    rw [cover_cons_single, cut, cover_cons_single head rest, Nat.add_assoc]
  | case3 last head rest parts => exact cover_cons_single last (head :: rest)
  | case4 head left right inner ih =>
    rw [cover_cons, ih (forall_mem_cons.mp first).2 second, cover_cons head left, Nat.add_assoc]

theorem join_sizes {good : Int → Prop}
    (adds : ∀ one other, good one → good other → good (one + other))
    (first : ∀ hole ∈ left, good hole.size) (second : ∀ hole ∈ right, good hole.size) :
    ∀ hole ∈ join left right, good hole.size := by
  fun_induction join left right with
  | case1 right => exact second
  | case2 last head rest meets =>
    obtain ⟨here, later⟩ := forall_mem_cons.mp second
    exact forall_mem_cons.mpr ⟨adds _ _ (first last mem_cons_self) here, later⟩
  | case3 last head rest parts => exact forall_mem_cons.mpr ⟨first last mem_cons_self, second⟩
  | case4 head left right inner ih =>
    obtain ⟨here, later⟩ := forall_mem_cons.mp first
    exact forall_mem_cons.mpr ⟨here, ih later second⟩

theorem give_back_sizes {good : Int → Prop}
    (adds : ∀ one other, good one → good other → good (one + other)) (here : good hole.size)
    (given : ∀ other ∈ holes, good other.size) : ∀ other ∈ giveBack hole holes, good other.size :=
  join_sizes adds (fun other mem => given other (takeWhile_subset _ mem))
    (join_sizes adds (forall_mem_singleton.mpr here)
      fun other mem => given other ((dropWhile_suffix _).subset mem))

theorem give_back_cover (sized : Sized holes) (nonneg : 0 ≤ hole.size) (byte : Int) :
    cover (giveBack hole holes) byte = cover [hole] byte + cover holes byte := by
  have split : holes.takeWhile (·.offset < hole.offset) ++ holes.dropWhile (·.offset < hole.offset) =
    holes := takeWhile_append_dropWhile
  have parts := congrArg (cover · byte) split
  rw [← split] at sized
  obtain ⟨first, last⟩ := forall_mem_append.mp sized
  have single : Sized [hole] := forall_mem_singleton.mpr nonneg
  rw [giveBack, join_cover first (join_sizes (fun _ _ => Int.add_nonneg) single last),
    join_cover single last]
  simp only [cover_append] at parts
  omega

end Free

/-! ### every run -/

/-- An allocation that was not freed yet. -/
structure Live where
  offset : Int
  sizeBytes : Int
  deriving DecidableEq

def Live.range (item : Live) : Extent := ⟨item.offset, roundUp item.sizeBytes⟩

/-- The slab and its live allocations after any sequence of calls. -/
inductive Reached (capacityBytes headroom : Int) : SlabAllocator → List Live → Prop
  | boot : Reached capacityBytes headroom (.boot capacityBytes headroom) []
  | allocated {slab next : SlabAllocator} {live : List Live} {sizeBytes offset : Int}
      (reached : Reached capacityBytes headroom slab live) (positive : 0 < sizeBytes)
      (got : slab.allocate sizeBytes = some (offset, next)) :
      Reached capacityBytes headroom next (⟨offset, sizeBytes⟩ :: live)
  | freed {slab : SlabAllocator} {live : List Live} {item : Live}
      (reached : Reached capacityBytes headroom slab live) (mem : item ∈ live) :
      Reached capacityBytes headroom (slab.free item.offset item.sizeBytes) (live.erase item)

structure Ledger (capacity : Int) (slab : SlabAllocator) (live : List Live) : Prop where
  tiled : Tiled capacity slab.holes (live.map Live.range)
  aligned : ∀ hole ∈ slab.holes, align ∣ hole.size
  used : slab.usedBytes = (live.map fun item => roundUp item.sizeBytes).sum

section Runs

variable {capacityBytes headroom capacity sizeBytes offset : Int} {slab next : SlabAllocator}
  {live : List Live} {item : Live}

theorem le_round_up (size : Int) : size ≤ roundUp size := by
  simp only [roundUp, align]
  omega

theorem Ledger.allocate (ledger : Ledger capacity slab live) (positive : 0 < sizeBytes)
    (got : slab.allocate sizeBytes = some (offset, next)) :
    Ledger capacity next (⟨offset, sizeBytes⟩ :: live) := by
  obtain ⟨before, hole, after, whole, fits, rfl, rfl⟩ := allocate_carves got
  have tiled := ledger.tiled
  have aligned := ledger.aligned
  rw [whole] at tiled aligned
  refine ⟨tiled.carve fits (positive.trans_le (le_round_up sizeBytes)), ?aligned, ?used⟩
  case aligned =>
    obtain ⟨first, rest⟩ := forall_mem_append.mp aligned
    obtain ⟨here, last⟩ := forall_mem_cons.mp rest
    refine forall_mem_append.mpr ⟨first, forall_mem_append.mpr ⟨?_, last⟩⟩
    unfold remainder
    split_ifs
    · exact forall_mem_nil _
    · exact forall_mem_singleton.mpr (Int.dvd_sub here (Int.dvd_mul_left _ _))
  case used =>
    rw [map_cons, sum_cons, ← ledger.used]
    exact Int.add_comm _ _

theorem Ledger.free (ledger : Ledger capacity slab live) (mem : item ∈ live) :
    Ledger capacity (slab.free item.offset item.sizeBytes) (live.erase item) := by
  have order := perm_cons_erase mem
  have tiled : Tiled capacity slab.holes (item.range :: (live.erase item).map Live.range) :=
    ledger.tiled.perm (order.map Live.range)
  have size := tiled.filled item.range mem_cons_self
  refine ⟨⟨give_back_spaced tiled.spaced tiled.starts size tiled.clear,
    (forall_mem_cons.mp tiled.filled).2, fun byte => ?whole⟩, ?aligned, ?used⟩
  case whole =>
    have total := tiled.whole byte
    have sized : Sized slab.holes := fun hole mem => (tiled.spaced.settled.1.filled hole mem).le
    have given : cover (slab.free item.offset item.sizeBytes).holes byte = _ :=
      give_back_cover sized size.le byte
    rw [cover_cons_single] at total
    omega
  case aligned =>
    exact give_back_sizes (fun _ _ => Int.dvd_add) (Int.dvd_mul_left _ _) ledger.aligned
  case used =>
    have total := ledger.used
    rw [(order.map fun item => roundUp item.sizeBytes).sum_eq, map_cons, sum_cons] at total
    simp only [SlabAllocator.free]
    omega

theorem Reached.ledger (room : 0 < padded capacityBytes headroom)
    (reached : Reached capacityBytes headroom slab live) :
    Ledger (roundUp (padded capacityBytes headroom)) slab live := by
  induction reached with
  | boot => exact ⟨.boot (room.trans_le (le_round_up _)),
      forall_mem_singleton.mpr (Int.dvd_mul_left _ _), rfl⟩
  | allocated reached positive got ih => exact ih.allocate positive got
  | freed reached mem ih => exact ih.free mem

/-- The holes are sorted, positive, disjoint and never touch, holes and live ranges cover
every byte of the slab once, and an allocation fails only where no run of free bytes is
long enough. -/
theorem slab_partitioned (room : 0 < padded capacityBytes headroom)
    (reached : Reached capacityBytes headroom slab live) :
    Settled slab.holes ∧
      (∀ byte, cover (slab.holes ++ live.map Live.range) byte =
        if 0 ≤ byte ∧ byte < roundUp (padded capacityBytes headroom) then 1 else 0) ∧
      slab.usedBytes = (live.map fun item => roundUp item.sizeBytes).sum ∧
      ∀ sizeBytes, 0 < sizeBytes → slab.allocate sizeBytes = none → ∀ start, 0 ≤ start →
        start + sizeBytes ≤ roundUp (padded capacityBytes headroom) →
        ∃ byte, start ≤ byte ∧ byte < start + sizeBytes ∧ 0 < cover (live.map Live.range) byte := by
  have ledger := reached.ledger room
  refine ⟨ledger.tiled.spaced.settled.1, fun byte => ?_, ledger.used, ?_⟩
  · rw [cover_append, ledger.tiled.whole byte, cover_slab]
  intro sizeBytes positive refused start low high
  refine ledger.tiled.refused positive (fun hole mem => ?_) start low high
  have small := (best_fit_none (Option.map_eq_none_iff.mp refused)).2 hole mem
  obtain ⟨blocks, same⟩ := ledger.aligned hole mem
  simp only [roundUp, align] at small same
  omega

/-- Two allocations, of which the first is freed. -/
theorem slab_partitioned_half : ∃ slab live, Reached 1000 24 slab live ∧
    slab.allocate 600 = none ∧ slab.holes = [⟨0, 512⟩] ∧ ∀ start, 0 ≤ start → start + 600 ≤ 1024 →
      ∃ byte, start ≤ byte ∧ byte < start + 600 ∧ 0 < cover (live.map Live.range) byte := by
  have reached := Reached.freed (Reached.allocated (Reached.allocated (.boot : Reached 1000 24 _ _)
    (by decide : (0 : Int) < 300) rfl) (by decide : (0 : Int) < 512) rfl)
    (by decide : (⟨0, 300⟩ : Live) ∈ _)
  exact ⟨_, _, reached, rfl, rfl, (slab_partitioned (by decide) reached).2.2.2 600 (by decide) rfl⟩

/-- Without capacity there is one hole, of size zero. -/
theorem empty_slab_hole : Reached 0 0 (.boot 0 0) [] ∧ ¬Settled (SlabAllocator.boot 0 0).holes :=
  ⟨.boot, fun settled => absurd (settled.filled ⟨0, 0⟩ mem_cons_self) (by decide)⟩

end Runs

end Dataflow.RuntimeSlab
