import Mathlib.Data.List.Count
import Mathlib.Data.List.Perm.Basic
import Mathlib.Tactic.Linarith

/-!
Ranges of a byte-addressed memory. `cover` counts how many ranges of a list
contain a byte, so that cutting, joining and moving ranges are equations
between counts, and disjointness is a count of at most one. A memory is a
function from addresses to bytes; a write outside a range does not change what
is read from it.
-/

namespace Dataflow.ByteRanges

open List

structure Range where
  offset : Int
  size : Int
  deriving DecidableEq

def Range.Contains (range : Range) (byte : Int) : Prop :=
  range.offset ≤ byte ∧ byte < range.offset + range.size

instance (range : Range) (byte : Int) : Decidable (range.Contains byte) :=
  inferInstanceAs (Decidable (_ ∧ _))

def cover (ranges : List Range) (byte : Int) : Nat :=
  ranges.countP fun range => range.Contains byte

variable {ranges left right : List Range} {range : Range} {byte : Int}

@[simp] theorem cover_nil : cover [] byte = 0 := rfl

theorem cover_cons (range : Range) (ranges : List Range) : cover (range :: ranges) byte =
    (if range.Contains byte then 1 else 0) + cover ranges byte := by
  by_cases inside : range.Contains byte <;> simp [cover, inside, Nat.add_comm]

theorem cover_cons_single (range : Range) (ranges : List Range) :
    cover (range :: ranges) byte = cover [range] byte + cover ranges byte := by
  simp [cover_cons]

@[simp] theorem cover_append : cover (left ++ right) byte = cover left byte + cover right byte :=
  countP_append

theorem cover_perm (same : left.Perm right) (byte : Int) : cover left byte = cover right byte :=
  same.countP_eq _

theorem cover_split {whole first second : Range} (start : whole.offset = first.offset)
    (meets : second.offset = first.offset + first.size)
    (sizes : whole.size = first.size + second.size) (nonneg : 0 ≤ first.size)
    (remains : 0 ≤ second.size) :
    cover [whole] byte = cover [first] byte + cover [second] byte := by
  simp only [cover_cons, cover_nil, Range.Contains]
  grind

theorem cover_pos (mem : range ∈ ranges) (inside : range.Contains byte) : 0 < cover ranges byte :=
  countP_pos_iff.mpr ⟨range, mem, by simpa using inside⟩

/-! ### memory -/

abbrev Bytes := List UInt8

abbrev Memory := Int → UInt8

def write (memory : Memory) (offset : Int) (data : Bytes) : Memory := fun byte =>
  if offset ≤ byte then (data[(byte - offset).toNat]?).getD (memory byte) else memory byte

def read (memory : Memory) (offset : Int) (count : Nat) : Bytes :=
  (List.range count).map fun index : Nat => memory (offset + index)

variable {memory : Memory} {offset : Int} {data : Bytes} {count : Nat}

@[simp] theorem read_length : (read memory offset count).length = count := by
  simp [read]

theorem read_byte {index : Nat} (below : index < count) :
    (read memory offset count)[index]? = some (memory (offset + index)) := by
  rw [read, getElem?_map, getElem?_range below]
  rfl

theorem read_congr {other : Memory}
    (same : ∀ byte, offset ≤ byte → byte < offset + count → other byte = memory byte) :
    read other offset count = read memory offset count := by
  apply map_congr_left
  intro index below
  have bound := mem_range.mp below
  exact same _ (by omega) (by omega)

theorem write_outside (outside : byte < offset ∨ offset + data.length ≤ byte) :
    write memory offset data byte = memory byte := by
  unfold write
  split_ifs with above
  · rw [getElem?_eq_none (by omega)]
    rfl
  · rfl

theorem read_write_append (memory : Memory) (offset : Int) (count : Nat) (data : Bytes) :
    read (write memory (offset + count) data) offset (count + data.length) =
      read memory offset count ++ data := by
  apply ext_getElem
  · simp
  intro index left right
  simp only [read, getElem_map, getElem_range]
  rcases Nat.lt_or_ge index count with before | after
  · rw [write_outside (.inl (by omega)), getElem_append_left (by simpa using before)]
    simp
  have inside : index - count < data.length := by
    simp only [read_length] at left
    omega
  rw [getElem_append_right (by simpa using after), write, if_pos (by omega)]
  have place : (offset + (index : Int) - (offset + count)).toNat = index - count := by omega
  rw [place, getElem?_eq_getElem inside]
  simp

theorem read_write_self : read (write memory offset data) offset data.length = data := by
  have whole := read_write_append memory offset 0 data
  simpa [read] using whole

theorem write_inside {index : Nat} {value : UInt8} (here : data[index]? = some value) :
    write memory offset data (offset + index) = value := by
  have place : (offset + (index : Int) - offset).toNat = index := by omega
  rw [write, if_pos (by omega), place, here]
  rfl

def writeAll (memory : Memory) (writes : List (Int × Bytes)) : Memory :=
  writes.foldl (fun memory step => write memory step.1 step.2) memory

theorem write_all_agreed {value : UInt8} (writes : List (Int × Bytes)) (memory : Memory)
    (agreed : ∀ step ∈ writes, ∀ index : Nat, index < step.2.length → step.1 + index = byte →
      step.2[index]? = some value) (met : memory byte = value ∨
      ∃ step ∈ writes, ∃ index : Nat, index < step.2.length ∧ step.1 + index = byte) :
    writeAll memory writes byte = value := by
  induction writes generalizing memory with
  | nil =>
    rcases met with kept | ⟨_, mem, _⟩
    · exact kept
    · exact absurd mem not_mem_nil
  | cons step rest ih =>
    apply ih (write memory step.1 step.2) fun later mem =>
      agreed later (mem_cons_of_mem step mem)
    by_cases hit : step.1 ≤ byte ∧ byte < step.1 + step.2.length
    · left
      have here := agreed step mem_cons_self (byte - step.1).toNat (by omega) (by omega)
      have place : byte = step.1 + ((byte - step.1).toNat : Int) := by omega
      rw [place]
      exact write_inside here
    rcases met with kept | ⟨other, mem, index, below, there⟩
    · left
      rw [write_outside (by omega), kept]
    · rcases mem_cons.mp mem with rfl | later
      · exact absurd ⟨by omega, by omega⟩ hit
      · exact .inr ⟨other, later, index, below, there⟩

end Dataflow.ByteRanges
