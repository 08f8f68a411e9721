import Mathlib.Algebra.BigOperators.Group.List.Basic
import Mathlib.Data.List.Nodup
import Mathlib.Data.Int.Order.Basic
import Mathlib.Tactic.Linarith

/-!
Insertion-ordered tables with one entry per key, as a list of entries. Lookup
finds the first entry with the key, update rewrites it in place, so iteration
order is insertion order. Weighted totals over a table change by exactly the
difference at the updated entry.
-/

namespace Dataflow.KeyedTable

open List

variable {Key Entry : Type} [DecidableEq Key]

def lookup (keyOf : Entry → Key) (key : Key) (entries : List Entry) : Option Entry :=
  entries.find? fun entry => keyOf entry = key

def update (keyOf : Entry → Key) (key : Key) (change : Entry → Entry)
    (entries : List Entry) : List Entry :=
  entries.map fun entry => if keyOf entry = key then change entry else entry

def remove (keyOf : Entry → Key) (key : Key) (entries : List Entry) : List Entry :=
  entries.filter fun entry => keyOf entry ≠ key

def total (weight : Entry → Int) (entries : List Entry) : Int :=
  (entries.map weight).sum

variable {keyOf : Entry → Key} {key other : Key} {change : Entry → Entry}
  {entries : List Entry} {entry : Entry} {weight : Entry → Int}

theorem lookup_mem (found : lookup keyOf key entries = some entry) : entry ∈ entries :=
  mem_of_find?_eq_some found

theorem lookup_key (found : lookup keyOf key entries = some entry) : keyOf entry = key := by
  simpa using find?_some found

theorem lookup_none : lookup keyOf key entries = none ↔ ∀ entry ∈ entries, keyOf entry ≠ key := by
  simp [lookup]

theorem lookup_listed (listed : key ∈ entries.map keyOf) :
    ∃ entry, lookup keyOf key entries = some entry := by
  obtain ⟨entry, mem, rfl⟩ := mem_map.mp listed
  cases found : lookup keyOf (keyOf entry) entries with
  | none => exact absurd rfl (lookup_none.mp found entry mem)
  | some first => exact ⟨first, rfl⟩

theorem lookup_map (keeps : ∀ entry, keyOf (change entry) = keyOf entry) :
    lookup keyOf key (entries.map change) = (lookup keyOf key entries).map change := by
  simp only [lookup, find?_map, Function.comp_def, keeps]

theorem lookup_append_single (added : Entry) : lookup keyOf key (entries ++ [added]) =
      (lookup keyOf key entries).or (if keyOf added = key then some added else none) := by
  unfold lookup
  by_cases hit : keyOf added = key <;> simp [hit]

section

variable (keeps : ∀ entry, keyOf entry = key → keyOf (change entry) = key)
include keeps

/-- An update that keeps the key it writes under. -/
theorem lookup_change_other (ne : other ≠ key) :
    lookup keyOf other (update keyOf key change entries) = lookup keyOf other entries := by
  induction entries with
  | nil => rfl
  | cons head tail ih =>
    simp only [update, lookup, map_cons, find?_cons] at ih ⊢
    by_cases hit : keyOf head = key
    · simp only [hit, ↓reduceIte, keeps head hit, ne.symm, decide_false]
      exact ih
    · simp only [hit, ↓reduceIte]
      rw [ih]

theorem lookup_change_self :
    lookup keyOf key (update keyOf key change entries) = (lookup keyOf key entries).map change := by
  induction entries with
  | nil => rfl
  | cons head tail ih =>
    simp only [update, lookup, map_cons, find?_cons] at ih ⊢
    by_cases hit : keyOf head = key
    · simp [hit, keeps head hit]
    · simp only [hit, ↓reduceIte, decide_false]
      exact ih

theorem keys_change : (update keyOf key change entries).map keyOf = entries.map keyOf := by
  unfold update
  rw [map_map]
  apply map_congr_left
  intro entry _
  by_cases hit : keyOf entry = key
  · simp [hit, keeps entry hit]
  · simp [hit]

end

section

variable (keeps : ∀ entry, keyOf (change entry) = keyOf entry)
include keeps

theorem lookup_update_other (ne : other ≠ key) :
    lookup keyOf other (update keyOf key change entries) = lookup keyOf other entries :=
  lookup_change_other (fun entry hit => (keeps entry).trans hit) ne

theorem lookup_update_self :
    lookup keyOf key (update keyOf key change entries) = (lookup keyOf key entries).map change :=
  lookup_change_self fun entry hit => (keeps entry).trans hit

theorem keys_update : (update keyOf key change entries).map keyOf = entries.map keyOf :=
  keys_change fun entry hit => (keeps entry).trans hit

end

variable {written : Entry}

theorem keys_write (keeps : keyOf written = key) :
    (update keyOf key (fun _ => written) entries).map keyOf = entries.map keyOf :=
  keys_change fun _ _ => keeps

theorem keys_write_nodup (keeps : keyOf written = key) (distinct : (entries.map keyOf).Nodup) :
    ((update keyOf key (fun _ => written) entries).map keyOf).Nodup :=
  (keys_write keeps).symm ▸ distinct

theorem mem_write (found : lookup keyOf key entries = some entry) :
    written ∈ update keyOf key (fun _ => written) entries :=
  mem_map.mpr ⟨entry, lookup_mem found, if_pos (lookup_key found)⟩

theorem mem_update_other (mem : entry ∈ entries) (miss : keyOf entry ≠ key) :
    entry ∈ update keyOf key (fun _ => written) entries :=
  mem_map.mpr ⟨entry, mem, if_neg miss⟩

theorem mem_remove_other (mem : entry ∈ entries) (miss : keyOf entry ≠ key) :
    entry ∈ remove keyOf key entries :=
  mem_filter.mpr ⟨mem, by simpa using miss⟩

theorem update_absent (absent : lookup keyOf key entries = none) :
    update keyOf key change entries = entries := by
  unfold update
  rw [map_congr_left (g := id)]
  · simp
  · intro entry mem
    have miss := lookup_none.mp absent entry mem
    simp [miss]

theorem lookup_write_other (keeps : keyOf written = key) (ne : other ≠ key) :
    lookup keyOf other (update keyOf key (fun _ => written) entries) = lookup keyOf other entries :=
  lookup_change_other (fun _ _ => keeps) ne

theorem lookup_write_self (keeps : keyOf written = key)
    (found : lookup keyOf key entries = some entry) :
    lookup keyOf key (update keyOf key (fun _ => written) entries) = some written := by
  rw [lookup_change_self fun _ _ => keeps, found]
  rfl

theorem update_update {first last : Entry} (keeps : keyOf first = key) :
    update keyOf key (fun _ => last) (update keyOf key (fun _ => first) entries) =
      update keyOf key (fun _ => last) entries := by
  unfold update
  rw [map_map]
  apply map_congr_left
  intro entry _
  by_cases hit : keyOf entry = key <;> simp [hit, keeps]

theorem mem_update (mem : entry ∈ update keyOf key (fun _ => written) entries) :
    entry = written ∨ entry ∈ entries ∧ keyOf entry ≠ key := by
  obtain ⟨before, listed, rfl⟩ := mem_map.mp mem
  split_ifs with hit
  · exact .inl rfl
  · exact .inr ⟨listed, hit⟩

theorem forall_mem_write {holds : Entry → Prop} (old : ∀ other ∈ entries, holds other)
    (new : holds written) : ∀ other ∈ update keyOf key (fun _ => written) entries, holds other := by
  intro other mem
  rcases mem_update mem with rfl | ⟨listed, _⟩
  · exact new
  · exact old other listed

theorem remove_cons_self {head : Entry} (hit : keyOf head = key) :
    remove keyOf key (head :: entries) = remove keyOf key entries := by
  simp [remove, hit]

theorem remove_cons_other {head : Entry} (miss : keyOf head ≠ key) :
    remove keyOf key (head :: entries) = head :: remove keyOf key entries := by
  simp [remove, miss]

theorem remove_unlisted (absent : key ∉ entries.map keyOf) : remove keyOf key entries = entries := by
  apply filter_eq_self.mpr
  intro entry mem
  have miss : keyOf entry ≠ key := fun hit => absent (hit ▸ mem_map_of_mem mem)
  simpa using miss

theorem remove_write (keeps : keyOf written = key) :
    remove keyOf key (update keyOf key (fun _ => written) entries) = remove keyOf key entries := by
  induction entries with
  | nil => rfl
  | cons head tail ih =>
    simp only [update, map_cons] at ih ⊢
    by_cases hit : keyOf head = key
    · rw [if_pos hit, remove_cons_self keeps, remove_cons_self hit, ih]
    · rw [if_neg hit, remove_cons_other hit, remove_cons_other hit, ih]

theorem perm_remove (distinct : (entries.map keyOf).Nodup)
    (found : lookup keyOf key entries = some entry) :
    entries.Perm (entry :: remove keyOf key entries) := by
  induction entries with
  | nil => cases found
  | cons head tail ih =>
    rw [map_cons, nodup_cons] at distinct
    by_cases hit : keyOf head = key
    · have same : head = entry := by simpa [lookup, hit] using found
      rw [remove_cons_self hit, remove_unlisted (hit ▸ distinct.1), same]
    · have later : lookup keyOf key tail = some entry := by
        simpa [lookup, find?_cons, hit] using found
      rw [remove_cons_other hit]
      exact ((ih distinct.2 later).cons head).trans (.swap entry head _)

theorem update_perm (written : Entry) (distinct : (entries.map keyOf).Nodup)
    (found : lookup keyOf key entries = some entry) :
    (update keyOf key (fun _ => written) entries).Perm (written :: remove keyOf key entries) := by
  have order := (perm_remove distinct found).map
    fun entry => if keyOf entry = key then written else entry
  have kept : (remove keyOf key entries).map
      (fun entry => if keyOf entry = key then written else entry) = remove keyOf key entries := by
    rw [map_congr_left (g := id)]
    · simp
    · intro other mem
      have miss := (mem_filter.mp mem).2
      simp only [ne_eq, decide_not, Bool.not_eq_true', decide_eq_false_iff_not] at miss
      simp [miss]
  rwa [map_cons, kept, if_pos (lookup_key found)] at order

section

variable (distinct : (entries.map keyOf).Nodup)
include distinct

theorem lookup_of_mem (mem : entry ∈ entries) :
    lookup keyOf (keyOf entry) entries = some entry := by
  induction entries with
  | nil => cases mem
  | cons head tail ih =>
    rw [map_cons, nodup_cons] at distinct
    rcases mem_cons.mp mem with same | later
    · subst same
      simp [lookup]
    have miss : keyOf head ≠ keyOf entry := by
      intro same
      exact distinct.1 (same ▸ mem_map_of_mem later)
    simp only [lookup, find?_cons, miss, decide_false]
    exact ih distinct.2 later

theorem lookup_unique
    (found : lookup keyOf key entries = some entry) {other : Entry} (mem : other ∈ entries)
    (same : keyOf other = key) : other = entry := by
  have again := lookup_of_mem distinct mem
  rw [same, found] at again
  exact (Option.some.inj again).symm

theorem update_lookup (found : lookup keyOf key entries = some entry) :
    update keyOf key (fun _ => entry) entries = entries := by
  unfold update
  rw [map_congr_left (g := id)]
  · simp
  intro other mem
  split_ifs with hit
  · have same := lookup_of_mem distinct mem
    rw [hit, found] at same
    exact Option.some.inj same
  · rfl

end

@[simp] theorem total_nil : total weight ([] : List Entry) = 0 := rfl

@[simp] theorem total_cons (head : Entry) (tail : List Entry) :
    total weight (head :: tail) = weight head + total weight tail := by
  simp [total]

@[simp] theorem total_append (left right : List Entry) :
    total weight (left ++ right) = total weight left + total weight right := by
  simp [total]

theorem total_filter {kept : Entry → Prop} [DecidablePred kept] :
    ((entries.filter (kept ·)).map weight).sum =
      total (fun entry => if kept entry then weight entry else 0) entries := by
  induction entries with
  | nil => rfl
  | cons head tail ih =>
    rw [total_cons, ← ih]
    by_cases hit : kept head <;> simp [hit]

theorem total_nonneg (nonneg : ∀ entry ∈ entries, 0 ≤ weight entry) : 0 ≤ total weight entries := by
  induction entries with
  | nil => simp
  | cons head tail ih =>
    have first := nonneg head mem_cons_self
    have rest := ih (forall_mem_cons.mp nonneg).2
    rw [total_cons]
    omega

theorem weight_le_total (nonneg : ∀ entry ∈ entries, 0 ≤ weight entry)
    (mem : entry ∈ entries) : weight entry ≤ total weight entries := by
  induction entries with
  | nil => cases mem
  | cons head tail ih =>
    have first := nonneg head mem_cons_self
    have tailNonneg : ∀ entry ∈ tail, 0 ≤ weight entry :=
      (forall_mem_cons.mp nonneg).2
    rw [total_cons]
    rcases mem_cons.mp mem with same | later
    · subst same
      have := total_nonneg tailNonneg
      omega
    · have := ih tailNonneg later
      omega

theorem total_update (distinct : (entries.map keyOf).Nodup)
    (found : lookup keyOf key entries = some entry) :
    total weight (update keyOf key change entries) =
      total weight entries - weight entry + weight (change entry) := by
  induction entries with
  | nil => simp [lookup] at found
  | cons head tail ih =>
    rw [map_cons, nodup_cons] at distinct
    by_cases hit : keyOf head = key
    · obtain rfl : head = entry := by simpa [lookup, hit] using found
      have absent : lookup keyOf key tail = none := by
        apply lookup_none.mpr
        intro later mem clash
        exact distinct.1 (hit ▸ clash ▸ mem_map_of_mem mem)
      have rest : update keyOf key change tail = tail := update_absent absent
      simp only [update] at rest
      simp only [update, map_cons, hit, ↓reduceIte, total_cons, rest]
      omega
    · have later : lookup keyOf key tail = some entry := by
        simpa [lookup, find?_cons, hit] using found
      have rest := ih distinct.2 later
      simp only [update] at rest
      simp only [update, map_cons, hit, ↓reduceIte, total_cons, rest]
      omega

theorem lookup_remove_self : lookup keyOf key (remove keyOf key entries) = none := by
  apply lookup_none.mpr
  intro entry mem
  simpa using (mem_filter.mp mem).2

theorem lookup_remove_other (ne : other ≠ key) :
    lookup keyOf other (remove keyOf key entries) = lookup keyOf other entries := by
  simp only [lookup, remove, find?_filter]
  congr 1
  funext entry
  by_cases hit : keyOf entry = other <;> simp [hit, ne]

theorem keys_remove_nodup (distinct : (entries.map keyOf).Nodup) :
    ((remove keyOf key entries).map keyOf).Nodup :=
  distinct.sublist (filter_sublist.map keyOf)

theorem forall_mem_concat {Item : Type*} {items : List Item} {item : Item} {holds : Item → Prop}
    (old : ∀ other ∈ items, holds other) (new : holds item) :
    ∀ other ∈ items ++ [item], holds other :=
  forall_mem_append.mpr ⟨old, forall_mem_singleton.mpr new⟩

section

variable (distinct : (entries.map keyOf).Nodup)
include distinct

omit [DecidableEq Key] in
theorem keys_append_nodup (fresh : ∀ other ∈ entries, keyOf other ≠ keyOf entry) :
    ((entries ++ [entry]).map keyOf).Nodup := by
  rw [map_append]
  refine distinct.append (nodup_singleton _) (disjoint_singleton.mpr ?_)
  rintro listed
  obtain ⟨other, mem, same⟩ := mem_map.mp listed
  exact fresh other mem same

theorem total_remove (found : lookup keyOf key entries = some entry) :
    total weight (remove keyOf key entries) = total weight entries - weight entry := by
  have order := ((perm_remove distinct found).map weight).sum_eq
  rw [map_cons, sum_cons] at order
  unfold total
  omega

/-- Distinct keys that are there account for part of the total. -/
theorem sum_le_total {keys : List Key} {price : Key → Int}
    (nonneg : ∀ entry ∈ entries, 0 ≤ weight entry) (apart : keys.Nodup)
    (priced : ∀ key ∈ keys, ∃ entry, lookup keyOf key entries = some entry ∧ price key ≤ weight entry) :
    (keys.map price).sum ≤ total weight entries := by
  induction keys generalizing entries with
  | nil => exact total_nonneg nonneg
  | cons key rest ih =>
    obtain ⟨fresh, apart⟩ := nodup_cons.mp apart
    obtain ⟨entry, found, cost⟩ := priced key mem_cons_self
    have remaining : ∀ other ∈ rest, ∃ entry,
        lookup keyOf other (remove keyOf key entries) = some entry ∧ price other ≤ weight entry := by
      intro other mem
      have ne : other ≠ key := fun same => fresh (same ▸ mem)
      rw [lookup_remove_other ne]
      exact priced other (mem_cons_of_mem key mem)
    have later := ih (keys_remove_nodup distinct)
      (fun other mem => nonneg other (mem_of_mem_filter mem)) apart remaining
    rw [total_remove distinct found] at later
    rw [map_cons, sum_cons]
    omega

end

end Dataflow.KeyedTable
