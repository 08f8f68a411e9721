import Dataflow.ChainExecution

/-!
Staleness in accepted chains. The validator follows dirtiness through mutations
and offloads but forgets it at a release: an object that is released dirty and
prefetched again is consumed stale. Unless an object released dirty is used
again, every task consumes latest versions and every final location holds one;
and if the chain runs to its end, only then.
-/

namespace Dataflow.Sim

open List

/-- No executed task consumes a copy older than the latest version. -/
def ConsumesLatest (chain : TaskChain) : Prop :=
  ∀ position task memory, chain.tasks[position]? = some task →
    executed chain position = some memory → ∀ object ∈ task.inputs, ∀ cell,
      memory object = some cell → ∀ copy, cell.fast = some copy → copy = cell.version

/-- At the end every declared location holds the latest version. -/
def FinalLatest (chain : TaskChain) : Prop :=
  ∀ memory, executed chain chain.tasks.length = some memory →
    ∀ entry ∈ chain.finalLocations, ∃ cell, memory entry.1 = some cell ∧
      cell.copy entry.2 = some cell.version

/-! ### dirty releases -/

/-- Mutated by one of the first tasks and not offloaded since. -/
def Unsaved (chain : TaskChain) (count : Nat) (object : String) : Prop :=
  ∃ writer < count, (∃ task, chain.tasks[writer]? = some task ∧ object ∈ task.mutatesInputs) ∧
    ∀ later task, writer ≤ later → later < count → chain.tasks[later]? = some task →
      object ∉ task.offloadIds

/-- Released by one of the first tasks while its latest version was saved nowhere. -/
def Lost (chain : TaskChain) (count : Nat) (object : String) : Prop :=
  ∃ releaser < count, (∃ task, chain.tasks[releaser]? = some task ∧ object ∈ task.releasesAfter) ∧
    Unsaved chain (releaser + 1) object

/-- An object is released dirty and consumed later, or required at the end. -/
def DirtyReleaseUsed (chain : TaskChain) : Prop :=
  ∃ object, (∃ position task, chain.tasks[position]? = some task ∧ object ∈ task.inputs ∧
      Lost chain position object) ∨
    (object ∈ chain.finalLocations.map (·.1) ∧ Lost chain chain.tasks.length object)

section Releases

variable {chain : TaskChain} {count : Nat} {task : Task} {object : String}

theorem forall_later_succ {after : Nat → Prop} {holds : Task → Prop}
    (found : chain.tasks[count]? = some task) :
    (∀ later other, after later → later < count + 1 → chain.tasks[later]? = some other →
      holds other) ↔ (∀ later other, after later → later < count →
      chain.tasks[later]? = some other → holds other) ∧ (after count → holds task) := by
  constructor
  · exact fun all => ⟨fun later other after early => all later other after (Nat.lt_succ_of_lt early),
      fun after => all count task after (Nat.lt_succ_self count) found⟩
  rintro ⟨old, new⟩ later other after early there
  rcases Nat.lt_succ_iff_lt_or_eq.mp early with sooner | rfl
  · exact old later other after sooner there
  · rw [found] at there
    cases there
    exact new after

theorem unsaved_succ (found : chain.tasks[count]? = some task) : Unsaved chain (count + 1) object ↔
      (Unsaved chain count object ∨ object ∈ task.mutatesInputs) ∧ object ∉ task.offloadIds := by
  simp only [Unsaved, Nat.exists_lt_succ_right, forall_later_succ found, found, Option.some.injEq,
    exists_eq_left', le_refl, true_imp_iff]
  constructor
  · rintro (⟨writer, early, written, kept, unmoved⟩ | ⟨listed, _, unmoved⟩)
    · exact ⟨.inl ⟨writer, early, written, kept⟩, unmoved early.le⟩
    · exact ⟨.inr listed, unmoved⟩
  · rintro ⟨⟨writer, early, written, kept⟩ | listed, unmoved⟩
    · exact .inl ⟨writer, early, written, kept, fun _ => unmoved⟩
    · exact .inr ⟨listed, fun later _ after early => absurd early (not_lt.mpr after), unmoved⟩

theorem lost_succ (found : chain.tasks[count]? = some task) :
    Lost chain (count + 1) object ↔ Lost chain count object ∨
      object ∈ task.releasesAfter ∧ Unsaved chain (count + 1) object := by
  simp only [Lost, Nat.exists_lt_succ_right, found, Option.some.injEq, exists_eq_left']

end Releases

/-! ### without dirty releases every copy is current -/

section Latest

variable {chain : TaskChain} {count : Nat} {task : Task} {object : String} {memory : Memory}
  {before after : Option Cell} {unsaved abandoned : Prop}

theorem unsaved_dirty (accepted : validateChain chain = none)
    (within : count ≤ chain.tasks.length) (unsaved : Unsaved chain count object)
    (kept : ¬ Lost chain count object) : object ∈ (chain.lifetimesBefore count).dirty ∧
      object ∈ (chain.lifetimesBefore count).onCompute := by
  induction count with
  | zero =>
    obtain ⟨_, early, _⟩ := unsaved
    exact absurd early (Nat.not_lt_zero _)
  | succ count ih =>
    have found := getElem?_eq_getElem within
    have fits := accepted_task accepted found
    rw [lost_succ found, not_or, not_and] at kept
    have unreleased := fun listed => kept.2 listed unsaved
    obtain ⟨source, unmoved⟩ := (unsaved_succ found).mp unsaved
    have here : (object ∈ (chain.lifetimesBefore count).dirty ∨
          object ∈ chain.tasks[count].mutatesInputs) ∧
        object ∈ (chain.lifetimesBefore count).onCompute := by
      rcases source with earlier | now
      · obtain ⟨dirty, fast⟩ := ih (Nat.le_of_lt within) earlier kept.1
        exact ⟨.inl dirty, fast⟩
      · exact ⟨.inr now, fits.inputsResident object (fits.mutatesInputs object now)⟩
    -- a prefetch would forget the dirtiness, but the object is in fast memory
    have unfetched : object ∉ chain.tasks[count].prefetchIds :=
      fun listed => prefetch_not_resident fits (Nat.le_of_lt within) listed here.2
    rw [lifetimes_succ found, Lifetimes.mem_dirty_settled, Lifetimes.mem_compute_settled]
    exact ⟨⟨⟨⟨here.1, unmoved⟩, unfetched⟩, unreleased⟩, .inl ⟨.inl here.2, unmoved⟩, unreleased⟩

/-- Fast copies are current, and backing copies too unless a mutation is unsaved. -/
def Current (unsaved : Prop) (cell : Option Cell) : Prop :=
  ∀ held, cell = some held → (∀ copy, held.fast = some copy → copy = held.version) ∧
    ∀ copy, held.backing = some copy → copy = held.version ∨ unsaved

theorem written_current (current : Current unsaved before)
    (written : Written task object before after) :
    Current (unsaved ∨ object ∈ task.mutatesInputs) after := by
  cases written with
  | output output listed named unwritten =>
    rintro _ ⟨⟩
    cases placed : output.location <;> simp [freshCell, placed, eq_comm]
  | mutated listed foreign resident above =>
    rintro _ ⟨⟩
    exact ⟨fun copy same => (Option.some.inj same).symm, fun _ _ => .inr (.inr listed)⟩
  | same unwritten foreign =>
    intro held found
    obtain ⟨fast, backing⟩ := current held found
    exact ⟨fast, fun copy same => (backing copy same).imp_right .inl⟩

theorem settled_current (current : Current unsaved before)
    (settled : Settled chain count task object before after)
    (clean : object ∈ task.releasesAfter ∨ object ∈ task.prefetchIds → ¬ unsaved) :
    Current (unsaved ∧ object ∉ task.offloadIds) after := by
  cases settled with
  | released listed keeps stays fast =>
    rintro _ ⟨⟩
    obtain ⟨_, backing⟩ := current _ rfl
    refine ⟨by simp [releaseCell], fun copy same => ?_⟩
    simp only [releaseCell] at same
    split_ifs at same
    exact .inl ((backing copy same).resolve_right (clean (.inl listed)))
  | offloaded listed keeps stays fast =>
    rintro _ ⟨⟩
    obtain ⟨current, _⟩ := current _ rfl
    exact ⟨by simp [offloadCell], fun copy same => .inl (current copy same)⟩
  | prefetched listed keeps stays absent =>
    rintro _ ⟨⟩
    obtain ⟨_, backing⟩ := current _ rfl
    have saved := fun copy same => (backing copy same).resolve_right (clean (.inr listed))
    exact ⟨saved, fun copy same => .inl (saved copy same)⟩
  | kept unreleased unmoved unfetched =>
    intro held found
    obtain ⟨fast, backing⟩ := current held found
    exact ⟨fast, fun copy same => (backing copy same).imp_right fun dirty => ⟨dirty, unmoved⟩⟩

theorem executed_current (accepted : validateChain chain = none)
    (within : count ≤ chain.tasks.length) (run : executed chain count = some memory)
    (kept : ¬ Lost chain count object) : Current (Unsaved chain count object) (memory object) := by
  revert kept
  refine executed_induction accepted (motive := fun count cell =>
    ¬ Lost chain count object → Current (Unsaved chain count object) cell) ?_ ?_ within run
  · intro _ held found
    obtain ⟨version, copies⟩ := (initial_placed chain.initialMemory object).zero held found
    rw [version]
    exact ⟨copies .fast, fun copy same => .inl (copies .backing copy same)⟩
  intro count task before cell after found fits agrees written settled current kept
  rw [lost_succ found, not_or, not_and] at kept
  have within := (List.getElem?_eq_some_iff.mp found).1
  have landed := written_current (current kept.1) written
  rw [unsaved_succ found]
  refine settled_current landed settled ?_
  rintro (released | prefetched) dirty
  · exact kept.2 released ((unsaved_succ found).mpr ⟨dirty, fits.releaseNotOffload object released⟩)
  · refine prefetch_not_resident fits (Nat.le_of_lt within) prefetched ?_
    rcases dirty with earlier | now
    · exact (unsaved_dirty accepted (Nat.le_of_lt within) earlier kept.1).2
    · exact fits.inputsResident object (fits.mutatesInputs object now)

end Latest

/-! ### after a dirty release every copy is stale -/

section Stale

variable {chain : TaskChain} {count : Nat} {task : Task} {object : String} {memory : Memory}
  {before after : Option Cell} {unsaved abandoned : Prop}

def Abandoned (chain : TaskChain) (count : Nat) (object : String) : Prop :=
  ∃ releaser < count, (∃ task, chain.tasks[releaser]? = some task ∧ object ∈ task.releasesAfter) ∧
    Unsaved chain (releaser + 1) object ∧
    ∀ later task, releaser < later → later < count → chain.tasks[later]? = some task →
      object ∉ task.inputs

theorem abandoned_succ (found : chain.tasks[count]? = some task) :
    Abandoned chain (count + 1) object ↔ (Abandoned chain count object ∧ object ∉ task.inputs) ∨
        object ∈ task.releasesAfter ∧ Unsaved chain (count + 1) object := by
  simp only [Abandoned, Nat.exists_lt_succ_right, forall_later_succ found, found,
    Option.some.injEq, exists_eq_left', lt_irrefl, false_imp_iff, and_true]
  refine or_congr ⟨?_, ?_⟩ ⟨fun now => ⟨now.1, now.2.1⟩, fun now => ⟨now.1, now.2, ?_⟩⟩
  · rintro ⟨releaser, early, released, dirty, idle, unused⟩
    exact ⟨⟨releaser, early, released, dirty, idle⟩, unused early⟩
  · rintro ⟨⟨releaser, early, released, dirty, idle⟩, unused⟩
    exact ⟨releaser, early, released, dirty, idle, fun _ => unused⟩
  · exact fun later _ after early => absurd early (lt_asymm after)

theorem lost_consumed (within : count ≤ chain.tasks.length) (lost : Lost chain count object) :
    Abandoned chain count object ∨ ∃ position task, chain.tasks[position]? = some task ∧
      object ∈ task.inputs ∧ Abandoned chain position object ∧ position < count := by
  induction count with
  | zero =>
    obtain ⟨_, early, _⟩ := lost
    exact absurd early (Nat.not_lt_zero _)
  | succ count ih =>
    have found := getElem?_eq_getElem within
    rw [abandoned_succ found]
    rcases (lost_succ found).mp lost with earlier | now
    · rcases ih (Nat.le_of_lt within) earlier with idle | ⟨position, task, there, used⟩
      · by_cases consumed : object ∈ chain.tasks[count].inputs
        · exact .inr ⟨count, _, found, consumed, idle, Nat.lt_succ_self count⟩
        · exact .inl (.inl ⟨idle, consumed⟩)
      · exact .inr ⟨position, task, there, used.1, used.2.1, Nat.lt_succ_of_lt used.2.2⟩
    · exact .inl (.inr now)

/-- No copy is newer than the latest version; an unsaved one is not in backing
memory, an abandoned one is nowhere. -/
structure Behind (unsaved abandoned : Prop) (cell : Option Cell) : Prop where
  exists_of : unsaved ∨ abandoned → cell ≠ none
  fast : ∀ held, cell = some held → ∀ copy, held.fast = some copy →
    copy ≤ held.version ∧ (abandoned → copy < held.version)
  backing : ∀ held, cell = some held → ∀ copy, held.backing = some copy →
    copy ≤ held.version ∧ (unsaved ∨ abandoned → copy < held.version)

theorem written_behind (fits : TaskAccepted chain count task)
    (agrees : Agrees chain (chain.knownBefore count) (chain.lifetimesBefore count) object before)
    (behind : Behind unsaved abandoned before) (written : Written task object before after) :
    Behind (unsaved ∨ object ∈ task.mutatesInputs) (abandoned ∧ object ∉ task.inputs) after := by
  obtain ⟨present, fast, backing⟩ := behind
  cases written with
  | output output listed named unwritten =>
    -- a new object is neither unsaved nor abandoned
    have absent : before = none := by
      by_contra known
      exact fits.outputsFresh object (named ▸ mem_map_of_mem listed) (agrees.known known)
    have neither : ¬ (unsaved ∨ abandoned) := fun either => present either absent
    rw [not_or] at neither
    refine ⟨by simp, ?_, ?_⟩ <;>
      (rintro _ ⟨⟩
       cases placed : output.location <;> simp [freshCell, placed, neither, unwritten])
  | mutated listed foreign resident above =>
    have consumed := fits.mutatesInputs object listed
    refine ⟨by simp, ?_, ?_⟩
    · rintro _ ⟨⟩ copy ⟨⟩
      exact ⟨le_refl _, fun idle => absurd consumed idle.2⟩
    · rintro _ ⟨⟩ copy same
      have older := (backing _ rfl copy same).1.trans_lt above
      exact ⟨older.le, fun _ => older⟩
  | same unwritten foreign =>
    refine ⟨fun either => present ?_, ?_, ?_⟩
    · exact either.imp (fun dirty => dirty.resolve_right unwritten) And.left
    · intro held found copy same
      obtain ⟨older, stale⟩ := fast held found copy same
      exact ⟨older, fun idle => stale idle.1⟩
    · intro held found copy same
      obtain ⟨older, stale⟩ := backing held found copy same
      refine ⟨older, fun either => stale ?_⟩
      exact either.imp (fun dirty => dirty.resolve_right unwritten) And.left

theorem settled_behind (behind : Behind unsaved abandoned before)
    (settled : Settled chain count task object before after) :
    Behind (unsaved ∧ object ∉ task.offloadIds)
      (abandoned ∨ object ∈ task.releasesAfter ∧ unsaved ∧ object ∉ task.offloadIds) after := by
  obtain ⟨present, fast, backing⟩ := behind
  cases settled with
  | released listed keeps stays resident =>
    refine ⟨by simp, by simp [releaseCell], ?_⟩
    rintro _ ⟨⟩ copy same
    simp only [releaseCell] at same
    split_ifs at same
    obtain ⟨older, stale⟩ := backing _ rfl copy same
    refine ⟨older, fun either => stale ?_⟩
    rcases either with dirty | idle | dirty
    · exact .inl dirty.1
    · exact .inr idle
    · exact .inl dirty.2.1
  | offloaded listed keeps stays resident =>
    refine ⟨by simp, by simp [offloadCell], ?_⟩
    rintro _ ⟨⟩ copy same
    obtain ⟨older, stale⟩ := fast _ rfl copy same
    refine ⟨older, fun either => stale ?_⟩
    rcases either with dirty | idle | dirty
    · exact absurd listed dirty.2
    · exact idle
    · exact absurd dirty.1 keeps
  | prefetched listed keeps stays absent =>
    refine ⟨by simp, ?_, ?_⟩ <;> rintro _ ⟨⟩ copy same <;>
      obtain ⟨older, stale⟩ := backing _ rfl copy same <;>
      refine ⟨older, fun either => stale ?_⟩
    · exact .inr (either.resolve_right fun dirty => keeps dirty.1)
    · exact either.imp And.left fun idle => idle.resolve_right fun dirty => keeps dirty.1
  | kept unreleased unmoved unfetched =>
    have remains : (abandoned ∨ object ∈ task.releasesAfter ∧ unsaved ∧ object ∉ task.offloadIds)
        → abandoned := fun either => either.resolve_right fun dirty => unreleased dirty.1
    refine ⟨fun either => present (either.imp And.left remains), ?_, ?_⟩
    · intro held found copy same
      obtain ⟨older, stale⟩ := fast held found copy same
      exact ⟨older, fun idle => stale (remains idle)⟩
    · intro held found copy same
      obtain ⟨older, stale⟩ := backing held found copy same
      exact ⟨older, fun either => stale (either.imp And.left remains)⟩

theorem executed_behind (accepted : validateChain chain = none)
    (within : count ≤ chain.tasks.length) (run : executed chain count = some memory)
    (object : String) :
    Behind (Unsaved chain count object) (Abandoned chain count object) (memory object) := by
  refine executed_induction accepted (motive := fun count cell =>
    Behind (Unsaved chain count object) (Abandoned chain count object) cell) ?_ ?_ within run
  · have clean : ¬ (Unsaved chain 0 object ∨ Abandoned chain 0 object) := by
      rintro (⟨_, early, _⟩ | ⟨_, early, _⟩) <;> exact absurd early (Nat.not_lt_zero _)
    have zero := (initial_placed chain.initialMemory object).zero
    refine ⟨fun either => absurd either clean, ?_, ?_⟩ <;> intro held found copy same
    · obtain ⟨version, copies⟩ := zero held found
      rw [version, copies .fast copy same]
      exact ⟨le_refl 0, fun idle => absurd (.inr idle) clean⟩
    · obtain ⟨version, copies⟩ := zero held found
      rw [version, copies .backing copy same]
      exact ⟨le_refl 0, fun either => absurd either clean⟩
  · intro count task before cell after found fits agrees written settled behind
    rw [abandoned_succ found, unsaved_succ found]
    exact settled_behind (written_behind fits agrees behind written) settled

end Stale

/-! ### dirty soundness -/

section Soundness

variable {chain : TaskChain}

theorem accepted_final (accepted : validateChain chain = none) {entry : String × Location}
    (required : entry ∈ chain.finalLocations) :
    checkFinal (chain.lifetimesBefore chain.tasks.length) entry = none := by
  obtain ⟨_, _, lifetimes, _⟩ := accepted_parts accepted
  simp only [validateReleasesMutation, first_violation_none, mem_cons, not_mem_nil,
    or_false, forall_eq_or_imp, forall_eq, findSome?_eq_none_iff] at lifetimes
  rw [TaskChain.lifetimesBefore, take_length]
  exact lifetimes.2 entry required

theorem executed_earlier {count earlier : Nat} {memory : Memory} (before : earlier ≤ count)
    (run : executed chain count = some memory) :
    ∃ middle, executed chain earlier = some middle := by
  induction count generalizing memory with
  | zero => exact ⟨memory, Nat.le_zero.mp before ▸ run⟩
  | succ count ih =>
    rcases Nat.lt_or_eq_of_le before with sooner | now
    · obtain ⟨middle, reached, _⟩ := Option.bind_eq_some_iff.mp run
      exact ih (Nat.le_of_lt_succ sooner) reached
    · exact ⟨memory, now ▸ run⟩

theorem consumes_latest_of_clean (accepted : validateChain chain = none)
    (clean : ¬ DirtyReleaseUsed chain) : ConsumesLatest chain := by
  intro position task memory found run object consumed cell held copy fast
  have within := (List.getElem?_eq_some_iff.mp found).1
  have kept : ¬ Lost chain position object :=
    fun lost => clean ⟨object, .inl ⟨position, task, found, consumed, lost⟩⟩
  exact (executed_current accepted (Nat.le_of_lt within) run kept cell held).1 copy fast

theorem final_latest_of_clean (accepted : validateChain chain = none)
    (clean : ¬ DirtyReleaseUsed chain) : FinalLatest chain := by
  rintro memory run ⟨object, location⟩ required
  have named : object ∈ chain.finalLocations.map (·.1) := mem_map_of_mem required
  have kept : ¬ Lost chain chain.tasks.length object :=
    fun lost => clean ⟨object, .inr ⟨named, lost⟩⟩
  have agrees := executed_agrees accepted (le_refl _) run object
  have current := executed_current accepted (le_refl _) run kept
  have final := accepted_final accepted required
  cases location with
  | fast =>
    simp only [checkFinal, violation_none, not_not] at final
    obtain ⟨cell, held, copy, fast⟩ := in_fast_iff.mp (agrees.resident.mpr final)
    exact ⟨cell, held, fast.trans (congrArg some ((current cell held).1 copy fast))⟩
  | backing =>
    simp only [checkFinal, first_violation_none, mem_cons, not_mem_nil, or_false,
      forall_eq_or_imp, forall_eq, violation_none, not_not] at final
    obtain ⟨copy, there⟩ := Option.isSome_iff_exists.mp (agrees.saved named final.1)
    obtain ⟨cell, held, backing⟩ := Option.bind_eq_some_iff.mp there
    -- an unsaved mutation would have left the object dirty
    have saved := ((current cell held).2 copy backing).resolve_right fun unsaved =>
      final.2 (unsaved_dirty accepted (le_refl _) unsaved kept).1
    exact ⟨cell, held, backing.trans (congrArg some saved)⟩

theorem abandoned_unconsumed (accepted : validateChain chain = none) {position : Nat} {task : Task}
    {object : String} {final : Memory} (latest : ConsumesLatest chain)
    (run : executed chain chain.tasks.length = some final)
    (found : chain.tasks[position]? = some task) (consumed : object ∈ task.inputs) :
    ¬ Abandoned chain position object := by
  intro abandoned
  have within := (List.getElem?_eq_some_iff.mp found).1
  obtain ⟨next, reached⟩ := executed_earlier (Nat.succ_le_of_lt within) run
  obtain ⟨memory, before, step⟩ := executed_succ found reached
  obtain ⟨cell, held, copy, fast⟩ := in_fast_iff.mp ((exec_stages step).1 object consumed)
  have current := latest position task memory found before object consumed cell held copy fast
  have stale := ((executed_behind accepted (Nat.le_of_lt within) before object).fast cell held copy
    fast).2 abandoned
  exact absurd current stale.ne

/-- On an accepted chain that does not use an object again after releasing it
dirty, tasks consume latest versions and final locations hold them; and a chain
that runs to its end has these properties only then. -/
theorem dirty_soundness (accepted : validateChain chain = none) :
    (¬ DirtyReleaseUsed chain → ConsumesLatest chain ∧ FinalLatest chain) ∧
    (executed chain chain.tasks.length ≠ none →
      (ConsumesLatest chain ∧ FinalLatest chain ↔ ¬ DirtyReleaseUsed chain)) := by
  have forward : ¬ DirtyReleaseUsed chain → ConsumesLatest chain ∧ FinalLatest chain :=
    fun clean => ⟨consumes_latest_of_clean accepted clean, final_latest_of_clean accepted clean⟩
  refine ⟨forward, fun completes => ⟨?_, forward⟩⟩
  obtain ⟨final, run⟩ := Option.ne_none_iff_exists'.mp completes
  rintro ⟨consumes, finals⟩ ⟨object, ⟨position, task, found, consumed, lost⟩ | ⟨named, lost⟩⟩
  · have within := (List.getElem?_eq_some_iff.mp found).1
    rcases lost_consumed (Nat.le_of_lt within) lost with idle | ⟨_, _, there, used, idle, _⟩
    · exact abandoned_unconsumed accepted consumes run found consumed idle
    · exact abandoned_unconsumed accepted consumes run there used idle
  rcases lost_consumed (le_refl _) lost with idle | ⟨_, _, there, used, idle, _⟩
  · obtain ⟨⟨_, location⟩, required, rfl⟩ := mem_map.mp named
    obtain ⟨cell, held, latest⟩ := finals final run _ required
    have behind := executed_behind accepted (le_refl _) run
    cases location with
    | fast => exact absurd rfl (((behind _).fast cell held _ latest).2 idle).ne
    | backing => exact absurd rfl (((behind _).backing cell held _ latest).2 (.inr idle)).ne
  · exact abandoned_unconsumed accepted consumes run there used idle

end Soundness

/-- A weight is updated and offloaded, fetched back, consumed and released clean. -/
def savedUpdate : TaskChain where
  initialMemory := [{ id := "weight", size := 4 }]
  tasks :=
    [{ id := "update", inputs := ["weight"], mutatesInputs := ["weight"],
       offloadAfter := [{ objId := "weight" }] },
     { id := "fetch", prefetchAfter := [{ objId := "weight" }] },
     { id := "consume", inputs := ["weight"], releasesAfter := ["weight"] }]
  finalLocations := [("weight", .backing)]
  fastMemoryCapacity := some 8

theorem saved_update_clean : ¬ DirtyReleaseUsed savedUpdate := by
  have safe : ∀ count object, ¬ Lost savedUpdate count object := by
    rintro count object ⟨releaser, _, ⟨task, found, listed⟩, unsaved⟩
    obtain ⟨inside, rfl⟩ := List.getElem?_eq_some_iff.mp found
    -- only the last task releases, and the first one has offloaded the weight
    match releaser, inside with
    | 0, _ => cases listed
    | 1, _ => cases listed
    | 2, _ =>
      obtain rfl := mem_singleton.mp listed
      have first : ¬ Unsaved savedUpdate 1 "weight" := by
        intro still
        have kept := (unsaved_succ rfl).mp still
        exact kept.2 (mem_singleton_self "weight")
      have second : ¬ Unsaved savedUpdate 2 "weight" := by
        intro still
        have kept := (unsaved_succ rfl).mp still
        exact kept.1.elim first not_mem_nil
      exact ((unsaved_succ rfl).mp unsaved).1.elim second not_mem_nil
  rintro ⟨object, ⟨_, _, _, _, lost⟩ | ⟨_, lost⟩⟩ <;> exact safe _ _ lost

theorem dirty_soundness_saved_update :
    validateChain savedUpdate = none ∧ (executed savedUpdate 3).isSome = true ∧
      ConsumesLatest savedUpdate ∧ FinalLatest savedUpdate :=
  have accepted : validateChain savedUpdate = none := by decide +kernel
  ⟨accepted, by decide +kernel, (dirty_soundness accepted).1 saved_update_clean⟩

/-- The weight also has a copy in backing memory; its update is released. -/
def droppedUpdate : TaskChain where
  initialMemory := [{ id := "weight", size := 4 }, { id := "weight", size := 4, location := .backing }]
  tasks :=
    [{ id := "update", inputs := ["weight"], mutatesInputs := ["weight"],
       releasesAfter := ["weight"] },
     { id := "fetch", prefetchAfter := [{ objId := "weight" }] },
     { id := "consume", inputs := ["weight"] }]
  finalLocations := [("weight", .backing)]
  fastMemoryCapacity := some 8

/-- The chain is accepted and runs to its end; the last task consumes version 0
of the weight, and the end holds it too, while the latest version is 1. -/
theorem dropped_update_consumed : validateChain droppedUpdate = none ∧
    (executed droppedUpdate 2).bind (· "weight") =
      some { version := 1, fast := some 0, backing := some 0 } ∧
    (executed droppedUpdate 3).bind (· "weight") =
      some { version := 1, fast := some 0, backing := some 0 } ∧
    ¬ ConsumesLatest droppedUpdate ∧ ¬ FinalLatest droppedUpdate := by
  have fetched : (executed droppedUpdate 2).bind (· "weight") =
      some { version := 1, fast := some 0, backing := some 0 } := by decide +kernel
  have ended : (executed droppedUpdate 3).bind (· "weight") =
      some { version := 1, fast := some 0, backing := some 0 } := by decide +kernel
  refine ⟨by decide +kernel, fetched, ended, ?_, ?_⟩
  · intro latest
    obtain ⟨memory, run, held⟩ := Option.bind_eq_some_iff.mp fetched
    have stale := latest 2 _ memory rfl run "weight" mem_cons_self _ held 0 rfl
    exact absurd stale (by decide)
  intro latest
  obtain ⟨memory, run, held⟩ := Option.bind_eq_some_iff.mp ended
  obtain ⟨cell, found, current⟩ := latest memory run _ mem_cons_self
  rw [held] at found
  cases found
  exact absurd current (by decide)

end Dataflow.Sim
