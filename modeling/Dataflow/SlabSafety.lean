import Dataflow.SlabAccounting

/-!
Safety and conservation of the slab over whole histories. Runs are lists of requests,
each refused or executed, and a run meets a condition when every step of it does in
the state it starts from.
-/

namespace Dataflow.SlabPlane

open ByteRanges Service List

namespace Plane

variable {capacity : Int} {plane : Plane}

def Meets (condition : Plane → Request → Prop) : Plane → List Request → Prop
  | _, [] => True
  | plane, request :: rest =>
    condition plane request ∧ Meets condition (plane.step request).plane rest

instance Meets.decidable (condition : Plane → Request → Prop)
    [∀ plane, DecidablePred (condition plane)] :
    ∀ plane requests, Decidable (Meets condition plane requests)
  | _, [] => isTrue trivial
  | plane, request :: rest =>
    have : Decidable (Meets condition (plane.step request).plane rest) :=
      Meets.decidable condition _ rest
    inferInstanceAs (Decidable (condition plane request ∧ Meets condition _ rest))

theorem run_keeps {condition : Plane → Request → Prop} {invariant : Plane → Prop}
    (kept : ∀ plane request, invariant plane → condition plane request →
      invariant (plane.step request).plane)
    (requests : List Request) (start : invariant plane) (meets : Meets condition plane requests) :
    invariant (plane.run requests) := by
  induction requests generalizing plane with
  | nil => exact start
  | cons request rest ih => exact ih (kept plane request start meets.1) meets.2

/-- What is held by the catalog, by live links, by queued commits, and lent out. -/
def owned (plane : Plane) : List Holding :=
  plane.objects.map (fun record => ⟨record.sizeBytes, record.extent⟩) ++
    ((plane.links.filter Link.alive).flatMap heldByLink ++
      (plane.commits.map (fun commit => ⟨commit.sizeBytes, commit.extent⟩) ++
        (plane.transients.map Transient.holding ++ plane.scratch.map Scratch.holding)))

theorem Accounted.owned_held (accounted : Accounted capacity plane) : plane.owned = plane.held := by
  have live : ∀ links : List Link, (∀ link ∈ links, link.alive = false →
      link.receivers = [] ∧ link.bwprobeExt = none) →
      (links.filter Link.alive).flatMap heldByLink = links.flatMap heldByLink := by
    intro links dead
    induction links with
    | nil => rfl
    | cons link rest ih =>
      have tail := ih (forall_mem_cons.mp dead).2
      rw [flatMap_cons, filter_cons, ← tail]
      split_ifs with alive
      · rw [flatMap_cons]
      · have empty := dead link mem_cons_self (Bool.eq_false_of_not_eq_true alive)
        simp [heldByLink, empty.1, empty.2]
  rw [owned, held, live plane.links accounted.linked.dead]

/-! ### safety -/

def Inside (capacity : Int) (extent : Extent) : Prop :=
  0 ≤ extent.offset ∧ extent.offset + extent.size ≤ capacity

def Safe (capacity : Int) (plane : Plane) : Prop :=
  (∀ holding ∈ plane.owned, Inside capacity holding.extent) ∧
    (plane.owned.map Holding.extent).Pairwise fun first second =>
      Before first second ∨ Before second first

/-- A request that is refused for CAPACITY finds no run of unowned bytes of its aligned size. -/
def HonestCapacity (capacity : Int) (plane : Plane) (request : Request) : Prop :=
  ∀ size, (plane.step request).refusal = some (.capacity size) → ∀ start, 0 ≤ start →
    start + alignedSize size ≤ capacity →
      ∃ byte, start ≤ byte ∧ byte < start + alignedSize size ∧
        ∃ holding ∈ plane.owned, holding.extent.Contains byte

theorem covered_once {extents : List Extent} (filled : ∀ extent ∈ extents, 0 < extent.size)
    (once : ∀ byte, cover extents byte ≤ 1) :
    extents.Pairwise fun first second => Before first second ∨ Before second first := by
  induction extents with
  | nil => exact Pairwise.nil
  | cons head tail ih =>
    refine pairwise_cons.mpr ⟨?_, ?_⟩
    · intro other mem
      apply before_or_before (filled head mem_cons_self) (filled other (mem_cons_of_mem head mem))
      intro byte inside both
      have total := once byte
      have covered := cover_pos mem both
      rw [cover_cons, if_pos inside] at total
      omega
    · apply ih (forall_mem_cons.mp filled).2
      intro byte
      have total := once byte
      rw [cover_cons_single] at total
      omega

theorem Accounted.safe (accounted : Accounted capacity plane) : Safe capacity plane := by
  have sound := accounted.sound
  rw [Safe, accounted.owned_held]
  refine ⟨?_, covered_once ?_ ?_⟩
  · intro holding mem
    have size := sound.filled holding mem
    have bounded : ∀ byte, holding.extent.Contains byte →
        0 ≤ byte ∧ byte < capacity := by
      intro byte inside
      have total := sound.whole byte
      have covered := cover_pos (mem_map_of_mem (f := Holding.extent) mem) inside
      rw [cover_slab] at total
      split_ifs at total with slab
      · exact slab
      · omega
    have first := bounded holding.extent.offset ⟨le_refl _, by omega⟩
    have last := bounded (holding.extent.offset + holding.extent.size - 1) ⟨by omega, by omega⟩
    exact ⟨by omega, by omega⟩
  · intro extent mem
    obtain ⟨holding, listed, rfl⟩ := mem_map.mp mem
    exact sound.filled holding listed
  · intro byte
    have total := sound.whole byte
    rw [cover_slab] at total
    split_ifs at total <;> omega

/-! ### refusals -/

/-- CAPACITY is the allocator's answer to a size that has bytes. -/
def Answers (plane : Plane) (reply : Reply) : Prop :=
  ∀ size, reply.refusal = some (.capacity size) → 0 < size ∧ plane.allocator.alloc size = none

theorem answers_done (next : Plane) : Answers plane ⟨next, none⟩ := by
  intro size refused
  cases refused

theorem answers_refused (next : Plane) {refusal : Refusal}
    (other : ∀ size, refusal ≠ .capacity size) : Answers plane (next.refuse refusal) := by
  intro size refused
  exact absurd (Option.some.inj refused) (other size)

theorem answers_capacity {size : Int} (positive : 0 < size)
    (none : plane.allocator.alloc size = none) : Answers plane (plane.refuse (.capacity size)) := by
  intro asked refused
  cases refused
  exact ⟨positive, none⟩

theorem answers_on_idle {serial : Nat} {step : Link → Reply}
    (each : ∀ link ∈ plane.link serial, Answers plane (step link)) :
    Answers plane (plane.onIdle serial step) := by
  unfold onIdle
  split
  · exact answers_done plane
  · rename_i link found
    split_ifs
    · exact each link found
    · exact answers_done plane

theorem answers_on_link {serial : Nat} {step : Link → Plane} :
    Answers plane (plane.onLink serial step) := by
  unfold onLink
  split
  · exact answers_done plane
  · exact answers_done _

theorem carve_answers {size : Int} (positive : 0 < size) (id : String) (version : Nat) :
    Answers plane (plane.carve id size version) := by
  unfold carve
  split
  · rename_i none
    exact answers_capacity positive none
  · exact answers_done _

theorem wipe_loop_answers (force : Bool) (ids : List String) (next : Plane) :
    Answers plane (wipeLoop force ids next) := by
  induction ids generalizing next with
  | nil => exact answers_done _
  | cons id rest ih =>
    unfold wipeLoop
    split
    · exact ih next
    · split_ifs
      · exact ih next
      · exact answers_refused next (by simp)
      · exact ih _

theorem handle_rts_answers {nbytes : Int} (positive : 0 < nbytes) (link : Link)
    (sendId destId : String) (overwrite : Bool) (eager : Option Nat) (raddr : Bool) (now : ℚ) :
    Answers plane (plane.handleRts link sendId destId nbytes overwrite eager raddr now) := by
  unfold handleRts
  split
  · exact answers_done plane
  split
  · exact answers_refused plane (by simp)
  split
  · rename_i none
    exact answers_capacity positive none
  simp only [not_lt.mpr positive.le, ↓reduceIte]
  split
  · exact answers_done _
  · split_ifs
    · exact answers_refused _ (by simp)
    · exact answers_done _

theorem step_answers (accounted : Accounted capacity plane) {request : Request}
    (orderly : plane.Orderly request) : Answers plane (plane.step request) := by
  cases request with
  | put id sizeBytes =>
    simp only [step, put]
    split
    · exact carve_answers orderly id 1
    · split_ifs
      · exact answers_refused plane (by simp)
      · exact answers_refused plane (by simp)
      · exact answers_done _
  | release id force =>
    simp only [step, release]
    split
    · exact answers_done plane
    · split_ifs
      · exact answers_refused plane (by simp)
      · exact answers_refused plane (by simp)
      · exact answers_done _
  | wipe scope force =>
    simp only [step, wipe]
    split_ifs
    · exact wipe_loop_answers force _ plane
    · exact wipe_loop_answers force [] plane
    · exact answers_refused plane (by simp)
  | duplicate src dst =>
    simp only [step, duplicate]
    split
    · exact answers_refused plane (by simp)
    · rename_i source found
      split
      · exact answers_refused plane (by simp)
      · exact carve_answers (accounted.resident_positive found) dst 0
  | protect | acquireLeases | freeTransient =>
    simp only [step, protect, acquireLeases, freeTransient]
    split
    · exact answers_refused plane (by simp)
    · exact answers_done _
  | releaseLeases | rollbackCreated | connect => exact answers_done _
  | allocTransient | allocScratch =>
    simp only [step, allocTransient, allocScratch]
    split
    · rename_i none
      exact answers_capacity orderly none
    · exact answers_done _
  | releaseScratch | landing =>
    simp only [step, releaseScratch]
    split
    · exact answers_done plane
    · exact answers_done _
  | rts serial sendId destId nbytes overwrite eager raddr now =>
    exact answers_on_idle fun link _ =>
      handle_rts_answers orderly.1 link sendId destId overwrite eager raddr now
  | chunk serial sendId seq count =>
    apply answers_on_idle
    intro link _
    unfold beginChunk
    split
    · split_ifs
      · exact answers_done _
      · exact answers_done _
    · exact answers_done _
  | fill | landed | drained | eof | tick | drop => exact answers_on_link
  | done | probeDone => exact answers_on_idle fun _ _ => answers_done _
  | commit index =>
    simp only [step]
    split
    · exact answers_done plane
    unfold adoptInbound
    split
    · exact answers_done _
    · split_ifs
      · exact answers_refused plane (by simp)
      · exact answers_done _
  | probeReq serial nbytes =>
    apply answers_on_idle
    intro link _
    unfold probeReq
    split
    · rename_i none
      exact answers_capacity orderly.1 none
    · exact answers_done _

theorem Accounted.honest (accounted : Accounted capacity plane) {request : Request}
    (orderly : plane.Orderly request) : HonestCapacity capacity plane request := by
  intro size refused start low high
  obtain ⟨positive, none⟩ := step_answers accounted orderly size refused
  obtain ⟨byte, above, below, covered⟩ := accounted.sound.refused positive none start low high
  obtain ⟨extent, listed, inside⟩ := countP_pos_iff.mp covered
  obtain ⟨holding, mem, rfl⟩ := mem_map.mp listed
  exact ⟨byte, above, below, holding, accounted.owned_held ▸ mem, by simpa using inside⟩

/-! ### every history -/

theorem run_accounted (peerName : String) (inactivity : ℚ) (positive : 0 < capacity)
    {requests : List Request} (orderly : Meets Orderly (boot peerName inactivity capacity) requests) :
    Accounted capacity ((boot peerName inactivity capacity).run requests) := by
  exact run_keeps (fun _ _ => keeps_accounted.step) requests
    (boot_accounted peerName inactivity positive) orderly

/-- Two objects and a transfer that commits over one of them. -/
def smallHistory : List Request :=
  [.put "a" 4096, .put "b" 5000, .connect "peer", .rts 0 "s1" "a" 4096 true none false 0,
    .chunk 0 "s1" 0 4096, .fill 0 4096, .landed 0 0, .done 0 "s1" true 0, .commit 0, .landing 0]

/-- Used bytes are the aligned sizes of what is owned; without owners the slab is free. -/
def Conserved (capacity : Int) (plane : Plane) : Prop :=
  plane.allocator.usedBytes = (plane.owned.map fun holding => alignedSize holding.sizeBytes).sum ∧
    (∀ holding ∈ plane.owned, holding.extent.size = alignedSize holding.sizeBytes) ∧
    (plane.objects = [] → (∀ link ∈ plane.links, link.alive = false) → plane.transients = [] →
      plane.scratch = [] → plane.allocator.free = [⟨0, capacity⟩])

theorem Accounted.conserved (accounted : Accounted capacity plane) : Conserved capacity plane := by
  have sound := accounted.sound
  refine ⟨accounted.owned_held ▸ sound.used, accounted.owned_held ▸ sound.aligned, ?_⟩
  intro objects dead transients scratch
  -- a queued commit is backed by a live link
  have commits : plane.commits = [] := by
    apply eq_nil_iff_forall_not_mem.mpr
    intro commit mem
    obtain ⟨link, listed, alive, _⟩ := accounted.backed commit.key
      (mem_append_left _ (mem_map_of_mem mem))
    exact absurd (alive.symm.trans (dead link listed)) Bool.noConfusion
  have links : plane.links.filter Link.alive = [] :=
    filter_eq_nil_iff.mpr fun link mem => by simp [dead link mem]
  have nothing : plane.held = [] := by
    rw [← accounted.owned_held, owned, objects, links, commits, transients, scratch]
    rfl
  exact (nothing ▸ sound).all_free

theorem slab_conserved (peerName : String) (inactivity : ℚ) (capacity : Int) (positive : 0 < capacity)
    (requests : List Request) (orderly : Meets Orderly (boot peerName inactivity capacity) requests) :
    Conserved capacity ((boot peerName inactivity capacity).run requests) :=
  (run_accounted peerName inactivity positive orderly).conserved

/-- The objects are released, the probe is answered and the link is dropped. -/
theorem slab_conserved_small : Conserved 16384 ((boot "me" 30 16384).run (smallHistory ++
    [.probeReq 0 4096, .probeDone 0, .release "a" false, .release "b" false, .drop 0])) :=
  slab_conserved "me" 30 16384 (by decide) _ (by decide +kernel)

/-- A link that is dropped between the request of a probe and its end keeps the extent for good,
and so does a second request before the first one is done. -/
theorem dropped_probe_leaks :
    ¬Conserved 8192 ((boot "me" 30 8192).run [.connect "peer", .probeReq 0 4096, .drop 0]) ∧
      ¬Conserved 16384 ((boot "me" 30 16384).run
        [.connect "peer", .probeReq 0 4096, .probeReq 0 4096, .probeDone 0, .drop 0]) := by
  refine ⟨?_, ?_⟩ <;>
  · rintro ⟨used, -⟩
    revert used
    decide +kernel

end Plane

end Dataflow.SlabPlane
