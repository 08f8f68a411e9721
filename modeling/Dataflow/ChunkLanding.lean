import Dataflow.SlabSafety

/-!
A chunk lands in its reservation. The reader takes the view of the chunk under the lock
and fills it by partial reads outside of it, while housekeeping, other threads and the
dispatcher go on. What it writes stays in the reservation if no tick times the transfer
out and no other thread drops the link before the chunk is in.
-/

namespace Dataflow.SlabPlane

open ByteRanges Service KeyedTable List

namespace Plane

variable {capacity : Int} {plane next : Plane} {link other : Link} {machine : Receiver}

/-- The link, the transfer and the bytes that a step of the reader writes. -/
def written (plane : Plane) : Request → Option (Link × String × Range)
  | .fill serial count =>
    match plane.link serial with
    | none => none
    | some link =>
      match link.reader with
      | .filling sendId _ view gotTotal =>
        if (gotTotal + count : Int) ≤ view.size then
          some (link, sendId, ⟨view.offset + gotTotal, count⟩)
        else none
      | _ => none
  | _ => none

/-- Every byte that is written belongs to the reservation of the transfer, on a live link; it
is not free and nobody else owns it. -/
def LandsInside (plane : Plane) (request : Request) : Prop :=
  ∀ link sendId range, plane.written request = some (link, sendId, range) →
    link.alive = true ∧ ∃ machine ∈ receiver link sendId, machine.committing = false ∧
      ∀ byte, range.Contains byte → machine.extent.Contains byte ∧
        cover plane.allocator.free byte = 0 ∧ cover (plane.owned.map Holding.extent) byte = 1

def fillingSend (link : Link) : Option String :=
  match link.reader with
  | .filling sendId _ _ _ => some sendId
  | _ => none

/-- A transfer whose chunk is being read is not timed out, and its link not dropped from outside. -/
def Steady (plane : Plane) : Request → Prop
  | .tick serial now => ∀ link ∈ plane.link serial, ∀ sendId ∈ fillingSend link,
      ∀ machine ∈ receiver link sendId, plane.timedOut machine now = false
  | .drop serial => ∀ link ∈ plane.link serial, fillingSend link = none
  | .connect peer => ¬plane.peerName < peer →
      ∀ link ∈ plane.liveLink peer, fillingSend link = none
  | _ => True

instance (plane : Plane) : DecidablePred plane.Steady := fun request => by
  apply @Request.casesOn (Decidable <| plane.Steady ·) request <;> intros <;> dsimp only [Steady] <;>
    infer_instance

/-- The transfer that a chunk belongs to, with the chunk's view inside its extent. -/
def Awaits (link : Link) (sendId : String) (view : Range) : Prop :=
  link.alive = true ∧ ∃ machine ∈ link.receivers, machine.sendId = sendId ∧
    machine.committing = false ∧ machine.extent.offset ≤ view.offset ∧
      view.offset + view.size ≤ machine.extent.offset + machine.extent.size

structure Landing (link : Link) : Prop where
  received : ∀ machine ∈ link.receivers, 0 ≤ machine.received
  awaits : ∀ sendId seq view gotTotal, link.reader = .filling sendId seq view gotTotal →
    Awaits link sendId view

/-- Every chunk that is being read has its place. -/
def Landed (plane : Plane) : Prop := ∀ link ∈ plane.links, Landing link

theorem landing_idle (link : Link) (idle : fillingSend link = none)
    (received : ∀ machine ∈ link.receivers, 0 ≤ machine.received) : Landing link where
  received := received
  awaits := by
    intro sendId seq view gotTotal reading
    rw [fillingSend, reading] at idle
    cases idle

theorem put_link_landing (landing : plane.Landed) (new : Landing link)
    (allocator : SlabAllocator) :
    (putLink { plane with allocator := allocator } link).Landed := by
  intro entry mem
  rcases mem_update mem with rfl | ⟨old, _⟩
  · exact new
  · exact landing entry old

theorem machine_held (there : link ∈ plane.links) (mem : machine ∈ link.receivers)
    (waiting : machine.committing = false) : ⟨machine.expectBytes, machine.extent⟩ ∈ plane.held := by
  have inLink : (⟨machine.expectBytes, machine.extent⟩ : Holding) ∈ heldByLink link :=
    mem_append_left _ (mem_map.mpr ⟨machine, mem_filter.mpr
      ⟨mem, by simp [waiting]⟩, rfl⟩)
  exact mem_append_right _ (mem_append_left _ (mem_flatMap.mpr ⟨link, there, inLink⟩))

theorem Accounted.room (accounted : Accounted capacity plane) (there : link ∈ plane.links)
    (mem : machine ∈ link.receivers) (waiting : machine.committing = false) :
    machine.expectBytes ≤ machine.extent.size := by
  have aligned := accounted.sound.aligned _ (machine_held there mem waiting)
  have bound := le_aligned_size machine.expectBytes
  simp only at aligned
  omega

theorem reader_landing (accounted : Accounted capacity plane)
    (landing : plane.Landed) {serial : Nat}
    (found : plane.link serial = some link) {reader : Reader} (reads : Reads link reader) :
    (plane.putLink { link with reader := reader }).Landed := by
  have listed := lookup_mem found
  have here := landing link listed
  apply put_link_landing landing _ plane.allocator
  refine ⟨here.received, ?_⟩
  intro sendId seq view gotTotal reading
  rcases reads sendId seq view gotTotal reading with
    ⟨before, already⟩ | ⟨machine, there, waiting, starts, room⟩
  · exact here.awaits _ _ _ _ already
  have mem := lookup_mem there
  have bound := accounted.room listed mem waiting
  have nonneg := here.received machine mem
  have live := accounted.live found mem
  exact ⟨live, machine, mem, lookup_key there, waiting, by omega, by omega⟩

section

variable (landing : plane.Landed)
include landing

theorem carve_landing {id : String} {size : Int} {version : Nat} :
    (plane.carve id size version).plane.Landed := by
  unfold carve
  split
  · exact landing
  · exact landing

/-! ### the other threads -/

theorem tick_landing
    (there : link ∈ plane.links) (sends : (link.receivers.map Receiver.sendId).Nodup) (now : ℚ)
    (steady : ∀ sendId ∈ fillingSend link, ∀ machine ∈ receiver link sendId,
      plane.timedOut machine now = false) :
    (plane.tick link now).Landed := by
  have here := landing link there
  apply put_link_landing landing
  refine ⟨fun machine mem => here.received machine (mem_of_mem_filter mem), ?_⟩
  intro sendId seq view gotTotal reading
  obtain ⟨live, machine, mem, key, waiting, inside⟩ := here.awaits sendId seq view gotTotal reading
  refine ⟨live, machine, mem_filter.mpr ⟨mem, ?_⟩, key, waiting, inside⟩
  rw [steady sendId (by rw [fillingSend, show link.reader = _ from reading]; rfl) machine
    (key ▸ lookup_of_mem sends mem)]
  rfl

theorem drop_link_landing
    (steady : fillingSend link = none) : (plane.dropLink link).Landed := by
  unfold dropLink
  split_ifs
  · apply put_link_landing landing
    refine ⟨forall_mem_nil _, ?_⟩
    intro sendId seq view gotTotal reading
    rw [fillingSend, show link.reader = _ from reading] at steady
    cases steady
  · exact landing

theorem adopt_link_landing (peer : String) :
    ∀ entry ∈ plane.links ++ [{ serial := plane.nextLink, peer := peer }], Landing entry := by
  refine forall_mem_concat landing ⟨forall_mem_nil _, ?_⟩
  intro sendId seq view gotTotal reading
  cases reading

end

/-- A callback takes a machine that is committing, never the one whose chunk is being read. -/
theorem commit_landed_landing (accounted : Accounted capacity plane)
    (landing : plane.Landed) {index : Nat} {key : String × String}
    (queued : plane.landings[index]? = some key) :
    (plane.commitLanded index key).Landed := by
  unfold commitLanded
  split
  · exact landing
  rename_i link found
  obtain ⟨there, live, peer⟩ := live_link accounted found
  have here := landing link (lookup_mem there)
  apply put_link_landing landing _ plane.allocator
  refine ⟨fun machine mem => here.received machine (mem_of_mem_filter mem), ?_⟩
  intro sendId seq view gotTotal reading
  obtain ⟨_, machine, mem, same, waiting, inside⟩ := here.awaits sendId seq view gotTotal reading
  refine ⟨live, machine, mem_remove_other mem ?_, same, waiting, inside⟩
  intro clash
  obtain ⟨other, listed, alive, samePeer, marked, inOther, id, committing⟩ := accounted.backed key
    (mem_append_right _ (mem_of_getElem? queued))
  obtain rfl := accounted.linked.alone other listed link (lookup_mem there) alive live
    (samePeer.trans peer.symm)
  have twice := lookup_of_mem (accounted.sends there) inOther
  rw [id, ← clash, lookup_of_mem (accounted.sends there) mem] at twice
  rw [Option.some.inj twice, committing] at waiting
  cases waiting

theorem settle_landing (landing : plane.Landed) (there : link ∈ plane.links)
    (idle : link.reader = .idle) (mem : machine ∈ link.receivers) :
    (plane.abortReceiver link machine).Landed ∧
      ∀ now, (plane.finishCommit link machine now).Landed := by
  have here := landing link there
  have still : ∀ receivers : List Receiver, (∀ machine ∈ receivers, 0 ≤ machine.received) →
      Landing { link with receivers := receivers } :=
    fun receivers => landing_idle { link with receivers := receivers } (by simp only [fillingSend, idle])
  refine ⟨put_link_landing landing (still _ ?_) _,
    fun now => put_link_landing landing (still _ ?_) plane.allocator⟩
  · exact fun entry listed => here.received entry (mem_of_mem_filter listed)
  · exact forall_mem_write here.received (here.received machine mem)

section

variable (landing : plane.Landed)
include landing

/-! ### every interleaving -/

theorem on_idle_landing {step : Link → Reply} {serial : Nat}
    (each : ∀ link ∈ plane.link serial, fillingSend link = none → (step link).plane.Landed) :
    (plane.onIdle serial step).plane.Landed :=
  on_idle_keeps landing fun link found idle => each link found (by rw [fillingSend, idle])

end

/-- The verbs of the store, transients and scratch leave the links alone. -/
theorem keeps_landing : Kept (fun plane request => Accounted capacity plane ∧
    plane.Orderly request ∧ plane.Steady request) Landed where
  object landing _ _ _ := landing
  drop landing _ := landing
  peak _ landing := landing
  put landing _ _ := carve_landing landing
  duplicate landing _ _ _ := carve_landing landing
  reader landing allowed found reader reads := reader_landing allowed.1 landing found reads
  stale _ _ found _ there freed := (settle_landing freed (mem_write (link_serial found ▸ found))
    rfl (lookup_mem there)).1
  advance landing found idle there count _ := by
    have here := (landing _ (lookup_mem found)).received
    refine put_link_landing landing (landing_idle _ (by simp only [fillingSend, idle]) ?_) _
    exact forall_mem_write here (Int.add_nonneg (here _ (lookup_mem there)) count.cast_nonneg)
  accept landing _ found idle _ _ _ none _ := by
    refine put_link_landing landing (landing_idle _ (by simp only [fillingSend, idle]) ?_) _
    exact forall_mem_concat (landing _ (lookup_mem found)).received none.ge
  lose allocator landing _ found _ := by
    refine put_link_landing landing (landing_idle _ rfl ?_) allocator
    exact (landing _ (lookup_mem found)).received
  done allowed := allowed.2.1
  settle landing found idle there _ :=
    settle_landing landing (lookup_mem found) idle (lookup_mem there)
  rest := by
    rintro plane request landing ⟨accounted, _, steady⟩ other
    cases request with
    | allocTransient | freeTransient | allocScratch | releaseScratch =>
      simp only [step, allocTransient, freeTransient, allocScratch, releaseScratch]
      split
      · exact landing
      · exact landing
    | commit index =>
      simp only [step, adoptInbound]
      split
      · exact landing
      · split
        · exact landing
        · split_ifs
          · exact landing
          · exact landing
    | eof serial =>
      apply on_link_keeps landing
      intro link found
      have here := landing link (lookup_mem found)
      have ended : Landing { link with reader := .dead } := landing_idle _ rfl here.received
      exact drop_link_landing (put_link_landing landing ended plane.allocator) rfl
    | tick serial now =>
      exact on_link_keeps landing fun link found =>
        tick_landing landing (lookup_mem found) (accounted.sends found) now
          (steady link found)
    | landing index =>
      simp only [step]
      split
      · exact landing
      · rename_i key queued
        exact commit_landed_landing accounted landing queued
    | connect peer =>
      show (plane.connect peer).Landed
      unfold connect
      split
      · exact adopt_link_landing landing peer
      · rename_i old found
        split_ifs with smaller
        · exact landing
        · exact adopt_link_landing (drop_link_landing landing (steady smaller old found)) peer
    | drop serial =>
      exact on_link_keeps landing fun link found =>
        drop_link_landing landing (steady link found)
    | probeReq serial nbytes =>
      apply on_idle_landing landing
      intro link found idle
      have here := landing link (lookup_mem found)
      unfold probeReq
      split
      · exact landing
      · rename_i extent allocator _
        exact put_link_landing landing
          (landing_idle { link with bwprobeExt := some ⟨nbytes, extent⟩ } idle here.received)
          allocator
    | probeDone serial =>
      apply on_idle_landing landing
      intro link found idle
      have here := landing link (lookup_mem found)
      unfold probeDone
      split
      · exact landing
      · exact put_link_landing landing
          (landing_idle { link with bwprobeExt := none } idle here.received) _
    | _ => cases other

theorem lands_inside (accounted : Accounted capacity plane)
    (landing : plane.Landed) (request : Request) :
    LandsInside plane request := by
  intro link sendId range wrote
  cases request with
  | fill serial count =>
    simp only [written] at wrote
    split at wrote
    · cases wrote
    rename_i found
    split at wrote
    · rename_i reading
      split_ifs at wrote with fits
      cases wrote
      have listed := lookup_mem found
      obtain ⟨live, machine, mem, key, waiting, starts, ends⟩ :=
        (landing link listed).awaits _ _ _ _ reading
      refine ⟨live, machine, key ▸ lookup_of_mem (accounted.sends found) mem, waiting, ?_⟩
      intro byte inside
      have contained : machine.extent.Contains byte := by
        simp only [Range.Contains] at inside ⊢
        omega
      rw [accounted.owned_held]
      exact ⟨contained, accounted.sound.covered (machine_held listed mem waiting) contained⟩
    · cases wrote
  | _ => cases wrote

theorem chunks_land_inside (peerName : String) (inactivity : ℚ) (capacity : Int)
    (positive : 0 < capacity) (requests : List Request)
    (met : Meets (fun plane request => plane.Orderly request ∧ plane.Steady request)
      (boot peerName inactivity capacity) requests) (request : Request) :
    LandsInside ((boot peerName inactivity capacity).run requests) request := by
  have kept : ∀ (plane : Plane) (request : Request),
      (Accounted capacity plane ∧ plane.Landed) →
      (plane.Orderly request ∧ plane.Steady request) →
      (Accounted capacity (plane.step request).plane ∧
        (plane.step request).plane.Landed) := by
    rintro plane request ⟨accounted, landing⟩ ⟨orderly, steady⟩
    exact ⟨keeps_accounted.step accounted orderly, keeps_landing.step landing ⟨accounted, orderly, steady⟩⟩
  obtain ⟨accounted, landing⟩ := run_keeps kept requests
    ⟨boot_accounted peerName inactivity positive, forall_mem_nil _⟩ met
  exact lands_inside accounted landing request

/-- Another object is put and another transfer times out while a chunk comes in. -/
def landingHistory : List Request :=
  [.connect "peer", .rts 0 "s1" "a" 8192 false none false 0, .rts 0 "s2" "b" 100 false none false (-20),
    .chunk 0 "s1" 0 8192, .fill 0 1000, .put "c" 4096, .tick 0 15]

theorem chunks_land_inside_small :
    LandsInside ((boot "me" 30 65536).run landingHistory) (.fill 0 7192) :=
  chunks_land_inside "me" 30 65536 (by decide) landingHistory (by decide +kernel) _

/-- A transfer that is timed out in the middle of a chunk loses its extent to the next object,
and the rest of the chunk is read into that. -/
theorem timed_out_chunk_overwrites : ¬LandsInside ((boot "me" 30 8192).run [.connect "peer",
      .rts 0 "s1" "a" 8192 false none false 0, .chunk 0 "s1" 0 8192, .fill 0 1000, .tick 0 30,
      .put "c" 8192]) (.fill 0 7192) := by
  intro lands
  obtain ⟨-, machine, there, -⟩ := lands
    { serial := 0, peer := "peer", reader := .filling "s1" 0 ⟨0, 8192⟩ 1000 } "s1" ⟨1000, 7192⟩
    (by decide +kernel)
  cases there

end Plane

end Dataflow.SlabPlane
