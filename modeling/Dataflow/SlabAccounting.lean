import Dataflow.SlabPlane

/-!
Every extent that is taken from the slab has one holder until it is returned. The
steps for which that fails are named by `Orderly`: sizes that are not positive, frames
that end a transfer whose commit is queued already, and links that are dropped with a
commit or a probe outstanding.
-/

namespace Dataflow.SlabPlane

open ByteRanges Service KeyedTable List

namespace Plane

variable {capacity : Int} {plane next : Plane} {link other : Link} {machine : Receiver} {holding : Holding}

/-! ### orderly steps -/

def Committing (plane : Plane) (serial : Nat) (sendId : String) : Prop :=
  ∃ link ∈ plane.link serial, ∃ machine ∈ receiver link sendId, machine.committing = true

/-- Nothing of the link is on its way to the catalog or lent to a probe. -/
def Quiet (link : Link) : Prop :=
  (∀ machine ∈ link.receivers, machine.committing = false) ∧ link.bwprobeExt = none

def readerSend (link : Link) : Option String :=
  match link.reader with
  | .filling sendId _ _ _ => some sendId
  | .draining sendId _ => some sendId
  | _ => none

def Orderly (plane : Plane) : Request → Prop
  | .put _ sizeBytes => 0 < sizeBytes
  | .allocTransient _ sizeBytes => 0 < sizeBytes
  | .allocScratch nbytes => 0 < nbytes
  | .rts serial _ _ nbytes _ eager _ _ =>
    0 < nbytes ∧ (∀ count ∈ eager, (count : Int) = nbytes) ∧
      ∀ link ∈ plane.link serial, link.alive = true
  | .landed serial _ | .drained serial _ =>
    ∀ link ∈ plane.link serial, ∀ sendId ∈ readerSend link, ¬Committing plane serial sendId
  | .done serial sendId _ _ => ¬Committing plane serial sendId
  | .eof serial | .drop serial => ∀ link ∈ plane.link serial, link.alive = true → Quiet link
  | .connect peer => ¬plane.peerName < peer → ∀ link ∈ plane.liveLink peer, Quiet link
  | .probeReq serial nbytes =>
    0 < nbytes ∧ ∀ link ∈ plane.link serial, link.alive = true ∧ link.bwprobeExt = none
  | _ => True

instance (plane : Plane) (serial : Nat) (sendId : String) :
    Decidable (Committing plane serial sendId) :=
  inferInstanceAs (Decidable (∃ link ∈ plane.link serial, ∃ machine ∈ receiver link sendId,
    machine.committing = true))

instance (link : Link) : Decidable (Quiet link) := inferInstanceAs (Decidable (_ ∧ _))

instance (plane : Plane) : DecidablePred plane.Orderly := fun request => by
  cases request <;> dsimp only [Orderly] <;> infer_instance

/-! ### the invariant -/

/-- A live link still has the machine of the transfer, marked as committing. -/
def Backed (links : List Link) (key : String × String) : Prop :=
  ∃ link ∈ links, link.alive = true ∧ link.peer = key.1 ∧
    ∃ machine ∈ link.receivers, machine.sendId = key.2 ∧ machine.committing = true

structure Linked (links : List Link) (nextLink : Nat) : Prop where
  serials : (links.map Link.serial).Nodup
  fresh : ∀ link ∈ links, link.serial < nextLink
  alone : ∀ link ∈ links, ∀ other ∈ links,
    link.alive = true → other.alive = true → link.peer = other.peer → link = other
  dead : ∀ link ∈ links, link.alive = false → link.receivers = [] ∧ link.bwprobeExt = none
  sends : ∀ link ∈ links, (link.receivers.map Receiver.sendId).Nodup

structure Accounted (capacity : Int) (plane : Plane) : Prop where
  sound : Sound capacity plane.allocator plane.held
  ids : (plane.objects.map Resident.id).Nodup
  linked : Linked plane.links plane.nextLink
  tokens : (plane.transients.map Transient.token).Nodup
  placed : ∀ transient ∈ plane.transients, transient.token.offset = transient.holding.extent.offset
  handles : (plane.scratch.map Scratch.handle).Nodup
  issued : ∀ scratch ∈ plane.scratch, scratch.handle < plane.nextScratch
  keys : (plane.commits.map Commit.key ++ plane.landings).Nodup
  backed : ∀ key ∈ plane.commits.map Commit.key ++ plane.landings, Backed plane.links key

theorem boot_accounted (peerName : String) (inactivity : ℚ)
    (positive : 0 < capacity) : Accounted capacity (boot peerName inactivity capacity) where
  sound := Sound.boot positive
  ids := nodup_nil
  linked := by constructor <;> simp [boot]
  tokens := nodup_nil
  placed := by simp [boot]
  handles := nodup_nil
  issued := by simp [boot]
  keys := nodup_nil
  backed := by simp [boot]

/-! ### the verbs of the store -/

section Store

variable {id : String} {record : Resident} {size : Int}

def heldByObjects (objects : List Resident) : List Holding :=
  objects.map fun record => ⟨record.sizeBytes, record.extent⟩

def heldElsewhere (plane : Plane) : List Holding :=
  plane.links.flatMap heldByLink ++
    (plane.commits.map (fun commit => ⟨commit.sizeBytes, commit.extent⟩) ++
      (plane.transients.map Transient.holding ++ plane.scratch.map Scratch.holding))

theorem held_objects (plane : Plane) :
    plane.held = heldByObjects plane.objects ++ plane.heldElsewhere := rfl

section

variable (accounted : Accounted capacity plane)
include accounted

theorem carve_accounted (positive : 0 < size) (absent : plane.object id = none) (version : Nat) :
    Accounted capacity (plane.carve id size version).plane := by
  unfold carve
  split
  · exact accounted
  rename_i extent allocator found
  refine { accounted with sound := ?sound, ids := ?ids }
  case sound =>
    apply (accounted.sound.alloc positive found).perm
    rw [held_objects, held_objects]
    rw [heldByObjects, heldByObjects, map_append, append_assoc]
    exact perm_middle.symm
  case ids =>
    exact keys_append_nodup accounted.ids (lookup_none.mp absent)

theorem update_object_accounted (id : String)
    (change : Resident → Resident) (keeps : ∀ record, (change record).id = record.id ∧
      (change record).sizeBytes = record.sizeBytes ∧ (change record).extent = record.extent) :
    Accounted capacity (plane.updateObject id change) := by
  have same : heldByObjects (KeyedTable.update Resident.id id change plane.objects) =
      heldByObjects plane.objects := by
    rw [heldByObjects, heldByObjects, KeyedTable.update, map_map]
    apply map_congr_left
    intro record _
    simp only [Function.comp_apply]
    split_ifs
    · rw [(keeps record).2.1, (keeps record).2.2]
    · rfl
  refine { accounted with sound := ?sound, ids := ?ids }
  case sound =>
    show Sound capacity plane.allocator (heldByObjects (KeyedTable.update _ _ _ _) ++ plane.heldElsewhere)
    rw [same]
    exact accounted.sound
  case ids =>
    show ((KeyedTable.update Resident.id id change plane.objects).map Resident.id).Nodup
    rw [keys_update fun record => (keeps record).1]
    exact accounted.ids

theorem drop_record_accounted (found : plane.object id = some record) :
    Accounted capacity (plane.dropRecord record) := by
  have key := lookup_key found
  have order := perm_remove accounted.ids (key ▸ found)
  have front : plane.held.Perm (⟨record.sizeBytes, record.extent⟩ ::
      (plane.dropRecord record).held) := (order.map _).append_right _
  exact { accounted with
    sound := (accounted.sound.perm front).release, ids := keys_remove_nodup accounted.ids }

end

theorem requested_positive (filled : 0 < alignedSize size) : 0 < size := by
  have floor := Int.fdiv_eq_ediv_of_nonneg (-size) (b := align) (by decide)
  rw [alignedSize, floor, align] at filled
  omega

theorem Accounted.resident_positive (accounted : Accounted capacity plane)
    (found : plane.object id = some record) : 0 < record.sizeBytes := by
  have listed : (⟨record.sizeBytes, record.extent⟩ : Holding) ∈ plane.held :=
    mem_append_left _ (mem_map_of_mem (lookup_mem found))
  apply requested_positive
  rw [← accounted.sound.aligned _ listed]
  exact accounted.sound.filled _ listed

theorem alloc_elsewhere {allocator : SlabAllocator} {extent : Extent} (sound : Sound capacity plane.allocator plane.held)
    (positive : 0 < size) (found : plane.allocator.alloc size = some (extent, allocator))
    (mem : holding ∈ plane.held) : extent.offset ≠ holding.extent.offset := by
  have taken := sound.alloc positive found
  have apart := taken.disjoint mem
  have size := taken.filled _ mem_cons_self
  have other := sound.filled holding mem
  simp only [Before] at apart size
  omega

section

variable (accounted : Accounted capacity plane)
include accounted

theorem alloc_transient_accounted (owner : String)
    (positive : 0 < size) : Accounted capacity (plane.allocTransient owner size).plane := by
  unfold allocTransient
  split
  · exact accounted
  rename_i extent allocator found
  have unused : (⟨plane.transients.length, owner, extent.offset⟩ : Token) ∉
      plane.transients.map Transient.token := by
    intro listed
    obtain ⟨transient, mem, same⟩ := mem_map.mp listed
    have inHeld : transient.holding ∈ plane.held := by
      simp only [held, mem_append]
      exact .inr (.inr (.inr (.inl (mem_map_of_mem mem))))
    apply alloc_elsewhere accounted.sound positive found inHeld
    rw [← accounted.placed transient mem, same]
  simp only [remove_unlisted unused]
  refine { accounted with
    sound := (accounted.sound.alloc positive found).perm (perm_iff_count.mpr fun holding => ?_)
    tokens := keys_append_nodup accounted.tokens fun _ mem same =>
      unused (mem_map.mpr ⟨_, mem, same⟩)
    placed := forall_mem_concat accounted.placed rfl }
  simp only [held, map_append, map_cons, map_nil, count_append, count_cons, count_nil]
  omega

theorem free_transient_accounted (token : Token) :
    Accounted capacity (plane.freeTransient token).plane := by
  unfold freeTransient
  split
  · exact accounted
  rename_i freed found
  refine { accounted with
    sound := (accounted.sound.perm (perm_iff_count.mpr fun holding => ?_)).release
    tokens := keys_remove_nodup accounted.tokens
    placed := fun transient mem => accounted.placed transient (mem_of_mem_filter mem) }
  have count := ((perm_remove accounted.tokens found).map Transient.holding).count_eq holding
  simp only [held, map_cons, count_append, count_cons] at count ⊢
  omega

theorem alloc_scratch_accounted (positive : 0 < size) :
    Accounted capacity (plane.allocScratch size).plane := by
  unfold allocScratch
  split
  · exact accounted
  rename_i extent allocator found
  refine { accounted with
    sound := (accounted.sound.alloc positive found).perm (perm_iff_count.mpr fun holding => ?_)
    handles := keys_append_nodup accounted.handles fun scratch mem =>
      Nat.ne_of_lt (accounted.issued scratch mem)
    issued := forall_mem_concat
      (fun scratch old => Nat.lt_succ_of_lt (accounted.issued scratch old)) (Nat.lt_succ_self _) }
  simp only [held, map_append, map_cons, map_nil, count_append, count_cons, count_nil]
  omega

theorem release_scratch_accounted (handle : Nat) :
    Accounted capacity (plane.releaseScratch handle).plane := by
  unfold releaseScratch
  split
  · exact accounted
  rename_i freed found
  refine { accounted with
    sound := (accounted.sound.perm (perm_iff_count.mpr fun holding => ?_)).release
    handles := keys_remove_nodup accounted.handles
    issued := fun scratch mem => accounted.issued scratch (mem_of_mem_filter mem) }
  have count := ((perm_remove accounted.handles found).map Scratch.holding).count_eq holding
  simp only [held, map_cons, count_append, count_cons] at count ⊢
  omega

end

end Store

/-! ### one link at a time -/

section Links

variable {serial : Nat} {allocator : SlabAllocator} {key : String × String}

def heldBesides (plane : Plane) (serial : Nat) : List Holding :=
  heldByObjects plane.objects ++
    ((KeyedTable.remove Link.serial serial plane.links).flatMap heldByLink ++
      (plane.commits.map (fun commit => ⟨commit.sizeBytes, commit.extent⟩) ++
        (plane.transients.map Transient.holding ++ plane.scratch.map Scratch.holding)))

theorem moved_front {before first rest objects others : List Holding}
    (order : before.Perm (first ++ rest)) :
    (objects ++ (before ++ others)).Perm (first ++ (objects ++ (rest ++ others))) := by
  have whole := order.append_right others
  rw [append_assoc] at whole
  exact (whole.append_left objects).trans (perm_append_comm_assoc ..)

theorem held_link (accounted : Accounted capacity plane) (found : plane.link serial = some link) :
    plane.held.Perm (heldByLink link ++ plane.heldBesides serial) := by
  have order := (perm_remove accounted.linked.serials found).flatMap_right heldByLink
  exact moved_front order

theorem put_link_held (accounted : Accounted capacity plane) (link : Link)
    (found : plane.link link.serial = some other) :
    (plane.putLink link).held.Perm (heldByLink link ++ plane.heldBesides link.serial) := by
  have order := (update_perm link accounted.linked.serials found).flatMap_right heldByLink
  exact moved_front order

theorem Linked.update {links : List Link} {nextLink : Nat} (linked : Linked links nextLink)
    (link : Link) (found : KeyedTable.lookup Link.serial link.serial links = some other)
    (peer : link.peer = other.peer) (alive : link.alive = true → other.alive = true)
    (dead : link.alive = false → link.receivers = [] ∧ link.bwprobeExt = none)
    (sends : (link.receivers.map Receiver.sendId).Nodup) :
    Linked (KeyedTable.update Link.serial link.serial (fun _ => link) links) nextLink := by
  have mem := lookup_mem found
  have serial := lookup_key found
  -- a live entry besides the written one cannot have the peer of the one that was there
  have unlike : ∀ entry ∈ links, entry.serial ≠ link.serial → link.alive = true →
      entry.alive = true → link.peer ≠ entry.peer := by
    intro entry listed ne live other same
    exact ne (linked.alone _ mem entry listed (alive live) other (peer ▸ same) ▸ serial)
  refine ⟨keys_write_nodup rfl linked.serials,
    forall_mem_write linked.fresh (serial ▸ linked.fresh _ mem), ?alone,
    forall_mem_write linked.dead dead, forall_mem_write linked.sends sends⟩
  intro first listed second alsoListed live alsoLive same
  rcases mem_update listed with rfl | ⟨old, ne⟩ <;>
    rcases mem_update alsoListed with rfl | ⟨alsoOld, alsoDifferent⟩
  · rfl
  · exact absurd same (unlike second alsoOld alsoDifferent live alsoLive)
  · exact absurd same.symm (unlike first old ne alsoLive live)
  · exact linked.alone first old second alsoOld live alsoLive same

theorem Backed.update {links : List Link} (backed : Backed links key) (link : Link)
    (serials : (links.map Link.serial).Nodup)
    (found : KeyedTable.lookup Link.serial link.serial links = some other)
    (kept : other.alive = true → other.peer = key.1 → ∀ machine ∈ other.receivers,
      machine.sendId = key.2 → machine.committing = true →
        Backed (KeyedTable.update Link.serial link.serial (fun _ => link) links) key) :
    Backed (KeyedTable.update Link.serial link.serial (fun _ => link) links) key := by
  obtain ⟨entry, listed, live, peer, machine, mem, sendId, committing⟩ := backed
  by_cases hit : entry.serial = link.serial
  · rw [lookup_unique serials found listed hit] at live peer mem
    exact kept live peer machine mem sendId committing
  · exact ⟨entry, mem_update_other listed hit, live, peer, machine, mem, sendId, committing⟩

section

variable (accounted : Accounted capacity plane)
include accounted

theorem Accounted.put_link (link : Link) (allocator : SlabAllocator)
    (found : plane.link link.serial = some other) (peer : link.peer = other.peer)
    (alive : link.alive = other.alive)
    (dead : link.alive = false → link.receivers = [] ∧ link.bwprobeExt = none)
    (sends : (link.receivers.map Receiver.sendId).Nodup)
    (kept : ∀ machine ∈ other.receivers, machine.committing = true →
      ∃ after ∈ link.receivers, after.sendId = machine.sendId ∧ after.committing = true)
    (sound : Sound capacity allocator (heldByLink link ++ plane.heldBesides link.serial)) :
    Accounted capacity (putLink { plane with allocator := allocator } link) := by
  refine { accounted with
    sound := sound.perm (put_link_held accounted link found).symm
    linked := accounted.linked.update link found peer (fun live => alive ▸ live) dead sends
    backed := fun key listed => ?_ }
  apply (accounted.backed key listed).update link accounted.linked.serials found
  intro live same machine mem sendId committing
  obtain ⟨after, inNew, sameId, still⟩ := kept machine mem committing
  exact ⟨link, mem_write found, alive.trans live, peer.trans same, after, inNew,
    sameId.trans sendId, still⟩

section

variable (found : plane.link serial = some link)
include found

theorem Accounted.dead_link
    (ended : link.alive = false) : link.receivers = [] ∧ link.bwprobeExt = none :=
  accounted.linked.dead link (lookup_mem found) ended

theorem Accounted.sends : (link.receivers.map Receiver.sendId).Nodup :=
  accounted.linked.sends link (lookup_mem found)

end

end

theorem link_serial (found : plane.link serial = some link) : link.serial = serial :=
  lookup_key found

theorem put_reader_accounted (accounted : Accounted capacity plane) (found : plane.link serial = some link)
    (reader : Reader) : Accounted capacity (plane.putLink { link with reader := reader }) := by
  obtain rfl := link_serial found
  have dead := accounted.dead_link found
  have sends := accounted.sends found
  have sound := accounted.sound.perm (held_link accounted found)
  exact accounted.put_link { link with reader := reader } plane.allocator found rfl rfl dead sends
    (fun machine mem committing => ⟨machine, mem, rfl, committing⟩) sound

/-! ### machines of a link -/

def heldByMachines (machines : List Receiver) : List Holding :=
  (machines.filter fun machine => !machine.committing).map fun machine =>
    ⟨machine.expectBytes, machine.extent⟩

theorem held_by_link (link : Link) :
    heldByLink link = heldByMachines link.receivers ++ link.bwprobeExt.toList := rfl

theorem held_by_machines_perm {machines others : List Receiver} (order : machines.Perm others) :
    (heldByMachines machines).Perm (heldByMachines others) :=
  (order.filter _).map _

theorem held_by_machines_cons (machine : Receiver) (machines : List Receiver) :
    heldByMachines (machine :: machines) =
      (if machine.committing then [] else [⟨machine.expectBytes, machine.extent⟩]) ++
        heldByMachines machines := by
  cases committing : machine.committing <;> simp [heldByMachines, committing]

section

variable (accounted : Accounted capacity plane)
include accounted

section

variable (found : plane.link serial = some link)
include found

variable {sendId : String}

theorem receiver_sound (there : receiver link sendId = some machine) :
    Sound capacity plane.allocator ((if machine.committing then [] else
        [⟨machine.expectBytes, machine.extent⟩]) ++
      (heldByMachines (KeyedTable.remove Receiver.sendId sendId link.receivers) ++
        (link.bwprobeExt.toList ++ plane.heldBesides serial))) := by
  apply accounted.sound.perm
  apply (held_link accounted found).trans
  have order := held_by_machines_perm (perm_remove (accounted.sends found) there)
  rw [held_by_machines_cons] at order
  simpa only [held_by_link, append_assoc] using order.append_right _

theorem Accounted.live (mem : machine ∈ link.receivers) : link.alive = true := by
  by_contra ended
  rw [Bool.not_eq_true] at ended
  rw [(accounted.dead_link found ended).1] at mem
  cases mem

theorem abort_receiver_accounted
    (there : receiver link sendId = some machine) (waiting : machine.committing = false) :
    Accounted capacity (plane.abortReceiver link machine) := by
  obtain rfl := link_serial found
  have sound := receiver_sound accounted found there
  rw [waiting] at sound
  obtain rfl := lookup_key there
  have live := accounted.live found (lookup_mem there)
  refine accounted.put_link { link with
    receivers := KeyedTable.remove Receiver.sendId machine.sendId link.receivers } _ found rfl rfl
    (by simp [live])
    (keys_remove_nodup (accounted.sends found)) ?kept ?sound
  case kept =>
    intro other mem committing
    refine ⟨other, mem_remove_other mem ?_, rfl, committing⟩
    intro same
    rw [lookup_unique (accounted.sends found) there mem same, waiting] at committing
    cases committing
  case sound =>
    rw [held_by_link, append_assoc]
    exact sound.release

theorem advance_accounted (there : receiver link sendId = some machine) (after : Receiver)
    (key : after.sendId = sendId) (size : after.expectBytes = machine.expectBytes)
    (extent : after.extent = machine.extent) (still : after.committing = machine.committing) :
    Accounted capacity (plane.putLink { link with
      receivers := KeyedTable.update Receiver.sendId sendId (fun _ => after) link.receivers }) := by
  obtain rfl := link_serial found
  have sound := receiver_sound accounted found there
  have live := accounted.live found (lookup_mem there)
  refine accounted.put_link { link with
    receivers := KeyedTable.update Receiver.sendId sendId (fun _ => after) link.receivers }
    plane.allocator found rfl rfl
    (by simp [live]) ?sends ?kept ?sound
  case sends => exact keys_write_nodup key (accounted.sends found)
  case kept =>
    intro other mem committing
    by_cases hit : other.sendId = sendId
    · refine ⟨after, mem_write there, key.trans hit.symm, ?_⟩
      rw [still, ← lookup_unique (accounted.sends found) there mem hit, committing]
    · exact ⟨other, mem_update_other mem hit, rfl, committing⟩
  case sound =>
    apply sound.perm
    have order := held_by_machines_perm (update_perm after (accounted.sends found) there)
    rw [held_by_machines_cons, still, size, extent] at order
    simpa only [held_by_link, append_assoc] using order.symm.append_right _

theorem Accounted.unqueued (there : receiver link sendId = some machine)
    (waiting : machine.committing = false) :
    (link.peer, sendId) ∉ plane.commits.map Commit.key ++ plane.landings := by
  intro listed
  obtain ⟨other, mem, alive, peer, marked, inOther, same, committing⟩ := accounted.backed _ listed
  have live := accounted.live found (lookup_mem there)
  obtain rfl := accounted.linked.alone link (lookup_mem found) other mem live alive peer.symm
  rw [lookup_unique (accounted.sends found) there inOther same, waiting] at committing
  cases committing

theorem finish_commit_accounted
    (there : receiver link sendId = some machine) (waiting : machine.committing = false) (now : ℚ) :
    Accounted capacity (plane.finishCommit link machine now) := by
  obtain rfl := link_serial found
  obtain rfl := lookup_key there
  have live := accounted.live found (lookup_mem there)
  have unqueued := accounted.unqueued found there waiting
  let after : Receiver := { machine with committing := true, lastProgress := now }
  let marked : Link := { link with
    receivers := KeyedTable.update Receiver.sendId machine.sendId (fun _ => after) link.receivers }
  have marks : Backed (KeyedTable.update Link.serial link.serial (fun _ => marked) plane.links)
      (link.peer, machine.sendId) :=
    ⟨marked, mem_write found, live, rfl, after, mem_write there, rfl, rfl⟩
  refine { accounted with sound := ?sound, linked := ?linked, keys := ?keys, backed := ?backed }
  case sound =>
    -- the reservation passes from the machine to the commit
    apply (receiver_sound accounted found there).perm
    have machines := held_by_machines_perm (update_perm after (accounted.sends found) there)
    have links := (update_perm marked accounted.linked.serials found).flatMap_right heldByLink
    rw [held_by_machines_cons, perm_iff_count] at machines
    rw [perm_iff_count] at links ⊢
    intro holding
    have first := machines holding
    have second := links holding
    simp only [after, marked, finishCommit, putLink, held, heldBesides, heldByObjects, waiting,
      Bool.false_eq_true, ↓reduceIte, held_by_link, flatMap_cons, map_append, map_cons,
      map_nil, nil_append, count_append] at first second ⊢
    omega
  case linked =>
    exact accounted.linked.update marked found rfl (fun alive => alive) (by simp [marked, live])
      (keys_write_nodup rfl (accounted.sends found))
  case keys =>
    show ((plane.commits ++ [_]).map Commit.key ++ plane.landings).Nodup
    rw [map_append, append_assoc]
    apply perm_middle.nodup_iff.mpr
    exact nodup_cons.mpr ⟨unqueued, accounted.keys⟩
  case backed =>
    intro key listed
    have queued : key = (link.peer, machine.sendId) ∨
        key ∈ plane.commits.map Commit.key ++ plane.landings := by
      simp only [finishCommit, putLink, map_append, map_cons, map_nil,
        mem_append, mem_singleton, Commit.key] at listed ⊢
      tauto
    rcases queued with rfl | old
    · exact marks
    apply (accounted.backed key old).update marked accounted.linked.serials found
    intro alive peer other mem sendId committing
    refine ⟨marked, mem_write found, alive, peer, other, ?_, sendId, committing⟩
    apply mem_update_other mem
    intro same
    rw [lookup_unique (accounted.sends found) there mem same, waiting] at committing
    cases committing

omit found in
omit accounted in
theorem release_all_sound (machines : List Receiver) {rest : List Holding} {allocator : SlabAllocator}
    (sound : Sound capacity allocator (machines.map (fun machine => ⟨machine.expectBytes, machine.extent⟩) ++
      rest)) :
    Sound capacity (machines.foldl (fun allocator machine => allocator.release machine.extent) allocator)
      rest := by
  induction machines generalizing allocator with
  | nil => exact sound
  | cons machine machines ih => exact ih sound.release

theorem tick_accounted (now : ℚ) : Accounted capacity (plane.tick link now) := by
  obtain rfl := link_serial found
  have sound := accounted.sound.perm (held_link accounted found)
  let aborted := link.receivers.filter (plane.timedOut · now)
  let stays := link.receivers.filter fun machine => !plane.timedOut machine now
  have waiting : ∀ machine, plane.timedOut machine now = true → machine.committing = false := by
    intro machine late
    simp only [timedOut, Bool.and_eq_true, Bool.not_eq_true'] at late
    exact late.1
  have split : (heldByMachines link.receivers).Perm
      (aborted.map (fun machine => ⟨machine.expectBytes, machine.extent⟩) ++ heldByMachines stays) := by
    have order := held_by_machines_perm
      (filter_append_perm (plane.timedOut · now) link.receivers).symm
    have all : aborted.filter (fun machine => !machine.committing) = aborted := by
      apply filter_eq_self.mpr
      intro machine mem
      rw [waiting machine (mem_filter.mp mem).2]
      rfl
    have parts : heldByMachines (aborted ++ stays) =
        aborted.map (fun machine => ⟨machine.expectBytes, machine.extent⟩) ++ heldByMachines stays := by
      rw [heldByMachines, filter_append, map_append, all]
      rfl
    exact parts ▸ order
  refine accounted.put_link { link with receivers := stays } _ found rfl rfl ?dead ?sends ?kept
    (release_all_sound aborted (sound.perm ?order))
  case dead =>
    intro ended
    have empty := accounted.dead_link found ended
    exact ⟨by simp [stays, empty.1], empty.2⟩
  case sends => exact (accounted.sends found).sublist (filter_sublist.map _)
  case kept =>
    intro machine mem committing
    refine ⟨machine, mem_filter.mpr ⟨mem, ?_⟩, rfl, committing⟩
    simp [timedOut, committing]
  case order => simpa only [held_by_link, append_assoc] using split.append_right _

theorem drop_link_accounted
    (quiet : link.alive = true → Quiet link) : Accounted capacity (plane.dropLink link) := by
  obtain rfl := link_serial found
  unfold dropLink
  split_ifs with live
  · obtain ⟨waiting, unprobed⟩ := quiet live
    let ended : Link := { link with alive := false, receivers := [] }
    have all : heldByMachines link.receivers =
        link.receivers.map fun machine => ⟨machine.expectBytes, machine.extent⟩ := by
      rw [heldByMachines, filter_eq_self.mpr]
      intro machine mem
      rw [waiting machine mem]
      rfl
    have sound := accounted.sound.perm (held_link accounted found)
    rw [held_by_link, all, unprobed, Option.toList_none, append_nil] at sound
    have released := release_all_sound link.receivers sound
    have nothing : heldByLink ended = [] := by
      rw [held_by_link]
      rw [unprobed]
      rfl
    refine { accounted with sound := ?sound, linked := ?linked, backed := ?backed }
    case sound =>
      apply released.perm
      have order := put_link_held accounted ended found
      rw [nothing] at order
      exact order.symm
    case linked =>
      exact accounted.linked.update ended found rfl (fun alive => absurd alive Bool.noConfusion)
        (fun _ => ⟨rfl, unprobed⟩) nodup_nil
    case backed =>
      intro key listed
      apply (accounted.backed key listed).update ended accounted.linked.serials found
      intro _ _ machine mem _ committing
      rw [waiting machine mem] at committing
      cases committing
  · exact accounted

/-! ### transfers, probes and links that come and go -/

omit found in
omit accounted in
theorem put_link_lookup (link : Link) (found : plane.link link.serial = some other) :
    (plane.putLink link).link link.serial = some link :=
  lookup_write_self rfl found

theorem open_receiver_accounted (live : link.alive = true)
    (absent : receiver link machine.sendId = none) (waiting : machine.committing = false)
    (positive : 0 < machine.expectBytes)
    (taken : plane.allocator.alloc machine.expectBytes = some (machine.extent, allocator)) :
    Accounted capacity (putLink { plane with allocator := allocator }
      { link with receivers := link.receivers ++ [machine] }) := by
  obtain rfl := link_serial found
  have sound := (accounted.sound.perm (held_link accounted found)).alloc positive taken
  refine accounted.put_link { link with receivers := link.receivers ++ [machine] } _ found rfl rfl
    (by simp [live]) ?sends ?kept (sound.perm ?order)
  case sends =>
    exact keys_append_nodup (accounted.sends found) (lookup_none.mp absent)
  case kept =>
    exact fun other mem committing => ⟨other, mem_append_left _ mem, rfl, committing⟩
  case order =>
    rw [perm_iff_count]
    intro holding
    simp only [held_by_link, heldByMachines, filter_append, filter_cons, waiting,
      Bool.not_false, ↓reduceIte, filter_nil, map_append, map_cons, map_nil,
      count_append, count_cons, count_nil]
    omega

theorem probe_req_accounted {nbytes : Int} (positive : 0 < nbytes) (live : link.alive = true)
    (idle : link.bwprobeExt = none) : Accounted capacity (plane.probeReq link nbytes).plane := by
  obtain rfl := link_serial found
  unfold probeReq
  split
  · exact accounted
  rename_i extent allocator taken
  have sound := (accounted.sound.perm (held_link accounted found)).alloc positive taken
  have sends := accounted.sends found
  refine accounted.put_link { link with bwprobeExt := some ⟨nbytes, extent⟩ } allocator found rfl rfl
    (by simp [live]) sends
    (fun machine mem committing => ⟨machine, mem, rfl, committing⟩) (sound.perm ?_)
  rw [held_by_link, held_by_link, idle, append_assoc, append_assoc]
  exact perm_middle.symm

theorem probe_done_accounted : Accounted capacity (plane.probeDone link) := by
  obtain rfl := link_serial found
  unfold probeDone
  split
  · exact accounted
  rename_i holding lent
  have sound := accounted.sound.perm (held_link accounted found)
  have order : (heldByLink link ++ plane.heldBesides link.serial).Perm (holding ::
      (heldByMachines link.receivers ++ plane.heldBesides link.serial)) := by
    rw [held_by_link, lent, append_assoc]
    exact perm_middle
  have released := (sound.perm order).release
  have sends := accounted.sends found
  refine accounted.put_link { link with bwprobeExt := none } _ found rfl rfl
    (fun ended => ⟨(accounted.dead_link found ended).1, rfl⟩) sends
    (fun machine mem committing => ⟨machine, mem, rfl, committing⟩) ?_
  rw [held_by_link]
  simpa using released

end

theorem live_link {peer : String} (found : plane.liveLink peer = some link) :
    plane.link link.serial = some link ∧ link.alive = true ∧ link.peer = peer := by
  have mem := mem_of_find?_eq_some found
  have holds := find?_some found
  simp only [Bool.and_eq_true, decide_eq_true_eq] at holds
  exact ⟨lookup_of_mem accounted.linked.serials mem, holds.1, holds.2⟩

theorem adopt_link_accounted {peer : String}
    (absent : ∀ link ∈ plane.links, link.alive = true → link.peer ≠ peer) :
    Accounted capacity { plane with
      links := plane.links ++ [{ serial := plane.nextLink, peer := peer }]
      nextLink := plane.nextLink + 1 } := by
  have linked := accounted.linked
  refine { accounted with sound := ?sound, linked := ?linked, backed := ?backed }
  case sound =>
    apply accounted.sound.perm
    simp [held, heldByLink]
  case linked =>
    refine ⟨keys_append_nodup linked.serials fun link mem => Nat.ne_of_lt (linked.fresh link mem),
      forall_mem_concat (fun link old => Nat.lt_succ_of_lt (linked.fresh link old))
        (Nat.lt_succ_self _), ?alone, forall_mem_concat linked.dead (by simp),
      forall_mem_concat linked.sends nodup_nil⟩
    intro first mem second alsoMember live alsoLive same
    rcases mem_append.mp mem with old | last <;> rcases mem_append.mp alsoMember with alsoOld | alsoLast
    · exact linked.alone first old second alsoOld live alsoLive same
    · rw [mem_singleton.mp alsoLast] at same
      exact absurd same (absent first old live)
    · rw [mem_singleton.mp last] at same
      exact absurd same.symm (absent second alsoOld alsoLive)
    · rw [mem_singleton.mp last, mem_singleton.mp alsoLast]
  case backed =>
    intro key listed
    obtain ⟨link, mem, rest⟩ := accounted.backed key listed
    exact ⟨link, mem_append_left _ mem, rest⟩

theorem connect_accounted (peer : String)
    (quiet : ¬plane.peerName < peer → ∀ link ∈ plane.liveLink peer, Quiet link) :
    Accounted capacity (plane.connect peer) := by
  unfold connect
  split
  · rename_i absent
    apply adopt_link_accounted accounted
    intro link mem live same
    have none := find?_eq_none.mp absent link mem
    simp [live, same] at none
  rename_i old found
  split_ifs with smaller
  · exact accounted
  obtain ⟨here, live, samePeer⟩ := live_link accounted found
  have dropped := drop_link_accounted accounted here fun _ => quiet smaller old found
  apply adopt_link_accounted dropped
  intro link mem alive same
  rw [dropLink, if_pos live] at mem
  rcases mem_update mem with rfl | ⟨listed, ne⟩
  · cases alive
  · have equal := accounted.linked.alone link listed old (lookup_mem here) alive live
      (same.trans samePeer.symm)
    exact ne (show link.serial = old.serial from congrArg Link.serial equal)

end

end Links

/-! ### commits -/

section Commits

variable {index : Nat}

theorem getElem_cons_perm {Entry : Type} {entries : List Entry} {entry : Entry}
    (here : entries[index]? = some entry) : entries.Perm (entry :: entries.eraseIdx index) := by
  obtain ⟨bound, same⟩ := List.getElem?_eq_some_iff.mp here
  exact (same ▸ getElem_cons_eraseIdx_perm bound).symm

/-- The commit's extent becomes the object's; an object that was there gives its own back. -/
theorem adopt_inbound_accounted (accounted : Accounted capacity plane) {commit : Commit}
    (here : plane.commits[index]? = some commit) :
    Accounted capacity (plane.adoptInbound index commit).plane := by
  have order := getElem_cons_perm here
  have queue := (order.map fun commit => (⟨commit.sizeBytes, commit.extent⟩ : Holding))
  have moved : (plane.commits.map Commit.key ++ plane.landings).Perm
      ((plane.commits.eraseIdx index).map Commit.key ++ (plane.landings ++ [commit.key])) := by
    refine ((order.map Commit.key).append_right _).trans ?_
    rw [← append_assoc]
    exact (perm_append_singleton ..).symm
  have keys := moved.nodup_iff.mp accounted.keys
  have backed : ∀ key ∈ (plane.commits.eraseIdx index).map Commit.key ++
      (plane.landings ++ [commit.key]), Backed plane.links key :=
    fun key listed => accounted.backed key (moved.mem_iff.mpr listed)
  unfold adoptInbound
  split
  · rename_i absent
    refine { accounted with
      sound := accounted.sound.perm ?_, ids := ?_, keys := keys, backed := backed }
    · rw [perm_iff_count]
      intro holding
      have count := queue.count_eq holding
      simp only [held, map_append, map_cons, map_nil, count_append,
        count_cons, count_nil] at count ⊢
      omega
    · exact keys_append_nodup accounted.ids (lookup_none.mp absent)
  rename_i old found
  split_ifs
  · exact accounted
  let adopted : Resident := {
    id := commit.destId, sizeBytes := commit.sizeBytes, extent := commit.extent
    isProtected := old.isProtected, version := old.version + 1 }
  have before := (perm_remove accounted.ids found).map
    fun record => (⟨record.sizeBytes, record.extent⟩ : Holding)
  have after := (update_perm adopted accounted.ids found).map
    fun record => (⟨record.sizeBytes, record.extent⟩ : Holding)
  refine { accounted with
    sound := (accounted.sound.perm (perm_iff_count.mpr fun holding => ?_) :
      Sound _ _ (⟨old.sizeBytes, old.extent⟩ :: _)).release
    ids := keys_write_nodup rfl accounted.ids, keys := keys, backed := backed }
  have first := queue.count_eq holding
  have second := before.count_eq holding
  have third := after.count_eq holding
  simp only [adopted, held, map_cons, count_append, count_cons] at first second third ⊢
  omega

theorem commit_landed_accounted (accounted : Accounted capacity plane) {key : String × String}
    (here : plane.landings[index]? = some key) : Accounted capacity (plane.commitLanded index key) := by
  have order := getElem_cons_perm here
  have moved : (plane.commits.map Commit.key ++ plane.landings).Perm
      (key :: (plane.commits.map Commit.key ++ plane.landings.eraseIdx index)) :=
    (order.append_left _).trans perm_middle
  obtain ⟨called, keys⟩ := nodup_cons.mp (moved.nodup_iff.mp accounted.keys)
  have backed : ∀ other ∈ plane.commits.map Commit.key ++ plane.landings.eraseIdx index,
      Backed plane.links other :=
    fun other listed => accounted.backed other (moved.mem_iff.mpr (mem_cons_of_mem key listed))
  have landed : Accounted capacity { plane with landings := plane.landings.eraseIdx index } :=
    { accounted with keys := keys, backed := backed }
  unfold commitLanded
  split
  · exact landed
  rename_i link found
  obtain ⟨there, live, peer⟩ := live_link accounted found
  -- the callback's key is backed by this very link
  obtain ⟨other, mem, alive, samePeer, machine, listed, sendId, committing⟩ :=
    accounted.backed key (moved.mem_iff.mpr mem_cons_self)
  obtain rfl := accounted.linked.alone other mem link (lookup_mem there) alive live
    (samePeer.trans peer.symm)
  have marked := sendId ▸ lookup_of_mem (accounted.sends there) listed
  let removed : Link := { other with
    receivers := KeyedTable.remove Receiver.sendId key.2 other.receivers }
  have sound := receiver_sound landed there marked
  rw [committing] at sound
  refine { landed with sound := ?sound, linked := ?linked, backed := ?backed }
  case sound =>
    apply sound.perm
    apply Perm.trans _ (put_link_held landed removed there).symm
    rw [held_by_link]
    simp [removed]
  case linked =>
    exact accounted.linked.update removed there rfl (fun alive => alive)
      (by simp [removed, live]) (keys_remove_nodup (accounted.sends there))
  case backed =>
    intro pending inQueue
    apply (backed pending inQueue).update removed accounted.linked.serials there
    intro _ pendingPeer entry inLink pendingSend entryCommitting
    refine ⟨removed, mem_write there, live, pendingPeer, entry, ?_, pendingSend, entryCommitting⟩
    apply mem_remove_other inLink
    intro same
    apply called
    have equal := Prod.ext (pendingPeer.symm.trans peer)
      (pendingSend.symm.trans same)
    exact equal ▸ inQueue

end Commits

/-! ### steps -/

/-- A step on a link of the plane keeps what it keeps at every link. -/
theorem on_link_keeps {P : Plane → Prop} (still : P plane) {step : Link → Plane} {serial : Nat}
    (each : ∀ link ∈ plane.link serial, P (step link)) : P (plane.onLink serial step).plane := by
  unfold onLink
  split
  · exact still
  · rename_i link found
    exact each link found

theorem on_idle_keeps {P : Plane → Prop} (still : P plane) {step : Link → Reply} {serial : Nat}
    (each : ∀ link ∈ plane.link serial, link.reader = .idle → P (step link).plane) :
    P (plane.onIdle serial step).plane := by
  unfold onIdle
  split
  · exact still
  · rename_i link found
    split_ifs with idle
    · exact each link found idle
    · exact still

/-- What a reader may turn to: it fills the view that it has, or that of its next chunk. -/
def Reads (link : Link) (reader : Reader) : Prop :=
  ∀ sendId seq view gotTotal, reader = .filling sendId seq view gotTotal →
    (∃ before, link.reader = .filling sendId seq view before) ∨
    ∃ machine ∈ receiver link sendId, machine.committing = false ∧
      view.offset = machine.extent.offset + machine.received ∧
      machine.received + view.size ≤ machine.expectBytes

/-- The requests that change objects one at a time, or what one reader or one transfer does. -/
def piecewise : Request → Bool
  | .put _ _ | .release _ _ | .wipe _ _ | .duplicate _ _ | .protect _ _ | .acquireLeases _
  | .releaseLeases _ | .rollbackCreated _ | .rts _ _ _ _ _ _ _ _ | .chunk _ _ _ _ | .fill _ _
  | .landed _ _ | .drained _ _ | .done _ _ _ _ => true
  | _ => false

/-- What a property has to withstand so that every allowed step keeps it. -/
structure Kept (Allowed : Plane → Request → Prop) (P : Plane → Prop) : Prop where
  object : ∀ {plane}, P plane → ∀ id change, (∀ record, (change record).id = record.id ∧
    (change record).sizeBytes = record.sizeBytes ∧ (change record).extent = record.extent) →
    P (plane.updateObject id change)
  drop : ∀ {plane id record}, P plane → plane.object id = some record → P (plane.dropRecord record)
  peak : ∀ {plane} peak, P plane →
    P { plane with allocator := { plane.allocator with peakBytes := peak } }
  put : ∀ {plane id size}, P plane → Allowed plane (.put id size) → plane.object id = none →
    P (plane.carve id size 1).plane
  duplicate : ∀ {plane src dst source}, P plane → Allowed plane (.duplicate src dst) →
    plane.object src = some source → plane.object dst = none →
    P (plane.carve dst source.sizeBytes 0).plane
  reader : ∀ {plane request serial link}, P plane → Allowed plane request →
    plane.link serial = some link → ∀ reader, Reads link reader →
    P (plane.putLink { link with reader := reader })
  stale : ∀ {plane request serial link sendId machine now}, Allowed plane request →
    request = .landed serial now ∨ request = .drained serial now →
    plane.link serial = some link → readerSend link = some sendId →
    receiver link sendId = some machine → P (plane.putLink { link with reader := .idle }) →
    P ((plane.putLink { link with reader := .idle }).abortReceiver { link with reader := .idle }
      machine)
  advance : ∀ {plane serial link sendId machine}, P plane → plane.link serial = some link →
    link.reader = .idle → receiver link sendId = some machine → ∀ (count : Nat) (now : ℚ),
    P (plane.putLink { link with
      receivers := KeyedTable.update Receiver.sendId sendId (fun _ => { machine with
        received := machine.received + count
        nextSeq := machine.nextSeq + 1
        lastProgress := now }) link.receivers })
  accept : ∀ {plane serial link machine eager allocator}, P plane →
    Allowed plane (.rts serial machine.sendId machine.destId machine.expectBytes machine.overwrite
      eager machine.raddr machine.lastProgress) →
    plane.link serial = some link → link.reader = .idle → receiver link machine.sendId = none →
    plane.collision machine.destId machine.expectBytes machine.overwrite = none →
    machine.committing = false → machine.received = 0 →
    plane.allocator.alloc machine.expectBytes = some (machine.extent, allocator) →
    P (putLink { plane with allocator := allocator }
      { link with receivers := link.receivers ++ [machine] })
  /-- The extent of an RTS that raises is taken and belongs to nobody. -/
  lose : ∀ {plane serial link sendId destId nbytes overwrite eager raddr now} allocator, P plane →
    Allowed plane (.rts serial sendId destId nbytes overwrite eager raddr now) →
    plane.link serial = some link → (0 < nbytes → ∃ count ∈ eager, (count : Int) ≠ nbytes) →
    P (putLink { plane with allocator := allocator } { link with reader := .dead })
  done : ∀ {plane serial sendId agrees now}, Allowed plane (.done serial sendId agrees now) →
    ¬Committing plane serial sendId
  settle : ∀ {plane serial link sendId machine}, P plane → plane.link serial = some link →
    link.reader = .idle → receiver link sendId = some machine → machine.committing = false →
    P (plane.abortReceiver link machine) ∧ ∀ now, P (plane.finishCommit link machine now)
  rest : ∀ {plane request}, P plane → Allowed plane request → piecewise request = false →
    P (plane.step request).plane

section

variable {Allowed : Plane → Request → Prop} {P : Plane → Prop} (kept : Kept Allowed P)
include kept

theorem Kept.wipe_loop (force : Bool) (ids : List String) (holds : P plane) :
    P (wipeLoop force ids plane).plane := by
  induction ids generalizing plane with
  | nil => exact kept.peak _ holds
  | cons id rest ih =>
    unfold wipeLoop
    split
    · exact ih holds
    rename_i record found
    split_ifs
    · exact ih holds
    · exact holds
    · exact ih (kept.drop holds found)

theorem Kept.leases (change : Nat → Nat) (ids : List String) (holds : P plane) :
    P (ids.foldl (lease change) plane) := by
  induction ids generalizing plane with
  | nil => exact holds
  | cons id rest ih => exact ih (kept.object holds id _ fun _ => ⟨rfl, rfl, rfl⟩)

theorem Kept.rollback (ids : List String) (holds : P plane) :
    P (ids.foldl Plane.rollback plane) := by
  induction ids generalizing plane with
  | nil => exact holds
  | cons id rest ih =>
    apply ih
    unfold Plane.rollback
    split
    · exact holds
    · rename_i record found
      exact kept.drop holds found

theorem Kept.read {request : Request} {serial : Nat} {sendId : String} {now : ℚ} (holds : P plane)
    (allowed : Allowed plane request)
    (kind : request = .landed serial now ∨ request = .drained serial now)
    (found : plane.link serial = some link) (reading : readerSend link = some sendId)
    (seq count : Nat) : P ((plane.putLink { link with reader := .idle }).handleChunk
      { link with reader := .idle } sendId seq count now) := by
  have freed := kept.reader holds allowed found .idle fun _ _ _ _ same => by cases same
  unfold handleChunk
  split
  · exact freed
  rename_i machine there
  split_ifs
  · exact kept.stale allowed kind found reading there freed
  · obtain rfl := link_serial found
    exact kept.advance freed (put_link_lookup { link with reader := .idle } found) rfl there count now

theorem Kept.step {request : Request} (holds : P plane) (allowed : Allowed plane request) :
    P (plane.step request).plane := by
  cases request with
  | put id sizeBytes =>
    simp only [Plane.step, Plane.put]
    split
    · rename_i absent
      exact kept.put holds allowed absent
    · split_ifs
      · exact holds
      · exact holds
      · exact kept.object holds id _ fun _ => ⟨rfl, rfl, rfl⟩
  | release id force =>
    simp only [Plane.step, Plane.release]
    split
    · exact holds
    rename_i record found
    split_ifs
    · exact holds
    · exact holds
    · exact kept.drop holds found
  | wipe scope force =>
    simp only [Plane.step, Plane.wipe]
    split_ifs
    · exact kept.wipe_loop force _ holds
    · exact kept.wipe_loop force [] holds
    · exact holds
  | duplicate src dst =>
    simp only [Plane.step, Plane.duplicate]
    split
    · exact holds
    rename_i source found
    split
    · exact holds
    · rename_i absent
      exact kept.duplicate holds allowed found absent
  | protect id value =>
    simp only [Plane.step, protect]
    split
    · exact holds
    · exact kept.object holds id _ fun _ => ⟨rfl, rfl, rfl⟩
  | acquireLeases ids =>
    simp only [Plane.step, acquireLeases]
    split
    · exact holds
    · exact kept.leases _ ids holds
  | releaseLeases ids => exact kept.leases _ ids holds
  | rollbackCreated ids => exact kept.rollback ids holds
  | rts serial sendId destId nbytes overwrite eager raddr now =>
    apply on_idle_keeps holds
    intro link found idle
    unfold handleRts
    split
    · exact holds
    rename_i absent
    split
    · exact holds
    rename_i clear
    split
    · exact holds
    rename_i extent allocator taken
    let machine : Receiver := {
      sendId := sendId, destId := destId, overwrite := overwrite, extent := extent
      raddr := raddr, expectBytes := nbytes, lastProgress := now }
    let opened : Link := { link with receivers := link.receivers ++ [machine] }
    have admitted : P (putLink { plane with allocator := allocator } opened) :=
      kept.accept holds allowed found idle absent clear rfl rfl taken
    have lost := kept.lose allocator holds allowed found
    split_ifs with negative
    · exact lost fun positive => absurd negative (not_lt.mpr positive.le)
    split
    · exact admitted
    split_ifs with ragged
    · exact lost fun _ => ⟨_, rfl, ragged⟩
    have there : receiver opened sendId = some machine := by
      show KeyedTable.lookup Receiver.sendId sendId (link.receivers ++ [machine]) = _
      rw [lookup_append_single, show KeyedTable.lookup _ _ link.receivers = none from absent]
      simp [machine]
    obtain rfl := link_serial found
    exact (kept.settle admitted (put_link_lookup opened found) idle there rfl).2 now
  | done serial sendId agrees now =>
    apply on_idle_keeps holds
    intro link found idle
    show P (plane.handleDone link sendId agrees now)
    unfold handleDone
    split
    · exact holds
    rename_i machine there
    have waiting : machine.committing = false := by
      by_contra committing
      exact kept.done allowed
        ⟨link, found, machine, there, Bool.eq_true_of_not_eq_false committing⟩
    obtain ⟨aborted, finished⟩ := kept.settle holds found idle there waiting
    split_ifs
    · exact aborted
    · exact finished now
  | chunk serial sendId seq count =>
    apply on_idle_keeps holds
    intro link found _
    unfold beginChunk
    have drains := kept.reader holds allowed found (.draining sendId seq) fun _ _ _ _ same => by
      cases same
    split
    · rename_i machine there
      split_ifs with fits
      · refine kept.reader holds allowed found _ fun _ _ _ _ same => .inr ?_
        cases same
        exact ⟨machine, there, fits.2.1, rfl, fits.2.2.2⟩
      · exact drains
    · exact drains
  | fill serial count =>
    apply on_link_keeps holds
    intro link found
    unfold Plane.fill
    split
    · rename_i reading
      split_ifs
      · refine kept.reader holds allowed found _ fun _ _ _ _ same => .inl ?_
        cases same
        exact ⟨_, reading⟩
      · exact holds
    · exact holds
  | landed serial now =>
    apply on_link_keeps holds
    intro link found
    unfold Plane.landed
    split
    · rename_i reading
      split_ifs
      · exact kept.read holds allowed (.inl rfl) found (by simp [readerSend, reading]) _ _
      · exact holds
    · exact holds
  | drained serial now =>
    apply on_link_keeps holds
    intro link found
    unfold Plane.drained
    split
    · rename_i reading
      exact kept.read holds allowed (.inr rfl) found (by simp [readerSend, reading]) _ 0
    · exact holds
  | _ => exact kept.rest holds allowed rfl

end

theorem keeps_accounted : Kept Orderly (Accounted capacity) where
  object := update_object_accounted
  drop := drop_record_accounted
  peak _ accounted := { accounted with sound := { accounted.sound with } }
  put accounted orderly absent := carve_accounted accounted orderly absent 1
  duplicate accounted _ found absent :=
    carve_accounted accounted (accounted.resident_positive found) absent 0
  reader accounted _ found reader _ := put_reader_accounted accounted found reader
  stale := by
    intro plane request serial link sendId machine now orderly kind found reading there freed
    have waiting : ¬Committing plane serial sendId := by
      rcases kind with rfl | rfl <;> exact orderly link found sendId reading
    obtain rfl := link_serial found
    refine abort_receiver_accounted freed (put_link_lookup { link with reader := .idle } found) there ?_
    by_contra committing
    exact waiting ⟨link, found, machine, there, Bool.eq_true_of_not_eq_false committing⟩
  advance accounted found _ there _ _ := by
    have key := lookup_key there
    exact advance_accounted accounted found there _ key rfl rfl rfl
  accept accounted orderly found _ absent _ waiting _ taken :=
    open_receiver_accounted accounted found (orderly.2.2 _ found) absent waiting orderly.1 taken
  lose _ _ orderly _ ragged := by
    obtain ⟨count, carried, ne⟩ := ragged orderly.1
    exact absurd (orderly.2.1 count carried) ne
  done orderly := orderly
  settle accounted found _ there waiting :=
    ⟨abort_receiver_accounted accounted found there waiting,
      finish_commit_accounted accounted found there waiting⟩
  rest := by
    intro plane request accounted orderly other
    cases request with
    | allocTransient owner sizeBytes => exact alloc_transient_accounted accounted owner orderly
    | freeTransient token => exact free_transient_accounted accounted token
    | allocScratch nbytes => exact alloc_scratch_accounted accounted orderly
    | releaseScratch handle => exact release_scratch_accounted accounted handle
    | eof serial =>
      apply on_link_keeps accounted
      intro link found
      have quiet := orderly link found
      obtain rfl := link_serial found
      exact drop_link_accounted (put_reader_accounted accounted found .dead)
        (put_link_lookup { link with reader := .dead } found) quiet
    | tick serial now =>
      exact on_link_keeps accounted fun link found => tick_accounted accounted found now
    | commit index =>
      simp only [step]
      split
      · exact accounted
      · rename_i commit here
        exact adopt_inbound_accounted accounted here
    | landing index =>
      simp only [step]
      split
      · exact accounted
      · rename_i key here
        exact commit_landed_accounted accounted here
    | connect peer => exact connect_accounted accounted peer orderly
    | drop serial =>
      exact on_link_keeps accounted fun link found =>
        drop_link_accounted accounted found (orderly link found)
    | probeReq serial nbytes =>
      obtain ⟨positive, free⟩ := orderly
      exact on_idle_keeps accounted fun link found _ =>
        probe_req_accounted accounted found positive (free link found).1 (free link found).2
    | probeDone serial =>
      exact on_idle_keeps accounted fun link found _ => probe_done_accounted accounted found
    | _ => cases other

end Plane

end Dataflow.SlabPlane
