import Dataflow.SlabSafety

/-!
Permission to overwrite is checked when an inbound transfer reserves its extent, and
the catalog changes when its commit is served. In between the destination may come
into being: by a local verb or by another transfer to the same id. As long as that
happens only when every claim on the id allows it, no commit replaces an object
against the permission its transfer was sent with.
-/

namespace Dataflow.SlabPlane

open ByteRanges Service KeyedTable List

/-- What a transfer that is under way will do to the catalog. -/
structure Claim where
  destId : String
  overwrite : Bool
  sizeBytes : Int
  deriving DecidableEq

def Receiver.claim (machine : Receiver) : Claim :=
  ⟨machine.destId, machine.overwrite, machine.expectBytes⟩

def Commit.claim (commit : Commit) : Claim := ⟨commit.destId, commit.overwrite, commit.sizeBytes⟩

namespace Plane

variable {plane next : Plane} {link other : Link} {machine : Receiver}

def openClaims (link : Link) : List Claim :=
  (link.receivers.filter fun machine => !machine.committing).map Receiver.claim

def claims (plane : Plane) : List Claim :=
  plane.links.flatMap openClaims ++ plane.commits.map Commit.claim

def Permits (claims : List Claim) (id : String) (sizeBytes : Int) : Prop :=
  ∀ claim ∈ claims, claim.destId = id → claim.overwrite = true ∧ claim.sizeBytes = sizeBytes

instance (claims : List Claim) (id : String) (sizeBytes : Int) :
    Decidable (Permits claims id sizeBytes) :=
  inferInstanceAs (Decidable (∀ claim ∈ claims, _))

/-- An object comes into being only if every other claim on its id allows it, and a DONE
queues a transfer's commit once. -/
def Uncontested (plane : Plane) : Request → Prop
  | .put id sizeBytes => plane.object id = none → Permits plane.claims id sizeBytes
  | .duplicate src dst => plane.object dst = none →
      ∀ source ∈ plane.object src, Permits plane.claims dst source.sizeBytes
  | .commit index => ∀ commit ∈ plane.commits[index]?, plane.object commit.destId = none →
      Permits { plane with commits := plane.commits.eraseIdx index }.claims commit.destId
        commit.sizeBytes
  | .done serial sendId _ _ => ¬Committing plane serial sendId
  | _ => True

instance (plane : Plane) : DecidablePred plane.Uncontested := fun request => by
  apply @Request.casesOn (Decidable <| plane.Uncontested ·) request <;> intros <;>
    dsimp only [Uncontested] <;> infer_instance

/-- A commit changes an object only with the permission to, and with its size. -/
def Respects (plane : Plane) : Request → Prop
  | .commit index => ∀ commit ∈ plane.commits[index]?, ∀ old ∈ plane.object commit.destId,
      (plane.step (.commit index)).plane.object commit.destId ≠ some old →
        commit.overwrite = true ∧ commit.sizeBytes = old.sizeBytes
  | _ => True

/-- No claim is at odds with an object that is there. -/
def Permitted (plane : Plane) : Prop :=
  ∀ id, ∀ record ∈ plane.object id, Permits plane.claims id record.sizeBytes

/-- Objects that are there were there with the same size. -/
def Shrinks (plane next : Plane) : Prop :=
  ∀ id, ∀ record ∈ next.object id, ∃ old ∈ plane.object id, old.sizeBytes = record.sizeBytes

theorem Permitted.mono (permitted : Permitted plane) (objects : Shrinks plane next)
    (claims : next.claims ⊆ plane.claims) : Permitted next := by
  intro id record found claim listed names
  obtain ⟨old, before, same⟩ := objects id record found
  rw [← same]
  exact permitted id old before claim (claims listed) names

theorem Shrinks.of_eq (same : next.objects = plane.objects) : Shrinks plane next := by
  intro id record found
  refine ⟨record, ?_, rfl⟩
  rwa [Option.mem_def, object, ← same]

/-! ### claims -/

theorem claims_put_link (there : other ∈ plane.links)
    (kept : openClaims link ⊆ openClaims other) : (plane.putLink link).claims ⊆ plane.claims := by
  intro claim listed
  rcases mem_append.mp listed with inLinks | inCommits
  · apply mem_append_left
    obtain ⟨entry, mem, claimed⟩ := mem_flatMap.mp inLinks
    rcases mem_update mem with rfl | ⟨old, _⟩
    · exact mem_flatMap.mpr ⟨other, there, kept claimed⟩
    · exact mem_flatMap.mpr ⟨entry, old, claimed⟩
  · exact mem_append_right _ inCommits

theorem mem_open_claims {claim : Claim} : claim ∈ openClaims link ↔
    ∃ machine ∈ link.receivers, machine.committing = false ∧ machine.claim = claim := by
  simp [openClaims, and_assoc]

theorem open_claims_sublist (kept : link.receivers ⊆ other.receivers) :
    openClaims link ⊆ openClaims other := by
  intro claim listed
  obtain ⟨machine, mem, waiting, same⟩ := mem_open_claims.mp listed
  exact mem_open_claims.mpr ⟨machine, kept mem, waiting, same⟩

theorem open_claims_update {sendId : String} (after : Receiver)
    (there : receiver other sendId = some machine) (claim : after.claim = machine.claim)
    (still : after.committing = false → machine.committing = false) (receivers : link.receivers =
      update Receiver.sendId sendId (fun _ => after) other.receivers) :
    openClaims link ⊆ openClaims other := by
  intro claimed listed
  obtain ⟨entry, mem, waiting, same⟩ := mem_open_claims.mp listed
  rw [receivers] at mem
  rcases mem_update mem with rfl | ⟨old, _⟩
  · exact mem_open_claims.mpr ⟨machine, lookup_mem there, still waiting, claim.symm.trans same⟩
  · exact mem_open_claims.mpr ⟨entry, old, waiting, same⟩

/-! ### steps on one link -/

section

variable (permitted : Permitted plane)
include permitted

theorem Permitted.put_link (link : Link) (allocator : SlabAllocator)
    (there : other ∈ plane.links) (kept : openClaims link ⊆ openClaims other) :
    Permitted (putLink { plane with allocator := allocator } link) :=
  permitted.mono (Shrinks.of_eq rfl) (claims_put_link there kept)

theorem put_reader_permitted (there : link ∈ plane.links)
    (reader : Reader) : Permitted (plane.putLink { link with reader := reader }) :=
  permitted.put_link { link with reader := reader } plane.allocator there (Subset.refl _)

theorem abort_receiver_permitted (there : link ∈ plane.links)
    (machine : Receiver) : Permitted (plane.abortReceiver link machine) := by
  apply permitted.put_link { link with
    receivers := remove Receiver.sendId machine.sendId link.receivers } _ there
  exact open_claims_sublist (filter_subset_self _)

theorem finish_commit_permitted {sendId : String}
    (mem : link ∈ plane.links) (there : receiver link sendId = some machine)
    (waiting : machine.committing = false) (now : ℚ) :
    Permitted (plane.finishCommit link machine now) := by
  obtain rfl := lookup_key there
  have objects : Shrinks plane (plane.finishCommit link machine now) := Shrinks.of_eq rfl
  apply permitted.mono objects
  intro claim listed
  have mine : machine.claim ∈ plane.claims := by
    apply mem_append_left
    exact mem_flatMap.mpr ⟨link, mem, mem_open_claims.mpr ⟨machine, lookup_mem there, waiting, rfl⟩⟩
  let after : Receiver := { machine with committing := true, lastProgress := now }
  let marked : Link := { link with
    receivers := update Receiver.sendId machine.sendId (fun _ => after) link.receivers }
  have rest : (plane.putLink marked).claims ⊆ plane.claims :=
    claims_put_link mem (open_claims_update after there rfl (fun absurd => by cases absurd) rfl)
  rcases mem_append.mp listed with inLinks | inCommits
  · exact rest (mem_append_left _ inLinks)
  rw [finishCommit] at inCommits
  simp only [putLink, map_append, map_cons, map_nil, mem_append, mem_singleton] at inCommits
  rcases inCommits with old | new
  · exact mem_append_right _ old
  · rw [new]
    exact mine

end

theorem collision_none {destId : String} {nbytes : Int} {overwrite : Bool}
    (clear : plane.collision destId nbytes overwrite = none) :
    ∀ record ∈ plane.object destId, overwrite = true ∧ nbytes = record.sizeBytes := by
  intro record found
  unfold collision at clear
  rw [Option.mem_def.mp found] at clear
  dsimp only at clear
  split_ifs at clear with leased refused size
  exact ⟨Bool.eq_true_of_not_eq_false refused, (not_not.mp size).symm⟩

theorem open_receiver_permitted (permitted : Permitted plane) (allocator : SlabAllocator)
    (there : link ∈ plane.links)
    (clear : plane.collision machine.destId machine.expectBytes machine.overwrite = none) :
    Permitted (putLink { plane with allocator := allocator }
      { link with receivers := link.receivers ++ [machine] }) := by
  intro id record here claim listed names
  rcases mem_append.mp listed with inLinks | inCommits
  · obtain ⟨entry, mem, claimed⟩ := mem_flatMap.mp inLinks
    rcases mem_update mem with rfl | ⟨old, _⟩
    · obtain ⟨opened, inLink, waiting, same⟩ := mem_open_claims.mp claimed
      rcases mem_append.mp inLink with before | new
      · exact permitted id record here claim (mem_append_left _ (mem_flatMap.mpr
          ⟨link, there, mem_open_claims.mpr ⟨opened, before, waiting, same⟩⟩))
          names
      · rw [mem_singleton.mp new] at same
        subst same
        subst names
        exact collision_none clear record here
    · exact permitted id record here claim
        (mem_append_left _ (mem_flatMap.mpr ⟨entry, old, claimed⟩)) names
  · exact permitted id record here claim (mem_append_right _ inCommits) names

/-! ### steps on the catalog -/

theorem update_object_shrinks (id : String) (change : Resident → Resident)
    (keeps : ∀ record, (change record).id = record.id ∧
      (change record).sizeBytes = record.sizeBytes) : Shrinks plane (plane.updateObject id change) := by
  intro other record found
  by_cases same : other = id
  · subst same
    rw [Option.mem_def, object, updateObject,
      lookup_update_self fun record => (keeps record).1] at found
    obtain ⟨old, before, changed⟩ := Option.map_eq_some_iff.mp found
    exact ⟨old, before, changed ▸ ((keeps old).2).symm⟩
  · rw [Option.mem_def, object, updateObject,
      lookup_update_other (fun record => (keeps record).1) same] at found
    exact ⟨record, found, rfl⟩

theorem drop_record_shrinks (record : Resident) : Shrinks plane (plane.dropRecord record) := by
  intro id kept found
  refine ⟨kept, ?_, rfl⟩
  rw [Option.mem_def, object, dropRecord] at found
  by_cases same : id = record.id
  · subst same
    rw [lookup_remove_self] at found
    cases found
  · rwa [lookup_remove_other same] at found

section

variable (permitted : Permitted plane)
include permitted

theorem append_object_permitted (record : Resident)
    (objects : next.objects = plane.objects ++ [record]) (claims : next.claims ⊆ plane.claims)
    (allowed : Permits next.claims record.id record.sizeBytes) : Permitted next := by
  intro id found here claim listed names
  rw [Option.mem_def, object, objects, lookup_append_single] at here
  rcases Option.or_eq_some_iff.mp here with old | ⟨_, new⟩
  · exact permitted id found old claim (claims listed) names
  · split_ifs at new with same
    cases new
    exact allowed claim listed (names.trans same.symm)

theorem carve_permitted {id : String} {size : Int}
    (allowed : Permits plane.claims id size) (version : Nat) :
    Permitted (plane.carve id size version).plane := by
  unfold carve
  split
  · exact permitted
  · exact append_object_permitted permitted _ rfl (Subset.refl _) allowed

theorem drop_link_permitted (there : link ∈ plane.links) : Permitted (plane.dropLink link) := by
  unfold dropLink
  split_ifs
  · exact permitted.put_link { link with alive := false, receivers := [] } _ there
      (open_claims_sublist (nil_subset _))
  · exact permitted

theorem adopt_link_permitted (peer : String) : Permitted { plane with
      links := plane.links ++ [{ serial := plane.nextLink, peer := peer }]
      nextLink := plane.nextLink + 1 } := by
  refine permitted.mono ?objects ?claims
  case objects => exact Shrinks.of_eq rfl
  case claims =>
    intro claim listed
    simpa [claims, openClaims] using listed

/-! ### commits -/

variable {index : Nat}

omit permitted in
theorem claims_erase (links : next.links = plane.links)
    (commits : next.commits = plane.commits.eraseIdx index) : next.claims ⊆ plane.claims := by
  intro claim listed
  rw [claims, links, commits] at listed
  rcases mem_append.mp listed with inLinks | inCommits
  · exact mem_append_left _ inLinks
  · obtain ⟨commit, mem, same⟩ := mem_map.mp inCommits
    exact mem_append_right _ (mem_map.mpr ⟨commit, mem_of_mem_eraseIdx mem, same⟩)

theorem Permitted.commit {commit : Commit} {old : Resident} (here : plane.commits[index]? = some commit)
    (found : plane.object commit.destId = some old) :
    commit.overwrite = true ∧ commit.sizeBytes = old.sizeBytes :=
  permitted commit.destId old found commit.claim
    (mem_append_right _ (mem_map_of_mem (mem_of_getElem? here))) rfl

theorem adopt_inbound_permitted {commit : Commit}
    (here : plane.commits[index]? = some commit) (allowed : plane.object commit.destId = none →
      Permits { plane with commits := plane.commits.eraseIdx index }.claims commit.destId
        commit.sizeBytes) :
    Permitted (plane.adoptInbound index commit).plane := by
  unfold adoptInbound
  split
  · rename_i absent
    exact append_object_permitted permitted _ rfl (claims_erase rfl rfl) (allowed absent)
  rename_i old found
  split_ifs
  · exact permitted
  refine permitted.mono ?objects (claims_erase rfl rfl)
  let adopted : Resident := {
    id := commit.destId, sizeBytes := commit.sizeBytes, extent := commit.extent
    isProtected := old.isProtected, version := old.version + 1 }
  have key : adopted.id = commit.destId := rfl
  intro id record listed
  change lookup Resident.id id (update Resident.id commit.destId
    (fun _ => adopted) plane.objects) = some record at listed
  by_cases same : id = commit.destId
  · rw [same, lookup_write_self key found] at listed
    refine ⟨old, same ▸ found, ?_⟩
    rw [← (permitted.commit here found).2, ← Option.some.inj listed]
  · rw [lookup_write_other key same] at listed
    exact ⟨record, listed, rfl⟩

theorem commit_landed_permitted {key : String × String} :
    Permitted (plane.commitLanded index key) := by
  have called : Permitted { plane with landings := plane.landings.eraseIdx index } := permitted
  unfold commitLanded
  split
  · exact called
  rename_i link found
  apply called.put_link { link with
    receivers := remove Receiver.sendId key.2 link.receivers } plane.allocator
    (mem_of_find?_eq_some found)
  exact open_claims_sublist (filter_subset_self _)

/-! ### every interleaving -/

theorem Permitted.aside (objects : next.objects = plane.objects)
    (links : next.links = plane.links) (commits : next.commits = plane.commits) : Permitted next := by
  apply permitted.mono (Shrinks.of_eq objects)
  intro claim listed
  rwa [claims, links, commits] at listed

end

theorem keeps_permitted : Kept Uncontested Permitted where
  object permitted id change keeps := permitted.mono (update_object_shrinks id change fun record =>
    ⟨(keeps record).1, (keeps record).2.1⟩) (Subset.refl _)
  drop permitted _ := permitted.mono (drop_record_shrinks _) (Subset.refl _)
  peak _ permitted := permitted
  put permitted uncontested absent := carve_permitted permitted (uncontested absent) 1
  duplicate permitted uncontested found absent :=
    carve_permitted permitted (uncontested absent _ found) 0
  reader permitted _ found reader _ := put_reader_permitted permitted (lookup_mem found) reader
  stale _ _ found _ _ freed := abort_receiver_permitted freed (mem_write (link_serial found ▸ found)) _
  advance permitted found _ there _ _ := by
    refine permitted.put_link _ _ (lookup_mem found) (open_claims_update _ there ?_ ?_ rfl)
    · rfl
    · exact fun waiting => waiting
  accept permitted _ found _ _ clear _ _ _ :=
    open_receiver_permitted permitted _ (lookup_mem found) clear
  lose allocator permitted _ found _ :=
    permitted.put_link _ allocator (lookup_mem found) (Subset.refl _)
  done uncontested := uncontested
  settle permitted found _ there waiting :=
    ⟨abort_receiver_permitted permitted (lookup_mem found) _,
      finish_commit_permitted permitted (lookup_mem found) there waiting⟩
  rest := by
    intro plane request permitted uncontested other
    cases request with
    | allocTransient | freeTransient | allocScratch | releaseScratch =>
      simp only [step, allocTransient, freeTransient, allocScratch, releaseScratch]
      split
      · exact permitted
      · exact permitted.aside rfl rfl rfl
    | eof serial =>
      apply on_link_keeps permitted
      intro link found
      obtain rfl := link_serial found
      exact drop_link_permitted (put_reader_permitted permitted (lookup_mem found) .dead)
        (lookup_mem (put_link_lookup { link with reader := .dead } found))
    | tick serial now =>
      apply on_link_keeps permitted
      intro link found
      let stays := link.receivers.filter fun machine => !plane.timedOut machine now
      exact permitted.put_link { link with receivers := stays } _ (lookup_mem found)
        (open_claims_sublist (filter_subset_self _))
    | commit index =>
      simp only [step]
      split
      · exact permitted
      · rename_i commit here
        exact adopt_inbound_permitted permitted here (uncontested commit here)
    | landing index =>
      simp only [step]
      split
      · exact permitted
      · exact commit_landed_permitted permitted
    | connect peer =>
      show Permitted (plane.connect peer)
      unfold connect
      split
      · exact adopt_link_permitted permitted peer
      rename_i old found
      split_ifs
      · exact permitted
      · exact adopt_link_permitted (drop_link_permitted permitted (mem_of_find?_eq_some found)) peer
    | drop serial =>
      exact on_link_keeps permitted fun link found =>
        drop_link_permitted permitted (lookup_mem found)
    | probeReq serial nbytes =>
      apply on_idle_keeps permitted
      intro link found _
      unfold probeReq
      split
      · exact permitted
      · rename_i extent allocator _
        exact permitted.put_link { link with bwprobeExt := some ⟨nbytes, extent⟩ } allocator
          (lookup_mem found) (Subset.refl _)
    | probeDone serial =>
      apply on_idle_keeps permitted
      intro link found _
      unfold probeDone
      split
      · exact permitted
      · exact permitted.put_link { link with bwprobeExt := none } _ (lookup_mem found)
          (Subset.refl _)
    | _ => cases other

/-- Two transfers that overwrite one object of their size, and a third one to a new id. -/
def permittedHistory : List Request :=
  [.put "a" 4096, .connect "peer", .rts 0 "s1" "a" 4096 true (some 4096) false 0,
    .rts 0 "s2" "a" 4096 true none false 0, .rts 0 "s3" "b" 100 false (some 100) false 0,
    .commit 0, .landing 0, .commit 0, .done 0 "s2" false 0]

end Plane

end Dataflow.SlabPlane
