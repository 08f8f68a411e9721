import Mathlib.Data.List.Basic
import Mathlib.Data.Fintype.Basic

/-!
Two daemons that dial each other: `connect`, `accept_loop`, `adopt_link` and the part of
`drop_link` that concerns the link itself, of `service/peer/nm.py`. `connect` looks for a
link, dials, sends HELLO and adopts the connection when the HELLO of the other side has come;
the accept thread takes one connection at a time, answers its HELLO and adopts it. A daemon
that adopts a connection while it has a link keeps the old one if its name is the smaller,
and the new one otherwise. A reader that finds its connection closed drops the link.
-/

namespace Dataflow.Glare

open List

/-- The two daemons, by the order of their names. -/
inductive Side where
  | smaller
  | larger
  deriving DecidableEq

instance : Fintype Side := ⟨{.smaller, .larger}, fun side => by cases side <;> simp⟩

def Side.other : Side → Side
  | .smaller => .larger
  | .larger => .smaller

structure Connection where
  dialer : Side
  /-- The HELLO of the accepting side has been sent. -/
  answered : Bool := false
  /-- `adopt_link` has been called with it. -/
  handed : Side → Bool := fun _ => false
  closedBy : Side → Bool := fun _ => false

structure Daemon where
  link : Option Nat := none
  /-- Calls of `connect` that found no link and have not dialed yet. -/
  dialing : Nat := 0
  /-- The connection whose HELLO the accept thread has answered and not yet adopted. -/
  accepting : Option Nat := none
  deriving DecidableEq

structure World where
  daemon : Side → Daemon := fun _ => {}
  connections : List Connection := []

inductive Move where
  | connect (side : Side)
  | dial (side : Side)
  | answer (index : Nat)
  | adoptAccepted (side : Side)
  | adoptDialed (index : Nat)
  /-- The reader of the link finds its connection closed by the other side. -/
  | notice (side : Side)
  deriving DecidableEq

namespace World

def setDaemon (world : World) (side : Side) (daemon : Daemon) : World :=
  { world with daemon := fun other => if other = side then daemon else world.daemon other }

def setConnection (world : World) (index : Nat) (change : Connection → Connection) : World :=
  { world with connections := world.connections.modify index change }

def setLink (world : World) (side : Side) (link : Option Nat) : World :=
  world.setDaemon side { world.daemon side with link := link }

def close (world : World) (side : Side) (index : Nat) : World :=
  world.setConnection index fun connection =>
    { connection with closedBy := fun other => other = side || connection.closedBy other }

def adoptLink (world : World) (side : Side) (index : Nat) : World :=
  let taken := world.setConnection index fun connection =>
    { connection with handed := fun other => other = side || connection.handed other }
  match (world.daemon side).link with
  | none => taken.setLink side (some index)
  | some old =>
    if side = .smaller then taken.close side index
    else (taken.close side old).setLink side (some index)

/-- One move; `none` when it is not possible. -/
def step (world : World) : Move → Option World
  | .connect side =>
    let daemon := world.daemon side
    some (if daemon.link.isSome then world
      else world.setDaemon side { daemon with dialing := daemon.dialing + 1 })
  | .dial side =>
    let daemon := world.daemon side
    if daemon.dialing = 0 then none
    else
      let dialed := world.setDaemon side { daemon with dialing := daemon.dialing - 1 }
      some { dialed with connections := world.connections ++ [{ dialer := side }] }
  | .answer index =>
    match world.connections[index]? with
    | none => none
    | some connection =>
      let side := connection.dialer.other
      if connection.answered || (world.daemon side).accepting.isSome then none
      else
        let answered := world.setConnection index fun connection =>
          { connection with answered := true }
        some (answered.setDaemon side { world.daemon side with accepting := some index })
  | .adoptAccepted side =>
    match (world.daemon side).accepting with
    | none => none
    | some index =>
      some ((world.setDaemon side { world.daemon side with accepting := none }).adoptLink side index)
  | .adoptDialed index =>
    match world.connections[index]? with
    | none => none
    | some connection =>
      if connection.answered && !connection.handed connection.dialer then
        some (world.adoptLink connection.dialer index)
      else none
  | .notice side =>
    match (world.daemon side).link with
    | none => none
    | some index =>
      if world.connections[index]?.any fun connection => connection.closedBy side.other then
        some ((world.close side index).setLink side none)
      else none

def run (world : World) (moves : List Move) : Option World := moves.foldlM step world

/-- No `connect` is under way and both sides have called `adopt_link` with every connection. -/
def Settled (world : World) : Prop :=
  (∀ side, (world.daemon side).dialing = 0) ∧
    ∀ connection ∈ world.connections, ∀ side, connection.handed side = true

instance (world : World) : Decidable world.Settled :=
  inferInstanceAs (Decidable (_ ∧ _))

/-- A connect that finds no link begins while nothing else is under way. -/
def Timely (world : World) : Move → Prop
  | .connect side => (world.daemon side).link = none → world.Settled
  | _ => True

def TimelyRun : World → List Move → Prop
  | _, [] => True
  | world, move :: rest => world.Timely move ∧ ∀ next ∈ world.step move, TimelyRun next rest

/-- At most one connection is ever dialed; a side has it as its link once it has adopted it. -/
structure Single (world : World) : Prop where
  one : world.connections.length + (world.daemon .smaller).dialing +
    (world.daemon .larger).dialing ≤ 1
  linked : ∀ side, (world.daemon side).link =
    bif world.connections.any fun connection => connection.handed side then some 0 else none
  accepting : ∀ side index, (world.daemon side).accepting = some index →
    index = 0 ∧ ∃ connection, world.connections = [connection] ∧ connection.dialer = side.other ∧
      connection.answered = true ∧ connection.handed side = false
  handed : ∀ connection ∈ world.connections, ∀ side, connection.handed side = true →
    connection.answered = true
  kept : ∀ connection ∈ world.connections, ∀ side, connection.closedBy side = false

variable {world : World}

theorem Single.alone (single : world.Single) :
    world.connections = [] ∨ ∃ connection, world.connections = [connection] := by
  have one := single.one
  match listed : world.connections with
  | [] => exact .inl rfl
  | [connection] => exact .inr ⟨connection, rfl⟩
  | _ :: _ :: _ => simp [listed] at one; omega

variable {connection : Connection}

theorem Single.only (single : world.Single) {index : Nat}
    (found : world.connections[index]? = some connection) :
    index = 0 ∧ world.connections = [connection] := by
  rcases single.alone with empty | ⟨other, listed⟩
  · simp [empty] at found
  · cases index with
    | zero => simpa [listed] using found
    | succ index => simp [listed] at found

theorem Single.adopt {side : Side}
    (single : world.Single) (listed : world.connections = [connection])
    (answered : connection.answered = true) (fresh : connection.handed side = false)
    (free : (world.daemon side).accepting = none) : (world.adoptLink side 0).Single := by
  obtain ⟨daemon, connections⟩ := world
  obtain rfl := listed
  obtain ⟨one, linked, accepting, handed, kept⟩ := single
  have unlinked : (daemon side).link = none := by simpa [fresh] using linked side
  simp only [adoptLink, unlinked, setLink, setDaemon, setConnection, modify_zero_cons] at *
  constructor
  · cases side <;> simpa using one
  · intro other
    by_cases mine : other = side
    · simp [mine]
    · simpa [mine] using linked other
  · intro other index
    by_cases mine : other = side
    · simp [mine, free]
    · simpa [mine] using accepting other index
  · simp [answered]
  · simpa using kept

theorem Single.set {side : Side} {daemon : Daemon} (single : world.Single)
    (link : daemon.link = (world.daemon side).link)
    (taken : daemon.accepting = none ∨ daemon.accepting = (world.daemon side).accepting)
    (one : world.connections.length + ((world.setDaemon side daemon).daemon .smaller).dialing +
      ((world.setDaemon side daemon).daemon .larger).dialing ≤ 1) :
    (world.setDaemon side daemon).Single where
  one := one
  linked other := by
    by_cases mine : other = side
    · subst mine
      simpa [setDaemon, link] using single.linked other
    · simpa [setDaemon, mine] using single.linked other
  accepting other index held := single.accepting other index (by
    by_cases mine : other = side
    · rcases taken with taken | taken <;> simp_all [setDaemon]
    · simpa [setDaemon, mine] using held)
  handed := single.handed
  kept := single.kept

theorem Single.dialed (single : world.Single) {side : Side}
    (empty : world.connections = []) (quiet : ∀ side, (world.daemon side).dialing = 0) :
    Single { world with connections := [{ dialer := side }] } where
  one := by simp [quiet]
  linked other := by simpa [empty] using single.linked other
  accepting other index held := by simpa [empty] using single.accepting other index held
  handed := by simp
  kept := by simp

theorem Single.answer (single : world.Single)
    (listed : world.connections = [connection]) (first : connection.answered = false) :
    ((world.setConnection 0 fun connection => { connection with answered := true }).setDaemon
      connection.dialer.other { world.daemon connection.dialer.other with
        accepting := some 0 }).Single := by
  obtain ⟨daemon, connections⟩ := world
  obtain rfl := listed
  obtain ⟨one, linked, accepting, handed, kept⟩ := single
  have fresh : ∀ side, connection.handed side = false := fun side => by
    simpa [first] using handed connection (by simp) side
  simp only [setDaemon, setConnection, modify_zero_cons] at *
  constructor
  · cases way : connection.dialer <;> simpa [Side.other] using one
  · intro other
    by_cases mine : other = connection.dialer.other
    · simpa [mine] using linked _
    · simpa [mine] using linked other
  · intro other index
    by_cases mine : other = connection.dialer.other
    · rintro held
      obtain rfl : 0 = index := by simpa [mine] using held
      refine ⟨rfl, _, rfl, ?_, rfl, fresh other⟩
      cases way : connection.dialer <;> simp [mine, way, Side.other]
    · intro held
      obtain ⟨_, same, listed, _, answered, _⟩ := accepting other index (by simpa [mine] using held)
      cases listed
      cases first.symm.trans answered
  · simp
  · simpa using kept

theorem Single.step {world next : World} {move : Move} (single : world.Single)
    (timely : world.Timely move) (stepped : world.step move = some next) : next.Single := by
  have one := single.one
  cases move with dsimp only [World.step] at stepped
  | connect side =>
    cases stepped
    split_ifs with found
    · exact single
    · have settled := timely (Option.not_isSome_iff_eq_none.mp found)
      have empty : world.connections = [] := by
        rcases single.alone with empty | ⟨connection, listed⟩
        · exact empty
        · have handed := settled.2 connection (by simp [listed]) side
          simp [single.linked side, listed, handed] at found
      have quiet := settled.1
      exact single.set rfl (.inr rfl) (by cases side <;> simp [setDaemon, empty, quiet])
  | dial side =>
    split_ifs at stepped with idle
    cases stepped
    have empty : world.connections = [] := eq_nil_of_length_eq_zero (by cases side <;> omega)
    have ended : ∀ other, ((world.setDaemon side { world.daemon side with
        dialing := (world.daemon side).dialing - 1 }).daemon other).dialing = 0 := by
      intro other
      cases side <;> cases other <;> simp [setDaemon] <;> omega
    have begun : (world.setDaemon side { world.daemon side with
        dialing := (world.daemon side).dialing - 1 }).Single :=
      single.set rfl (.inr rfl) (by simp [ended, empty])
    rw [empty]
    exact begun.dialed empty ended
  | answer index =>
    split at stepped
    · cases stepped
    · rename_i connection found
      obtain ⟨rfl, listed⟩ := single.only found
      split_ifs at stepped with busy
      cases stepped
      simp only [Bool.or_eq_true, not_or, Bool.not_eq_true, Option.isSome_eq_false_iff,
        Option.isNone_iff_eq_none] at busy
      exact single.answer listed busy.1
  | adoptAccepted side =>
    split at stepped
    · cases stepped
    · rename_i index taken
      cases stepped
      obtain ⟨rfl, connection, listed, _, answered, fresh⟩ := single.accepting side index taken
      have freed : (world.setDaemon side { world.daemon side with accepting := none }).Single :=
        single.set rfl (.inl rfl) (by cases side <;> simpa [setDaemon] using one)
      exact freed.adopt listed answered fresh (by simp [setDaemon])
  | adoptDialed index =>
    split at stepped
    · cases stepped
    · rename_i connection found
      obtain ⟨rfl, listed⟩ := single.only found
      split_ifs at stepped with ready
      cases stepped
      simp only [Bool.and_eq_true, Bool.not_eq_true'] at ready
      refine single.adopt listed ready.1 ready.2
        (Option.eq_none_iff_forall_ne_some.mpr fun index taken => ?_)
      -- the accept thread of the dialer has no connection: the only one is its own
      obtain ⟨_, other, same, dialer, _⟩ := single.accepting _ index taken
      cases listed.symm.trans same
      cases way : connection.dialer <;> simp [way, Side.other] at dialer
  | notice side =>
    split at stepped
    · cases stepped
    · rename_i index linked
      split_ifs at stepped with closed
      obtain ⟨connection, found, closed⟩ := (Option.any_eq_true _ _).mp closed
      have kept := single.kept connection (mem_of_getElem? found) side.other
      simp [kept] at closed

theorem Single.run {world final : World} (single : world.Single) {moves : List Move}
    (timely : world.TimelyRun moves) (reached : world.run moves = some final) : final.Single := by
  induction moves generalizing world with
  | nil =>
    cases reached
    exact single
  | cons move rest ih =>
    obtain ⟨next, stepped, rested⟩ := Option.bind_eq_some_iff.mp reached
    exact ih (single.step timely.1 stepped) (timely.2 next stepped) rested

theorem initial_single : ({} : World).Single where
  one := by simp
  linked := by simp
  accepting := nofun
  handed := nofun
  kept := nofun

end World

/-- When every connect that finds no link begins while nothing else is under way, both
daemons have the same link once all is settled, and they have one if any was dialed. -/
theorem links_agree (moves : List Move) (world : World) (reached : ({} : World).run moves = some world)
    (timely : ({} : World).TimelyRun moves) (settled : world.Settled) :
    (world.daemon .smaller).link = (world.daemon .larger).link ∧
      (world.connections ≠ [] → (world.daemon .smaller).link.isSome = true) := by
  have single := World.initial_single.run timely reached
  rw [single.linked, single.linked]
  rcases single.alone with empty | ⟨connection, listed⟩
  · simp [empty]
  · have handed := settled.2 connection (by simp [listed])
    simp [listed, handed]

/-- One connect of the larger daemon, refused by the smaller one as already linked. -/
def oneDial : List Move :=
  [.connect .larger, .dial .larger, .answer 0, .adoptAccepted .smaller, .connect .smaller,
    .adoptDialed 0]

theorem links_agree_one_dial : ∃ world, ({} : World).run oneDial = some world ∧ world.Settled ∧
      (world.daemon .smaller).link = (world.daemon .larger).link := by
  have timely : ({} : World).TimelyRun oneDial := by
    refine ⟨fun _ => by decide, ?_⟩
    rintro _ ⟨⟩
    iterate 3 (refine ⟨trivial, ?_⟩; rintro _ ⟨⟩)
    refine ⟨nofun, ?_⟩
    rintro _ ⟨⟩
    exact ⟨trivial, fun _ _ => trivial⟩
  have settled : ∀ world ∈ ({} : World).run oneDial, world.Settled := by decide
  exact ⟨_, rfl, settled _ rfl, (links_agree oneDial _ rfl timely (settled _ rfl)).1⟩

/-- Both daemons dial before either has a link, and both adopt the connection of the smaller
one first: the smaller keeps it and closes the other, the larger replaces it. Each has closed
the link of the other, so no link is left once the readers have noticed. -/
def glare : List Move :=
  [.connect .smaller, .connect .larger, .dial .smaller, .dial .larger, .answer 0, .answer 1,
    .adoptDialed 0, .adoptAccepted .smaller, .adoptAccepted .larger, .adoptDialed 1]

theorem glare_disagrees : (({} : World).run glare).map (fun world => ((world.daemon .smaller).link,
        (world.daemon .larger).link)) = some (some 0, some 1) ∧
      (∀ world ∈ ({} : World).run glare, world.Settled) ∧
      (({} : World).run (glare ++ [.notice .smaller, .notice .larger])).map (fun world =>
        ((world.daemon .smaller).link, (world.daemon .larger).link)) = some (none, none) := by
  decide

end Dataflow.Glare
