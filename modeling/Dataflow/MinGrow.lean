import Dataflow.PlannerVerdicts
import Dataflow.Policies

/-!
min_grow from the plan it picks to the chain it returns, its scan for offloads that a
task waits for, and which policies return chains that run. The search under a capacity
is a parameter; without a capacity `_v5_plan_search` takes the plan that keeps every
object in the pool.
-/

namespace Dataflow.Sim

open List

namespace MinGrow

def mutatorTasks (chain : TaskChain) (object : String) : List Nat :=
  chain.tasks.zipIdx.flatMap fun entry => replicate (entry.1.mutatesInputs.count object) entry.2

/-- `_max_plan`: one interval for each object, from where it can first be up to its last use. -/
def maxPlan (chain : TaskChain) : Plan :=
  (minPlan chain).map fun (object, intervals) =>
    let last := (intervals.map (·.b)).max?.getD 0
    let first := ((intervals.head?).map (·.a)).getD 0
    (object, [⟨if object ∈ chain.initialMemory.map (·.id) then -1
      else max (producerIdx chain object) first, last⟩])

section Derive

variable (chain : TaskChain) (object : String) (interval : Interval)

def within (task : Nat) : Bool := interval.a < task ∧ task ≤ interval.b

/-- `_first_use_in_interval`. -/
def firstUse : Int :=
  (((usesByObj chain object).find? (within interval)).map Int.ofNat).getD interval.b

/-- The start of a task when no transfer stalls it. -/
def tentativeStart (index : Nat) : ℚ := ((chain.tasks.take index).map (·.runtime)).sum

/-- `_smart_prefetch_task` for an interval that starts at a task. -/
def smartPrefetchTask : Nat :=
  match chain.bandwidthFromSlow with
  | none => interval.a.toNat
  | some bandwidth =>
    let use := firstUse chain object interval
    if bandwidth ≤ 0 ∨ use < 0 ∨ chain.tasks.length ≤ use then interval.a.toNat else
    let needed := max 1 ((bytesOf chain object : ℚ) / bandwidth).ceil
    -- a walk back that finds no lead time ends at the first task
    ((range (interval.a.toNat + 1)).reverse.find? fun task =>
      tentativeStart chain (task + 1) + needed ≤ tentativeStart chain use.toNat).getD 0

/-- A trigger on a task, with the key that orders it there. -/
structure Emitted where
  task : Nat
  object : String
  key : Int

def entry : Option Emitted :=
  if interval.a ≠ -1 ∧ interval.a ≠ producerIdx chain object ∧ 0 ≤ interval.a ∧
      interval.a < chain.tasks.length then
    some ⟨smartPrefetchTask chain object interval, object, firstUse chain object interval⟩
  else none

def mutatedIn : Bool := (mutatorTasks chain object).any (within interval)

/-- The trigger goes right after the last use or mutation, or where the interval starts. -/
def exit : Emitted :=
  let last := (((usesByObj chain object ++ mutatorTasks chain object).filter (within interval)).map
    Int.ofNat).foldl max interval.a
  ⟨min (chain.tasks.length - 1) last.toNat, object, interval.a⟩

def offloaded (final : Bool) : Bool :=
  mutatedIn chain object interval || (object ∉ chain.initialAt .backing && !final)

end Derive

def exits (chain : TaskChain) (plan : Plan) (offload : Bool) : List Emitted :=
  plan.flatMap fun (object, intervals) => intervals.zipIdx.filterMap fun (interval, index) =>
    if interval.b ≠ chain.tasks.length ∧
        offloaded chain object interval (index + 1 = intervals.length) = offload then
      some (exit chain object interval)
    else none

/-- What is mutated and still in the pool at the end goes back to where it came from. -/
def writebacks (chain : TaskChain) (plan : Plan) : List Emitted :=
  plan.filterMap fun (object, intervals) => (intervals.getLast?).bind fun last =>
    if object ∈ chain.initialAt .backing ∧ last.b = chain.tasks.length ∧
      mutatedIn chain object last then some ⟨chain.tasks.length - 1, object, last.a⟩ else none

/-- Without repeats, in the order of the keys; the key written last counts. -/
def sortedAt (emitted : List Emitted) (index : Nat) : List String :=
  let here := emitted.filter (·.task = index)
  let keyOf (object : String) : Int := ((here.reverse.find? (·.object = object)).map (·.key)).getD 0
  (here.map (·.object)).eraseDups.insertionSort fun first second =>
    keyOf first ≤ keyOf second

/-- `_derive_schedule`. -/
def deriveSchedule (chain : TaskChain) (plan : Plan) : Decisions where
  placed := (plan.filter fun (object, intervals) =>
    object ∈ chain.initialAt .backing ∧ intervals.any (·.a = -1)).map (·.1)
  directives index :=
    let fetched := sortedAt
      (plan.flatMap fun (object, intervals) => intervals.filterMap (entry chain object)) index
    let dropped := ((exits chain plan false).filter (·.task = index)).map (·.object)
    let saved := sortedAt (exits chain plan true ++ writebacks chain plan) index
    -- an object that leaves and comes back on one task stays
    let moves (object : String) : Bool := ¬ (object ∈ fetched ∧ object ∈ dropped ++ saved)
    { releases := (dropped.filter moves).eraseDups
      offloads := (saved.filter moves).map ({ objId := · })
      prefetches := (fetched.filter moves).map ({ objId := · }) }

def apply (bare : TaskChain) (searched : Plan) : Option TaskChain :=
  if bare.tasks.any fun task => ¬ (task.releasesAfter = [] ∧ task.offloadAfter = [] ∧
      task.prefetchAfter = []) then none
  else if infeasible bare .forcedPool then none
  else returned bare (deriveSchedule bare
    (if bare.fastMemoryCapacity.isNone then maxPlan bare else searched)) .minGrow

/-! ### round trips -/

/-- A location as a snapshot writes it. -/
def locationText : Location → String
  | .fast => "fast"
  | .backing => "backing"

/-- `dev_state`. -/
def devState (memory : List PoolEntry) (object : String) : Option MemoryState :=
  ((memory.filter fun entry => locationText entry.location = "compute").find?
    (·.id = object)).map (·.state)

def stallsBetween (annotated : TaskChain) (log : SimState) (prev cur : Dataflow.Interval) :
    List (String × String) :=
  if cur.start - prev.finish ≤ 0 then [] else
  match log.events.find? (prev.finish ≤ ·.t), annotated.tasks.find? (·.id = cur.name) with
  | some event, some task => (task.inputs.filter fun object =>
      devState event.memory object = some .pendingOutbound).map (cur.name, ·)
  | _, _ => []

/-- `_find_pending_outbound_stalls`; where the schedule cannot be derived or run there is
nothing to report. -/
def findPendingOutboundStalls (plan : Plan) (bare : TaskChain) : List (String × String) :=
  match returned bare (deriveSchedule bare plan) .minGrow with
  | none => []
  | some annotated =>
    match validateChain annotated, simulate annotated with
    | none, .ok log =>
      let compute := (log.intervals.filter (·.track = .compute)).insertionSort (·.start ≤ ·.start)
      (compute.zip compute.tail).flatMap fun (prev, cur) => stallsBetween annotated log prev cur
    | _, _ => []

/-- The simulator after the triggers of the first tasks have fired. -/
def simulateTasks (chain : TaskChain) (count : Nat) : Simulation SimState := do
  let loaded ← loadInitial chain
  (chain.tasks.zipIdx.take count).foldlM
    (fun state entry => runTask chain entry.2 entry.1 state) loaded

/-- The task after the first ones starts later than the last of them ended, and the object was
pending outbound in fast memory when the triggers of that one had fired. -/
def stallsOn (chain : TaskChain) (count : Nat) (task : Task) (object : String) : Bool :=
  match simulateTasks chain count, simulateTasks chain (count + 1) with
  | .ok before, .ok after =>
    decide (before.computeBusyUntil < after.computeBusyUntil - task.runtime) &&
      decide ((before.entry object .fast).map (·.state) = some .pendingOutbound)
  | _, _ => false

def RoundTrip (plan : Plan) (bare : TaskChain) (stall : String × String) : Prop :=
  ∃ annotated, returned bare (deriveSchedule bare plan) .minGrow = some annotated ∧
    runs annotated = true ∧ ∃ index task, annotated.tasks[index + 1]? = some task ∧
      task.id = stall.1 ∧ stall.2 ∈ task.inputs ∧ stallsOn annotated (index + 1) task stall.2 = true

theorem dev_state_none (memory : List PoolEntry) (object : String) :
    devState memory object = none := by
  have nowhere : memory.filter (fun entry => locationText entry.location = "compute") = [] := by
    refine filter_eq_nil_iff.mpr fun entry _ named => ?_
    cases location : entry.location <;> simp [location, locationText] at named
  rw [devState, nowhere]
  rfl

/-- No snapshot has an entry at a location of that name. -/
theorem finds_no_stalls (plan : Plan) (bare : TaskChain) :
    findPendingOutboundStalls plan bare = [] := by
  have between (annotated : TaskChain) (log : SimState) (prev cur : Dataflow.Interval) :
      stallsBetween annotated log prev cur = [] := by
    unfold stallsBetween
    split
    · rfl
    split
    · simp [dev_state_none]
    · rfl
  unfold findPendingOutboundStalls
  split
  · rfl
  split
  · simp [between]
  · rfl

theorem round_trips_found_iff (plan : Plan) (bare : TaskChain) :
    (∀ stall, RoundTrip plan bare stall → stall ∈ findPendingOutboundStalls plan bare) ↔
      ∀ stall, ¬ RoundTrip plan bare stall := by
  rw [finds_no_stalls]
  simp

/-- The offload of `a` keeps the stream busy while the fourth task waits for `x`. -/
def busyOffload : TaskChain where
  initialMemory := [{ id := "a", size := 10 }, { id := "x", size := 1 }]
  tasks := [{ id := "t0", inputs := ["a"], mutatesInputs := ["a"], runtime := 1 },
    { id := "t1", runtime := 1 }, { id := "t2", runtime := 1 },
    { id := "t3", inputs := ["x"], runtime := 1 }]
  bandwidthFromSlow := some 1
  bandwidthToSlow := some 1

def roundTripPlan : Plan := [("a", [⟨-1, 0⟩]), ("x", [⟨-1, 0⟩, ⟨2, 4⟩])]

theorem round_trip_missed : RoundTrip roundTripPlan busyOffload ("t3", "x") ∧
    ("t3", "x") ∉ findPendingOutboundStalls roundTripPlan busyOffload := by
  refine ⟨⟨{ busyOffload with tasks := [
    { id := "t0", inputs := ["a"], mutatesInputs := ["a"], runtime := 1
      offloadAfter := [{ objId := "a" }, { objId := "x" }] },
    { id := "t1", runtime := 1, prefetchAfter := [{ objId := "x" }] },
    { id := "t2", runtime := 1 }, { id := "t3", inputs := ["x"], runtime := 1 }] }, ?_⟩, ?_⟩
  · exact ⟨by decide +kernel, by decide +kernel, 2, { id := "t3", inputs := ["x"], runtime := 1 },
      rfl, rfl, by decide +kernel⟩
  · decide +kernel

end MinGrow

/-- The policies that simulate what they return; without a capacity pressurefit simulates its
plan before it restores the workspaces. -/
def Verifies (bare : TaskChain) : Policy → Prop
  | .beladyReactive | .roundtripPlanner => True
  | .pressurefit => bare.fastMemoryCapacity.isSome
  | .slidingWindow | .maxReduce | .minGrow => False

/-- The object is read once and is to be in fast memory at the end. -/
def stayingInput : TaskChain where
  initialMemory := [{ id := "x", size := 1, location := .backing }]
  tasks := [{ id := "t", inputs := ["x"] }]
  finalLocations := [("x", .fast)]

end Dataflow.Sim
