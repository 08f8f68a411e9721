import Mathlib.Logic.Basic
import Mathlib.Data.List.Basic

/-!
Stopping state transformers. A transformer either reaches a next state or stops
with a fault; the stopped branch keeps the state it stopped in, because cleanup
code inspects exactly that state. `Ensures` is the two-exit postcondition, with
one rule for sequencing and one for loops over a list.
-/

namespace Dataflow.StatefulOutcome

open List

variable {State Fault Item Value : Type}

abbrev Outcome (Fault State : Type) : Type → Type := Except (Fault × State)

def Ensures (outcome : Outcome Fault State Value) (normal : Value → Prop)
    (stopped : Fault → State → Prop) : Prop :=
  match outcome with
  | .ok value => normal value
  | .error (fault, state) => stopped fault state

instance {outcome : Outcome Fault State Value} {normal : Value → Prop}
    {stopped : Fault → State → Prop} [∀ value, Decidable (normal value)]
    [∀ fault state, Decidable (stopped fault state)] : Decidable (Ensures outcome normal stopped) :=
  match outcome with
  | .ok value => inferInstanceAs (Decidable (normal value))
  | .error (fault, state) => inferInstanceAs (Decidable (stopped fault state))

/-- The same of the state on both exits. -/
abbrev Leaves (outcome : Outcome Fault State State) (post : State → Prop) : Prop :=
  Ensures outcome post fun _ => post

section Rules

variable {normal strong : State → Prop} {stopped weak : Fault → State → Prop}

@[simp] theorem ensures_ok (value : Value) (post : Value → Prop) :
    Ensures (.ok value : Outcome Fault State Value) post stopped ↔ post value :=
  Iff.rfl

@[simp] theorem ensures_error (fault : Fault) (state : State) (post : Value → Prop) :
    Ensures (.error (fault, state) : Outcome Fault State Value) post stopped ↔
      stopped fault state :=
  Iff.rfl

variable {Next : Type}

@[simp] theorem ok_bind (value : Value) (continue_ : Value → Outcome Fault State Next) :
    ((.ok value : Outcome Fault State Value) >>= continue_) = continue_ value :=
  rfl

@[simp] theorem error_bind (pair : Fault × State) (continue_ : Value → Outcome Fault State Next) :
    ((.error pair : Outcome Fault State Value) >>= continue_) = .error pair :=
  rfl

variable {outcome : Outcome Fault State Value}

theorem ensures_mono {post wider : Value → Prop}
    (holds : Ensures outcome post stopped) (widen : ∀ value, post value → wider value)
    (relax : ∀ fault state, stopped fault state → weak fault state) :
    Ensures outcome wider weak := by
  cases outcome with
  | ok value => exact widen value holds
  | error pair => exact relax pair.1 pair.2 holds

theorem leaves_mono {outcome : Outcome Fault State State} {post wider : State → Prop}
    (holds : Leaves outcome post) (widen : ∀ state, post state → wider state) : Leaves outcome wider :=
  ensures_mono holds widen fun _ => widen

theorem ensures_const {fact : Prop} (known : fact) :
    Ensures outcome (fun _ => fact) fun _ _ => True := by
  cases outcome with
  | ok value => exact known
  | error pair => trivial

theorem ensures_and {left right : Value → Prop} {leftStop rightStop : Fault → State → Prop}
    (first : Ensures outcome left leftStop) (second : Ensures outcome right rightStop) :
    Ensures outcome (fun value => left value ∧ right value)
      (fun fault state => leftStop fault state ∧ rightStop fault state) := by
  cases outcome with
  | ok value => exact ⟨first, second⟩
  | error pair => exact ⟨first, second⟩

theorem ensures_bind
    {continue_ : Value → Outcome Fault State Next} {middle : Value → Prop} {post : Next → Prop}
    (first : Ensures outcome middle stopped)
    (second : ∀ value, middle value → Ensures (continue_ value) post stopped) :
    Ensures (outcome >>= continue_) post stopped := by
  cases outcome with
  | ok value => exact second value first
  | error pair => exact first

theorem ensures_map {change : Value → Next} {post : Next → Prop}
    (holds : Ensures outcome (fun value => post (change value)) stopped) :
    Ensures (change <$> outcome) post stopped := by
  cases outcome with
  | ok value => exact holds
  | error pair => exact holds

theorem bind_congr_of {left right : Value → Outcome Fault State Next} {middle : Value → Prop}
    (first : Ensures outcome middle stopped) (agree : ∀ value, middle value → left value = right value) :
    (outcome >>= left) = (outcome >>= right) := by
  cases outcome with
  | ok value => exact agree value first
  | error pair => rfl

theorem bind_ok {outcome : Except Fault Value}
    {continue_ : Value → Except Fault Next} {result : Next} : (outcome >>= continue_) = .ok result ↔
      ∃ value, outcome = .ok value ∧ continue_ value = .ok result := by
  cases outcome with
  | ok value =>
    constructor
    · intro reached
      exact ⟨value, rfl, reached⟩
    · rintro ⟨found, same, reached⟩
      cases same
      exact reached
  | error pair =>
    constructor
    · intro reached
      cases reached
    · rintro ⟨found, same, _⟩
      cases same

variable {post : Value → Prop}

theorem exists_ok
    (holds : Ensures outcome post fun _ _ => False) : ∃ value, outcome = .ok value ∧ post value := by
  cases outcome with
  | ok value => exact ⟨value, rfl, holds⟩
  | error pair => exact holds.elim

theorem ensures_of_ok {value : Value} (reached : outcome = .ok value)
    (holds : Ensures outcome post stopped) : post value := by
  subst reached
  exact holds

theorem ensures_of_error {fault : Fault} {state : State} (halted : outcome = .error (fault, state))
    (holds : Ensures outcome post stopped) : stopped fault state := by
  subst halted
  exact holds

theorem ensures_foldlM (body : State → Item → Outcome Fault State State)
    (invariant : List Item → State → Prop)
    (step : ∀ item rest state, invariant (item :: rest) state →
      Ensures (body state item) (invariant rest) stopped)
    (items : List Item) (state : State) (start : invariant items state) :
    Ensures (items.foldlM body state) (invariant []) stopped := by
  induction items generalizing state with
  | nil => exact start
  | cons item rest ih =>
    exact ensures_bind (step item rest state start) (fun next held => ih next held)

theorem ensures_foldlM_const {post : Value → Prop} (body : Value → Item → Outcome Fault State Value)
    (items : List Item)
    (step : ∀ item ∈ items, ∀ value, post value → Ensures (body value item) post stopped)
    (value : Value) (start : post value) : Ensures (items.foldlM body value) post stopped := by
  induction items generalizing value with
  | nil => exact start
  | cons item rest ih =>
    exact ensures_bind (step item mem_cons_self value start)
      (fun next held => ih (forall_mem_cons.mp step).2
        next held)

end Rules

end Dataflow.StatefulOutcome
