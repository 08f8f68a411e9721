import Mathlib.Data.List.Basic

/-!
One program run from two related states. A program that reads its state only
through operations that answer alike from related states answers alike itself:
equal values and related states, or the same fault. There is one rule for each
way programs are put together; a relation between programs with these rules is
a congruence.
-/

namespace Dataflow.Lockstep

variable {State Other Fault Value Result : Type}

def Alike (relation : State → Other → Prop) :
    Except Fault (Value × State) → Except Fault (Value × Other) → Prop
  | .ok (value, state), .ok (answer, other) => value = answer ∧ relation state other
  | .error fault, .error reason => fault = reason
  | _, _ => False

def Agrees (relation : State → Other → Prop) (first : StateT State (Except Fault) Value)
    (second : StateT Other (Except Fault) Value) : Prop :=
  ∀ state other, relation state other → Alike relation (first state) (second other)

variable {relation : State → Other → Prop} {first : StateT State (Except Fault) Value}
  {second : StateT Other (Except Fault) Value}

theorem agrees_pure (value : Value) :
    Agrees relation (pure value : StateT State (Except Fault) Value)
      (pure value : StateT Other (Except Fault) Value) :=
  fun _ _ related => ⟨rfl, related⟩

theorem agrees_lift (run : Except Fault Value) :
    Agrees relation (StateT.lift run : StateT State (Except Fault) Value)
      (StateT.lift run : StateT Other (Except Fault) Value) := by
  intro state other related
  cases run with
  | ok value => exact ⟨rfl, related⟩
  | error fault => rfl

variable {next : Value → StateT State (Except Fault) Result}

theorem Agrees.bind
    {after : Value → StateT Other (Except Fault) Result} (alike : Agrees relation first second)
    (rest : ∀ value, Agrees relation (next value) (after value)) :
    Agrees relation (first >>= next) (second >>= after) := by
  intro state other related
  have begun := alike state other related
  change Alike relation (Except.bind (first state) fun pair => next pair.1 pair.2)
    (Except.bind (second other) fun pair => after pair.1 pair.2)
  -- the second program goes on exactly when the first one does
  cases left : first state with
  | error fault =>
    cases right : second other with
    | error reason => rw [left, right] at begun; exact begun
    | ok answer => rw [left, right] at begun; exact begun.elim
  | ok pair =>
    cases right : second other with
    | error reason => rw [left, right] at begun; exact begun.elim
    | ok answer =>
      obtain ⟨value, later⟩ := pair
      obtain ⟨_, otherLater⟩ := answer
      rw [left, right] at begun
      obtain ⟨rfl, stillRelated⟩ := begun
      exact rest value later otherLater stillRelated

structure Congruence (State Other Fault : Type) where
  rel : ∀ {Value : Type}, StateT State (Except Fault) Value → StateT Other (Except Fault) Value → Prop
  pure : ∀ {Value : Type} (value : Value), rel (pure value) (pure value)
  lift : ∀ {Value : Type} (run : Except Fault Value), rel (StateT.lift run) (StateT.lift run)
  bind : ∀ {Value Result : Type} {first : StateT State (Except Fault) Value}
    {second : StateT Other (Except Fault) Value} {next : Value → StateT State (Except Fault) Result}
    {after : Value → StateT Other (Except Fault) Result}, rel first second →
    (∀ value, rel (next value) (after value)) → rel (first >>= next) (second >>= after)

def agreement (relation : State → Other → Prop) : Congruence State Other Fault :=
  ⟨Agrees relation, agrees_pure, agrees_lift, Agrees.bind⟩

variable {state later : State} {value : Value}

theorem bind_ok
    {result : Result} (ran : (first >>= next) state = .ok (result, later)) :
    ∃ value middle, first state = .ok (value, middle) ∧ next value middle = .ok (result, later) := by
  change Except.bind (first state) (fun pair => next pair.1 pair.2) = .ok (result, later) at ran
  cases begun : first state with
  | error fault => rw [begun] at ran; cases ran
  | ok pair => rw [begun] at ran; exact ⟨pair.1, pair.2, rfl, ran⟩

theorem lift_ok {run : Except Fault Value}
    (ran : StateT.lift run state = .ok (value, later)) : run = .ok value ∧ state = later := by
  cases run with
  | error fault => cases ran
  | ok answer => exact ⟨congrArg _ (Prod.mk.inj (Except.ok.inj ran)).1, (Prod.mk.inj (Except.ok.inj ran)).2⟩

/-- What a program says, without the state it leaves. -/
def outcome (program : StateT State (Except Fault) Value) (state : State) : Except Fault Value :=
  (program state).map Prod.fst

theorem Agrees.outcome {other : Other} (alike : Agrees relation first second)
    (related : relation state other) : outcome first state = outcome second other := by
  have answers := alike state other related
  unfold Lockstep.outcome
  cases left : first state <;> cases right : second other <;> rw [left, right] at answers
  · exact congrArg Except.error answers
  · exact answers.elim
  · exact answers.elim
  · exact congrArg Except.ok answers.1

end Dataflow.Lockstep
