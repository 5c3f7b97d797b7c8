import Mathlib.Logic.Basic

/-!
# Computations in lockstep

Computations that change a state and may fail.  A computation runs in lockstep for a relation
between states when it does the same from any two states that are related: it ends with the
same value or the same error, and in states that are related again.  For a relation that is
only true of equal states this is an invariant, and for one that leaves parts of the states
open, those parts do not matter.
-/

namespace Eidolon.Library

universe u

variable {State Error Value Result : Type u} (computation : ExceptT Error (StateM State) Value)

/-- What a computation returns from a state, and the state it leaves. -/
def perform (state : State) : Except Error Value × State :=
  computation state

theorem perform_bind (continuation : Value → ExceptT Error (StateM State) Result) (state : State) :
    perform (computation >>= continuation) state =
      match perform computation state with
      | (.ok value, next) => perform (continuation value) next
      | (.error error, next) => (.error error, next) := by
  have unfolded : perform (computation >>= continuation) state =
      ExceptT.bindCont continuation (computation state).1 (computation state).2 :=
    rfl
  rw [unfolded]
  unfold perform
  rcases computation state with ⟨_ | value, next⟩
  · rfl
  rfl

theorem perform_tryCatch (handler : Error → ExceptT Error (StateM State) Value) (state : State) :
    perform (tryCatch computation handler) state =
      match perform computation state with
      | (.ok value, next) => (.ok value, next)
      | (.error error, next) => perform (handler error) next := by
  have unfolded : perform (tryCatch computation handler) state = (match (computation state).1 with
        | .ok value => Pure.pure (Except.ok value)
        | .error error => handler error : StateM State (Except Error Value))
          (computation state).2 :=
    rfl
  rw [unfolded]
  unfold perform
  rcases computation state with ⟨_ | value, next⟩
  · rfl
  rfl

/-- From related states a computation ends alike, with an allowed error if with one, and in
related states. -/
def Lockstep (related : State → State → Prop) (allowed : Error → Prop)
    (computation : ExceptT Error (StateM State) Value) : Prop :=
  ∀ first second, related first second →
    (perform computation first).1 = (perform computation second).1 ∧
      (∀ error, (perform computation first).1 = .error error → allowed error) ∧
      related (perform computation first).2 (perform computation second).2

namespace Lockstep

variable {related : State → State → Prop} {allowed : Error → Prop}

theorem pure (value : Value) :
    Lockstep related allowed (Pure.pure value : ExceptT Error (StateM State) Value) := by
  intro first second same
  refine ⟨rfl, ?_, same⟩
  intro error isError
  cases isError

theorem throw {error : Error} (isAllowed : allowed error) :
    Lockstep related allowed (MonadExcept.throw error : ExceptT Error (StateM State) Value) := by
  intro first second same
  refine ⟨rfl, ?_, same⟩
  intro other isError
  cases isError
  exact isAllowed

theorem bind {computation : ExceptT Error (StateM State) Value}
    {continuation : Value → ExceptT Error (StateM State) Result}
    (now : Lockstep related allowed computation)
    (later : ∀ value, Lockstep related allowed (continuation value)) :
    Lockstep related allowed (computation >>= continuation) := by
  intro first second same
  obtain ⟨alike, errors, next⟩ := now first second same
  rw [perform_bind, perform_bind]
  rcases firstRun : perform computation first with ⟨firstValue, firstNext⟩
  rcases secondRun : perform computation second with ⟨secondValue, secondNext⟩
  rw [firstRun] at alike errors next
  rw [secondRun] at alike next
  cases alike
  cases firstValue with
  | error error =>
    refine ⟨rfl, ?_, next⟩
    rintro _ ⟨⟩
    exact errors error rfl
  | ok value => exact later value firstNext secondNext next

theorem tryCatch {computation : ExceptT Error (StateM State) Value}
    {handler : Error → ExceptT Error (StateM State) Value}
    (tried : Lockstep related allowed computation)
    (caught : ∀ error, allowed error → Lockstep related allowed (handler error)) :
    Lockstep related allowed (MonadExcept.tryCatch computation handler) := by
  intro first second same
  obtain ⟨alike, errors, next⟩ := tried first second same
  rw [perform_tryCatch, perform_tryCatch]
  rcases firstRun : perform computation first with ⟨firstValue, firstNext⟩
  rcases secondRun : perform computation second with ⟨secondValue, secondNext⟩
  rw [firstRun] at alike errors next
  rw [secondRun] at alike next
  cases alike
  rcases firstValue with error | value
  · exact caught error (errors error rfl) firstNext secondNext next
  refine ⟨rfl, ?_, next⟩
  rintro _ ⟨⟩

theorem ite {condition : Prop} [Decidable condition] {yes no : ExceptT Error (StateM State) Value}
    (ifYes : condition → Lockstep related allowed yes)
    (ifNo : ¬ condition → Lockstep related allowed no) :
    Lockstep related allowed (if condition then yes else no) := by
  by_cases holds : condition
  · rw [if_pos holds]
    exact ifYes holds
  rw [if_neg holds]
  exact ifNo holds

end Lockstep

end Eidolon.Library
