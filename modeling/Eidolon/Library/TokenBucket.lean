import Eidolon.Library.Run

/-!
# Token buckets

What is spent along a run is bounded by the level at its start and what was added on the
way, when every single step stays within its level.
-/

namespace Eidolon.Library

universe u v

variable {State : Type u} {Input : Type v} {step : State → Input → State}

/-- The sum of an amount over the steps of a run. -/
def totalAlong (step : State → Input → State) (amount : State → Input → Nat) :
    State → List Input → Nat
  | _, [] => 0
  | state, input :: inputs => amount state input + totalAlong step amount (step state input) inputs

variable (amount : State → Input → Nat) (state : State)

@[simp]
theorem totalAlong_nil : totalAlong step amount state [] = 0 :=
  rfl

@[simp]
theorem totalAlong_cons (input : Input) (inputs : List Input) :
    totalAlong step amount state (input :: inputs) =
      amount state input + totalAlong step amount (step state input) inputs :=
  rfl

theorem totalAlong_append (first second : List Input) :
    totalAlong step amount state (first ++ second) = totalAlong step amount state first +
        totalAlong step amount (run step state first) second := by
  induction first generalizing state with
  | nil => exact (Nat.zero_add _).symm
  | cons input inputs ih =>
    rw [List.cons_append, totalAlong_cons, totalAlong_cons, ih, Nat.add_assoc]
    rfl

theorem level_add_spent_le {invariant : State → Prop} {assumes : State → Input → Prop}
    (level : State → Nat) (spent added : State → Input → Nat)
    (preserved : ∀ state input,
      invariant state → assumes state input → invariant (step state input))
    (paid : ∀ state input, invariant state → assumes state input →
      level (step state input) + spent state input ≤ level state + added state input)
    {start : State} {inputs : List Input} (initial : invariant start)
    (assumed : EachStep step assumes start inputs) :
    level (run step start inputs) + totalAlong step spent start inputs ≤
      level start + totalAlong step added start inputs := by
  induction inputs generalizing start with
  | nil => exact Nat.le_refl _
  | cons input inputs ih =>
    have now := paid start input initial assumed.1
    have later := ih (preserved start input initial assumed.1) assumed.2
    rw [run_cons, totalAlong_cons, totalAlong_cons]
    omega

theorem counter_run {invariant : State → Prop} {assumes : State → Input → Prop}
    (counter : State → Nat) (amount : State → Input → Nat) {greatest : Nat}
    (preserved : ∀ state input,
      invariant state → assumes state input → invariant (step state input))
    (counted : ∀ state input, invariant state → assumes state input →
      counter (step state input) = min (counter state + amount state input) greatest)
    {start : State} {inputs : List Input} (initial : invariant start)
    (atMost : counter start ≤ greatest) (assumed : EachStep step assumes start inputs) :
    counter (run step start inputs) =
      min (counter start + totalAlong step amount start inputs) greatest := by
  induction inputs generalizing start with
  | nil => exact (Nat.min_eq_left atMost).symm
  | cons input inputs ih =>
    have now := counted start input initial assumed.1
    have later := ih (preserved start input initial assumed.1)
      (by rw [now]; exact Nat.min_le_right _ _) assumed.2
    rw [run_cons, totalAlong_cons]
    omega

theorem totalAlong_rate {clock : State → Nat}
    (forward : ∀ state input, clock state ≤ clock (step state input)) (rate : Nat)
    (start : State) (inputs : List Input) :
    clock start ≤ clock (run step start inputs) ∧
      totalAlong step (fun state input => rate * (clock (step state input) - clock state)) start
        inputs = rate * (clock (run step start inputs) - clock start) := by
  induction inputs generalizing start with
  | nil => exact ⟨Nat.le_refl _, by rw [run_nil, Nat.sub_self]; rfl⟩
  | cons input inputs ih =>
    obtain ⟨later, total⟩ := ih (step start input)
    have now := forward start input
    have elapsed : clock (run step (step start input) inputs) - clock start =
        (clock (step start input) - clock start) +
          (clock (run step (step start input) inputs) - clock (step start input)) := by
      omega
    refine ⟨Nat.le_trans now later, ?_⟩
    rw [totalAlong_cons, total, run_cons, elapsed, Nat.mul_add]

end Eidolon.Library
