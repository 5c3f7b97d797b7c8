import Mathlib.Logic.Basic

/-!
# Runs of a deterministic step function

A component is a step function that takes a state and one input, where an input
also carries the choices of the environment.  A run is a list of inputs.  This
module isolates the one induction used for every property of runs: what a single
step preserves under a condition on its input, a whole run preserves when all its
steps meet that condition.
-/

namespace Eidolon.Library

open List

universe u v

variable {State : Type u} {Input : Type v}

/-- The state reached by a list of inputs. -/
def run (step : State → Input → State) : State → List Input → State
  | state, [] => state
  | state, input :: inputs => run step (step state input) inputs

variable (step : State → Input → State) (state : State)

@[simp]
theorem run_nil : run step state [] = state :=
  rfl

@[simp]
theorem run_cons (input : Input) (inputs : List Input) :
    run step state (input :: inputs) = run step (step state input) inputs :=
  rfl

theorem run_append (first second : List Input) :
    run step state (first ++ second) = run step (run step state first) second := by
  induction first generalizing state with
  | nil => rfl
  | cons input inputs ih => exact ih (step state input)

/-- `holds` is true in the start state and in every state a run passes through. -/
def Throughout (step : State → Input → State) (holds : State → Prop) : State → List Input → Prop
  | state, [] => holds state
  | state, input :: inputs => holds state ∧ Throughout step holds (step state input) inputs

/-- Every step of a run is taken in a state and on an input related by `meets`. -/
def EachStep (step : State → Input → State) (meets : State → Input → Prop) :
    State → List Input → Prop
  | _, [] => True
  | state, input :: inputs => meets state input ∧ EachStep step meets (step state input) inputs

variable {step : State → Input → State} {state : State} {holds : State → Prop}

@[simp]
theorem throughout_nil : Throughout step holds state [] ↔ holds state :=
  Iff.rfl

variable {inputs : List Input}

@[simp]
theorem throughout_cons {input : Input} : Throughout step holds state (input :: inputs) ↔
      holds state ∧ Throughout step holds (step state input) inputs :=
  Iff.rfl

variable {meets : State → Input → Prop}

@[simp]
theorem eachStep_nil : EachStep step meets state [] :=
  trivial

@[simp]
theorem eachStep_cons {input : Input} : EachStep step meets state (input :: inputs) ↔
      meets state input ∧ EachStep step meets (step state input) inputs :=
  Iff.rfl

/-- A condition that can be decided at each step can be decided along a run. -/
instance EachStep.decidable {step : State → Input → State} {meets : State → Input → Prop}
    [∀ state input, Decidable (meets state input)] :
    ∀ (state : State) (inputs : List Input), Decidable (EachStep step meets state inputs)
  | _, [] => .isTrue trivial
  | state, input :: inputs => @instDecidableAnd _ _ _ (EachStep.decidable (step state input) inputs)

theorem eachStep_append (state : State) (first second : List Input) :
    EachStep step meets state (first ++ second) ↔
      EachStep step meets state first ∧ EachStep step meets (run step state first) second := by
  induction first generalizing state with
  | nil => exact (and_iff_right trivial).symm
  | cons input inputs ih =>
    rw [cons_append, eachStep_cons, eachStep_cons, ih, and_assoc]
    rfl

theorem eachStep_of_forall {step : State → Input → State} {meets : Input → Prop}
    {inputs : List Input} (all : ∀ input ∈ inputs, meets input) (start : State) :
    EachStep step (fun _ input => meets input) start inputs := by
  induction inputs generalizing start with
  | nil => trivial
  | cons input inputs ih =>
    exact ⟨all input mem_cons_self, ih (fun later here => all later (mem_cons_of_mem input here)) _⟩

theorem eachStep_congr {first second : State → Input → Prop}
    (same : ∀ state input, first state input ↔ second state input) (start : State)
    (inputs : List Input) :
    EachStep step first start inputs ↔ EachStep step second start inputs := by
  induction inputs generalizing start with
  | nil => exact Iff.rfl
  | cons input inputs ih => rw [eachStep_cons, eachStep_cons, same, ih]

theorem EachStep.imp {weaker : State → Input → Prop}
    (weaken : ∀ state input, meets state input → weaker state input)
    (met : EachStep step meets state inputs) : EachStep step weaker state inputs := by
  induction inputs generalizing state with
  | nil => trivial
  | cons input inputs ih => exact ⟨weaken state input met.1, ih met.2⟩

theorem EachStep.and {first second : State → Input → Prop}
    (firstMet : EachStep step first state inputs) (secondMet : EachStep step second state inputs) :
    EachStep step (fun state input => first state input ∧ second state input) state inputs := by
  induction inputs generalizing state with
  | nil => trivial
  | cons input inputs ih => exact ⟨⟨firstMet.1, secondMet.1⟩, ih firstMet.2 secondMet.2⟩

theorem Throughout.start (always : Throughout step holds state inputs) : holds state := by
  cases inputs with
  | nil => exact always
  | cons input inputs => exact always.1

theorem Throughout.run {step : State → Input → State} {holds : State → Prop} {state : State}
    {inputs : List Input} (always : Throughout step holds state inputs) :
    holds (Library.run step state inputs) := by
  induction inputs generalizing state with
  | nil => exact always
  | cons input inputs ih => exact ih always.2

theorem Throughout.eachStep (always : Throughout step holds state inputs) :
    EachStep step (fun state input => holds state ∧ holds (step state input)) state inputs := by
  induction inputs generalizing state with
  | nil => trivial
  | cons input inputs ih => exact ⟨⟨always.1, always.2.start⟩, ih always.2⟩

theorem Throughout.imp {weaker : State → Prop} (weaken : ∀ state, holds state → weaker state)
    (always : Throughout step holds state inputs) : Throughout step weaker state inputs := by
  induction inputs generalizing state with
  | nil => exact weaken state always
  | cons input inputs ih => exact ⟨weaken state always.1, ih always.2⟩

variable {start : State} {invariant : State → Prop}

/-- A step that keeps `invariant` under `meets` keeps it along every run whose
steps all meet `meets`. -/
theorem throughout_of_eachStep
    (preserved : ∀ state input, invariant state → meets state input → invariant (step state input))
    (initial : invariant start) (steps : EachStep step meets start inputs) :
    Throughout step invariant start inputs := by
  induction inputs generalizing start with
  | nil => exact initial
  | cons input inputs ih =>
    exact ⟨initial, ih (preserved start input initial steps.1) steps.2⟩

/-- When a step that is taken as assumed keeps `invariant` and does what it should from a
state that has it, every step of a run does. -/
theorem eachStep_of_invariant {assumes does : State → Input → Prop} (preserved : ∀ state input,
      invariant state → assumes state input → invariant (step state input))
    (correct : ∀ state input, invariant state → assumes state input → does state input)
    (initial : invariant start) (assumed : EachStep step assumes start inputs) :
    EachStep step does start inputs := by
  induction inputs generalizing start with
  | nil => trivial
  | cons input inputs ih =>
    rcases assumed with ⟨now, later⟩
    exact ⟨correct start input initial now, ih (preserved start input initial now) later⟩

/-- When a step taken as assumed from a state with the invariant does what it should
exactly if it meets `meets`, every step of a run does exactly if every step meets it. -/
theorem eachStep_iff_of_invariant {assumes does : State → Input → Prop} (preserved : ∀ state input,
      invariant state → assumes state input → does state input → invariant (step state input))
    (exactly : ∀ state input, invariant state → assumes state input →
      (does state input ↔ meets state input)) (initial : invariant start)
    (assumed : EachStep step assumes start inputs) :
    EachStep step does start inputs ↔ EachStep step meets start inputs := by
  induction inputs generalizing start with
  | nil => exact Iff.rfl
  | cons input inputs ih =>
    rcases assumed with ⟨now, laterAssumed⟩
    have exactStep := exactly start input initial now
    rw [eachStep_cons, exactStep]
    apply and_congr_right
    intro met
    have nextInvariant := preserved start input initial now (exactStep.mpr met)
    exact ih nextInvariant laterAssumed

theorem throughout_of_preserved {step : State → Input → State} {invariant : State → Prop}
    (preserved : ∀ state input, invariant state → invariant (step state input)) {start : State}
    (initial : invariant start) (inputs : List Input) : Throughout step invariant start inputs := by
  induction inputs generalizing start with
  | nil => exact initial
  | cons input inputs ih => exact ⟨initial, ih (preserved start input initial)⟩

/-- When a step from a good state stays good exactly if it meets `meets`, a run
stays good throughout exactly if all its steps meet `meets`.  `invariant` is what
holds of the good states on the way and is kept by good steps. -/
theorem throughout_iff_eachStep {step : State → Input → State}
    {meets : State → Input → Prop} {invariant holds : State → Prop}
    (preserved : ∀ state input, invariant state → holds state → invariant (step state input))
    (exactly : ∀ state input, invariant state → holds state →
      (holds (step state input) ↔ meets state input))
    {start : State} (initial : invariant start) (good : holds start)
    (inputs : List Input) :
    Throughout step holds start inputs ↔ EachStep step meets start inputs := by
  induction inputs generalizing start with
  | nil => exact iff_of_true good trivial
  | cons input inputs ih =>
    have nextInvariant := preserved start input initial good
    constructor
    · intro always
      rcases always with ⟨_, later⟩
      exact ⟨(exactly start input initial good).mp later.start,
        (ih nextInvariant later.start).mp later⟩
    intro steps
    rcases steps with ⟨met, later⟩
    have nextGood := (exactly start input initial good).mpr met
    exact ⟨good, (ih nextInvariant nextGood).mpr later⟩

theorem throughout_iff_eachStep_of_exact (good : holds start)
    (exactly : ∀ state input, holds state → (holds (step state input) ↔ meets state input))
    (inputs : List Input) :
    Throughout step holds start inputs ↔ EachStep step meets start inputs := by
  have noInvariant : ∀ state input,
      True → holds state → (holds (step state input) ↔ meets state input) :=
    fun state input _ => exactly state input
  exact throughout_iff_eachStep (fun _ _ _ _ => trivial) noInvariant trivial good inputs

theorem throughout_iff_eachStep_of_assumed {step : State → Input → State}
    {assumes meets : State → Input → Prop} {invariant holds : State → Prop}
    (preserved : ∀ state input,
      invariant state → assumes state input → invariant (step state input))
    (exactly : ∀ state input, invariant state → assumes state input → holds state →
      (holds (step state input) ↔ meets state input))
    {start : State} (initial : invariant start) (good : holds start)
    {inputs : List Input} (assumed : EachStep step assumes start inputs) :
    Throughout step holds start inputs ↔ EachStep step meets start inputs := by
  induction inputs generalizing start with
  | nil => exact iff_of_true good trivial
  | cons input inputs ih =>
    rcases assumed with ⟨now, laterAssumed⟩
    have exactStep := exactly start input initial now good
    have nextInvariant := preserved start input initial now
    constructor
    · intro always
      rcases always with ⟨_, later⟩
      exact ⟨exactStep.mp later.start, (ih nextInvariant later.start laterAssumed).mp later⟩
    intro steps
    rcases steps with ⟨met, later⟩
    have nextGood := exactStep.mpr met
    exact ⟨good, (ih nextInvariant nextGood laterAssumed).mpr later⟩

theorem throughout_and_eachStep_iff {assumes does : State → Input → Prop}
    (preserved : ∀ state input,
      invariant state → assumes state input → invariant (step state input))
    (exactly : ∀ state input, invariant state → assumes state input → holds state →
      (holds (step state input) ∧ does state input ↔ meets state input))
    (initial : invariant start) (good : holds start)
    (assumed : EachStep step assumes start inputs) :
    (Throughout step holds start inputs ∧ EachStep step does start inputs) ↔
      EachStep step meets start inputs := by
  induction inputs generalizing start with
  | nil => exact iff_of_true ⟨good, trivial⟩ trivial
  | cons input inputs ih =>
    rcases assumed with ⟨now, laterAssumed⟩
    have exactStep := exactly start input initial now good
    have nextInvariant := preserved start input initial now
    constructor
    · intro both
      rcases both with ⟨⟨_, later⟩, done, laterDone⟩
      exact ⟨exactStep.mp ⟨later.start, done⟩,
        (ih nextInvariant later.start laterAssumed).mp ⟨later, laterDone⟩⟩
    intro steps
    rcases steps with ⟨met, laterMet⟩
    rcases exactStep.mpr met with ⟨nextGood, done⟩
    rcases (ih nextInvariant nextGood laterAssumed).mpr laterMet with
      ⟨later, laterDone⟩
    exact ⟨⟨good, later⟩, done, laterDone⟩

end Eidolon.Library
