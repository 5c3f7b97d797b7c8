import Mathlib.Data.Fintype.EquivFin
import Mathlib.Data.Stream.Init
import Eidolon.Core.BehaviorTree
import Eidolon.Library.Acyclic

/-!
# Behaviour trees that finish

The evaluation of a tree returns if nothing it comes to leads back to itself.  Conversely the
leaves can be fed the statuses that take it round a cycle forever, or to any other index.
-/

namespace Eidolon.Core

open Eidolon.Library List Nat Relation

variable {Memory : Type}

section Finishing

variable {tree : BehaviorTree} {leaves : Leaves Memory} {state : BtState Memory}

/-- An evaluation of the tree in which every node so far returned what is prescribed. -/
def BtState.Follows (state : BtState Memory) (tree : BehaviorTree) : Prop :=
  state.tree.nodeType? = tree.nodeType? ∧ ∀ visit ∈ state.visits, tree.Evaluates visit

theorem BtState.Follows.leave (follows : state.Follows tree) {nodeIdx : UInt16}
    {children : List BtStatus} {status : BtStatus}
    (evaluates : tree.Evaluates ⟨nodeIdx, children, status⟩) :
    (state.leave nodeIdx children status).Follows tree := by
  constructor
  · rw [BtState.nodeType?_leave]
    exact follows.1
  intro visit visited
  rcases List.mem_cons.mp visited with rfl | earlier
  · exact evaluates
  exact follows.2 visit earlier

theorem BehaviorTree.evaluates_of_single {nodeIdx : UInt16} {nodeType : BtNodeType}
    (added : nodeIdx.toNat < tree.count) (found : tree.nodeType? nodeIdx.toNat = some nodeType)
    (single : nodeType.composite? = none) (children : List BtStatus) (status : BtStatus) :
    tree.Evaluates ⟨nodeIdx, children, status⟩ := by
  refine ⟨added, ?_⟩
  intro other goOn startIdx count sameFound composite
  obtain rfl : nodeType = other := Option.some.inj (found.symm.trans sameFound)
  rw [single] at composite
  cases composite

/-- With enough depth, the node is evaluated to a status that it can return. -/
def Returns (tree : BehaviorTree) (leaves : Leaves Memory) (index : Nat) : Prop :=
  ∀ (nodeIdx : UInt16) (state : BtState Memory), nodeIdx.toNat = index →
    state.Follows tree → ∃ bound status after,
      (∀ depth, bound ≤ depth → evalNode leaves depth nodeIdx state = .ok (status, after)) ∧
        after.Follows tree ∧ CanReturn tree.nodeType? index status

variable {index : Nat}

theorem returns_outside (outside : tree.nodeType? index = none) : Returns tree leaves index := by
  rintro nodeIdx state rfl follows
  refine ⟨1, .failure, state, ?_, follows, CanReturn.outside outside⟩
  intro depth enough
  obtain ⟨less, rfl⟩ := Nat.exists_eq_add_of_le' enough
  rw [evalNode, follows.1, outside]

theorem returns_condition {conditionId : UInt16} (added : index < tree.count)
    (found : tree.nodeType? index = some (.condition conditionId)) : Returns tree leaves index := by
  rintro nodeIdx state rfl follows
  let answer := leaves.evalCondition state.memory conditionId
  let status : BtStatus := if answer.1 then .success else .failure
  refine ⟨1, status, { state with memory := answer.2 }.leave nodeIdx [] status, ?_, ?_,
    CanReturn.condition answer.1 found⟩
  · intro depth enough
    obtain ⟨less, rfl⟩ := Nat.exists_eq_add_of_le' enough
    rw [evalNode, follows.1, found]
  have kept : { state with memory := answer.2 }.Follows tree := follows
  exact kept.leave (BehaviorTree.evaluates_of_single added found rfl [] status)

theorem returns_action {actionId : UInt16} (added : index < tree.count)
    (found : tree.nodeType? index = some (.action actionId)) : Returns tree leaves index := by
  rintro nodeIdx state rfl follows
  let answer := leaves.evalAction state.memory actionId
  refine ⟨1, answer.1, { state with memory := answer.2 }.leave nodeIdx [] answer.1, ?_, ?_,
    CanReturn.action answer.1 found⟩
  · intro depth enough
    obtain ⟨less, rfl⟩ := Nat.exists_eq_add_of_le' enough
    rw [evalNode, follows.1, found]
  have kept : { state with memory := answer.2 }.Follows tree := follows
  exact kept.leave (BehaviorTree.evaluates_of_single added found rfl [] answer.1)

theorem returns_inverter {child : UInt16} (added : index < tree.count)
    (found : tree.nodeType? index = some (.inverter child))
    (childReturns : Returns tree leaves child.toNat) : Returns tree leaves index := by
  rintro nodeIdx state rfl follows
  obtain ⟨bound, status, after, returned, followsAfter, canReturn⟩ :=
    childReturns child state rfl follows
  refine ⟨bound + 1, status.inverted, after.leave nodeIdx [status] status.inverted, ?_, ?_,
    CanReturn.inverter found canReturn⟩
  · intro depth enough
    obtain ⟨less, rfl⟩ := Nat.exists_eq_add_of_le' (Nat.le_trans (Nat.le_add_left 1 _) enough)
    have foundNow : state.tree.nodeType? nodeIdx.toNat = some (.inverter child) := by
      rw [follows.1, found]
    rw [evalNode_inverter foundNow, returned less (by omega)]
    rfl
  exact followsAfter.leave
    (BehaviorTree.evaluates_of_single added found rfl [status] status.inverted)

theorem evalChildren_returns {goOn : BtStatus} {startIdx : UInt16} {count : Nat}
    (childReturns : ∀ i < count, (∀ j < i, CanReturn tree.nodeType? (startIdx.toNat + j) goOn) →
        startIdx.toNat + i < 2 ^ 16 ∧ Returns tree leaves (startIdx.toNat + i))
    {remaining i : Nat} (all : i + remaining = count) (follows : state.Follows tree)
    (wentOn : ∀ j < i, CanReturn tree.nodeType? (startIdx.toNat + j) goOn) :
    ∃ bound children status after, (∀ depth, bound ≤ depth →
        evalChildren (evalNode leaves depth) goOn startIdx remaining i state =
          .ok (children, status, after)) ∧
      after.Follows tree ∧ Prescribes goOn remaining children status ∧ ((status = goOn ∧
            ∀ j < count, CanReturn tree.nodeType? (startIdx.toNat + j) goOn) ∨
          ∃ stop < count, (∀ j < stop, CanReturn tree.nodeType? (startIdx.toNat + j) goOn) ∧
            CanReturn tree.nodeType? (startIdx.toNat + stop) status ∧ status ≠ goOn) := by
  induction remaining generalizing i state with
  | zero =>
    refine ⟨0, [], goOn, state, fun depth _ => rfl, follows, .inl ⟨rfl, rfl⟩, .inl ⟨rfl, ?_⟩⟩
    rw [← all]
    exact wentOn
  | succ remaining ih =>
    obtain ⟨inside, returns⟩ := childReturns i (by omega) wentOn
    obtain ⟨bound, childStatus, after, returned, followsAfter, canReturn⟩ :=
      returns _ state (startIdx_add_toNat inside) follows
    by_cases stops : childStatus ≠ goOn
    · refine ⟨bound, [childStatus], childStatus, after, ?_, followsAfter,
        .inr ⟨⟨0, succ_pos _, rfl⟩, stops⟩,
        .inr ⟨i, by omega, wentOn, canReturn, stops⟩⟩
      intro depth enough
      rw [evalChildren, if_pos inside, returned depth enough]
      exact if_pos stops
    have same : childStatus = goOn := Decidable.of_not_not stops
    subst same
    have wentOnNow : ∀ j < i + 1, CanReturn tree.nodeType? (startIdx.toNat + j) childStatus := by
      intro j before
      rcases Nat.lt_succ_iff_lt_or_eq.mp before with earlier | rfl
      · exact wentOn j earlier
      exact canReturn
    obtain ⟨later, children, status, final, finished, followsFinal, prescribed, can⟩ :=
      ih (by omega) followsAfter wentOnNow
    refine ⟨max bound later, childStatus :: children, status, final, ?_, followsFinal,
      prescribed.cons, can⟩
    intro depth enough
    rw [evalChildren, if_pos inside, returned depth (by omega)]
    change (if childStatus ≠ childStatus then _ else _) = _
    rw [if_neg stops, finished depth (by omega)]
    rfl

theorem returns_composite {nodeType : BtNodeType} {goOn : BtStatus} {startIdx count : UInt16}
    (added : index < tree.count) (found : tree.nodeType? index = some nodeType)
    (composite : nodeType.composite? = some (goOn, startIdx, count))
    (childReturns : ∀ i < count.toNat,
      (∀ j < i, CanReturn tree.nodeType? (startIdx.toNat + j) goOn) →
        startIdx.toNat + i < 2 ^ 16 ∧ Returns tree leaves (startIdx.toNat + i)) :
    Returns tree leaves index := by
  rintro nodeIdx state rfl follows
  obtain ⟨bound, children, status, after, finished, followsAfter, prescribes, can⟩ :=
    evalChildren_returns childReturns (Nat.zero_add _) follows
      (fun j before => absurd before (not_lt_zero j))
  have evaluates : tree.Evaluates ⟨nodeIdx, children, status⟩ := by
    refine ⟨added, ?_⟩
    intro other otherGoOn otherStart otherCount sameFound otherComposite
    obtain rfl : nodeType = other := Option.some.inj (found.symm.trans sameFound)
    cases composite.symm.trans otherComposite
    exact prescribes
  refine ⟨bound + 1, status, after.leave nodeIdx children status, ?_,
    followsAfter.leave evaluates, ?_⟩
  · intro depth enough
    obtain ⟨less, rfl⟩ := Nat.exists_eq_add_of_le' (Nat.le_trans (Nat.le_add_left 1 _) enough)
    have foundNow : state.tree.nodeType? nodeIdx.toNat = some nodeType := by
      rw [follows.1, found]
    rw [evalNode_composite foundNow composite, finished less (by omega)]
    rfl
  rcases can with ⟨rfl, allGoOn⟩ | ⟨stop, before, wentOn, canReturn, stops⟩
  · exact CanReturn.exhausted found composite allGoOn
  exact CanReturn.stopped found composite before wentOn canReturn stops

theorem returns_of_leadsTo (added : index < tree.count)
    (childReturns : ∀ next, LeadsTo tree.nodeType? index next →
      next < 2 ^ 16 ∧ Returns tree leaves next) : Returns tree leaves index := by
  rcases found : tree.nodeType? index with _ | nodeType
  · exact returns_outside found
  cases nodeType with
  | condition conditionId => exact returns_condition added found
  | action actionId => exact returns_action added found
  | inverter child =>
    exact returns_inverter added found (childReturns _ (LeadsTo.inverter found)).2
  | _ =>
    refine returns_composite added found rfl ?_
    intro i before wentOn
    exact childReturns _ (LeadsTo.child found rfl before wentOn)

/-- Every index come to returns: the nodes come to are finitely many and none leads back
to itself, so what a node leads to can be assumed to return. -/
theorem BehaviorTree.WellLinked.returns (linked : tree.WellLinked) (leaves : Leaves Memory)
    (added : tree.count ≠ 0) (rootAdded : tree.rootIndex.toNat < tree.count)
    (reached : ReflTransGen (LeadsTo tree.nodeType?) tree.rootIndex.toNat index) :
    Returns tree leaves index := by
  let Reached := ReflTransGen (LeadsTo tree.nodeType?) tree.rootIndex.toNat
  let edge : Fin behaviorTreeCapacity → Fin behaviorTreeCapacity → Prop :=
    fun first second => Reached first ∧ LeadsTo tree.nodeType? first second
  have acyclic : Acyclic edge := by
    intro node cycle
    have start : Reached node := by
      obtain ⟨_, step, _⟩ := TransGen.head'_iff.mp cycle
      exact step.1
    have lifted : TransGen (LeadsTo tree.nodeType?) node.val node.val :=
      cycle.lift Fin.val (fun _ _ step => step.2)
    exact (linked added rootAdded node start).1 lifted
  have inside : ∀ node : Fin behaviorTreeCapacity, Reached node → Returns tree leaves node := by
    intro node
    induction node using acyclic.wellFounded.induction with
    | _ node ih =>
      intro start
      have come := linked added rootAdded node start
      refine returns_of_leadsTo (come.2.2.resolve_right (not_le.mpr node.isLt)) ?_
      intro next step
      have nextCome := linked added rootAdded next (start.tail step)
      refine ⟨nextCome.2.1, ?_⟩
      by_cases within : next < behaviorTreeCapacity
      · exact ih ⟨next, within⟩ ⟨start, step⟩ (start.tail step)
      exact returns_outside (tree.nodeType?_eq_none (Nat.le_of_not_lt within))
  by_cases within : index < behaviorTreeCapacity
  · exact inside ⟨index, within⟩ reached
  exact returns_outside (tree.nodeType?_eq_none (Nat.le_of_not_lt within))

theorem BehaviorTree.finishesTicks_of_wellLinked (linked : tree.WellLinked) :
    tree.FinishesTicks := by
  intro Memory leaves memory
  by_cases unset : tree.count = 0 ∨ tree.count ≤ tree.rootIndex.toNat
  · refine ⟨0, .failure, ⟨tree, memory, []⟩, ?_, ?_⟩
    · intro depth _
      exact if_pos unset
    intro visit visited
    cases visited
  have added : tree.count ≠ 0 := fun empty => unset (.inl empty)
  have rootAdded : tree.rootIndex.toNat < tree.count :=
    Nat.lt_of_not_le fun beyond => unset (.inr beyond)
  have start : (⟨tree, memory, []⟩ : BtState Memory).Follows tree := by
    refine ⟨rfl, ?_⟩
    intro visit visited
    cases visited
  obtain ⟨bound, status, state, returned, follows, _⟩ :=
    linked.returns leaves added rootAdded ReflTransGen.refl tree.rootIndex
      ⟨tree, memory, []⟩ rfl start
  refine ⟨bound, status, state, ?_, follows.2⟩
  intro depth enough
  exact (if_neg unset).trans (returned depth enough)

end Finishing

theorem ok_of_bind_ok {α β ε : Type} {first : Except ε α} {next : α → Except ε β} {result : β}
    (done : first.bind next = .ok result) :
    ∃ middle, first = .ok middle ∧ next middle = .ok result := by
  cases first with
  | error stop => cases done
  | ok middle => exact ⟨middle, rfl, done⟩

variable {status : BtStatus}

theorem evalChildren_cases
    {evalChild : UInt16 → BtState Memory → Except BtStop (BtStatus × BtState Memory)}
    {goOn : BtStatus} {startIdx : UInt16} {remaining i : Nat} {state after : BtState Memory}
    {children : List BtStatus}
    (returned : evalChildren evalChild goOn startIdx (remaining + 1) i state =
      .ok (children, status, after)) :
    startIdx.toNat + i < 2 ^ 16 ∧ ∃ childStatus middle,
        evalChild (startIdx + UInt16.ofNat i) state = .ok (childStatus, middle) ∧
          ((childStatus ≠ goOn ∧ status = childStatus ∧ after = middle) ∨
            (childStatus = goOn ∧ ∃ later,
              evalChildren evalChild goOn startIdx remaining (i + 1) middle =
                .ok (later, status, after))) := by
  rw [evalChildren] at returned
  by_cases inside : startIdx.toNat + i < 2 ^ 16
  · rw [if_pos inside] at returned
    obtain ⟨⟨childStatus, middle⟩, evaluated, rest⟩ := ok_of_bind_ok returned
    refine ⟨inside, childStatus, middle, evaluated, ?_⟩
    by_cases stops : childStatus ≠ goOn
    · have done : (.ok ([childStatus], childStatus, middle) : Except BtStop _) =
          .ok (children, status, after) := (if_pos stops).symm.trans rest
      cases done
      exact .inl ⟨stops, rfl, rfl⟩
    have loop := (if_neg stops).symm.trans rest
    obtain ⟨⟨later, laterStatus, final⟩, wentOn, done⟩ := ok_of_bind_ok loop
    cases done
    exact .inr ⟨Decidable.of_not_not stops, later, wentOn⟩
  rw [if_neg inside] at returned
  cases returned

def BtState.Extends (state after : BtState Memory) : Prop :=
  after.tree.nodeType? = state.tree.nodeType? ∧ state.visits ⊆ after.visits

namespace BtState.Extends

theorem refl (state : BtState Memory) : state.Extends state :=
  ⟨rfl, List.Subset.refl _⟩

theorem trans {first second third : BtState Memory} (earlier : first.Extends second)
    (later : second.Extends third) : first.Extends third :=
  ⟨later.1.trans earlier.1, List.Subset.trans earlier.2 later.2⟩

theorem leave {state after : BtState Memory} (kept : state.Extends after)
    (nodeIdx : UInt16) (children : List BtStatus) (status : BtStatus) :
    state.Extends (after.leave nodeIdx children status) := by
  refine kept.trans ⟨BtState.nodeType?_leave after nodeIdx children status, ?_⟩
  exact subset_cons_self _ _

end BtState.Extends

theorem evalChildren_extends
    {evalChild : UInt16 → BtState Memory → Except BtStop (BtStatus × BtState Memory)}
    (childExtends : ∀ {nodeIdx : UInt16} {state after : BtState Memory} {status : BtStatus},
      evalChild nodeIdx state = .ok (status, after) → state.Extends after) {goOn : BtStatus}
    {startIdx : UInt16} {remaining i : Nat} {state after : BtState Memory}
    {children : List BtStatus}
    (returned : evalChildren evalChild goOn startIdx remaining i state =
      .ok (children, status, after)) : state.Extends after := by
  induction remaining generalizing i state children with
  | zero =>
    cases returned
    exact BtState.Extends.refl _
  | succ remaining ih =>
    obtain ⟨_, childStatus, middle, evaluated, ⟨_, _, rfl⟩ | ⟨_, later, wentOn⟩⟩ :=
      evalChildren_cases returned
    · exact childExtends evaluated
    exact (childExtends evaluated).trans (ih wentOn)

theorem evalNode_cases {leaves : Leaves Memory} {depth : Nat} {nodeIdx : UInt16}
    {state after : BtState Memory}
    (returned : evalNode leaves depth nodeIdx state = .ok (status, after)) :
    (state.tree.nodeType? nodeIdx.toNat = none ∧ after = state) ∨
      ∃ middle children, state.Extends middle ∧ after = middle.leave nodeIdx children status := by
  induction depth generalizing nodeIdx state after status with
  | zero => cases returned
  | succ depth ih =>
    have childExtends : ∀ {nodeIdx : UInt16} {state after : BtState Memory}
        {status : BtStatus}, evalNode leaves depth nodeIdx state = .ok (status, after) →
          state.Extends after := by
      intro nodeIdx state after status evaluated
      rcases ih evaluated with ⟨_, rfl⟩ | ⟨middle, children, kept, rfl⟩
      · exact BtState.Extends.refl after
      exact kept.leave nodeIdx children status
    have ofComposite : ∀ {nodeType goOn startIdx count},
        state.tree.nodeType? nodeIdx.toNat = some nodeType →
          nodeType.composite? = some (goOn, startIdx, count) →
            ∃ middle children, state.Extends middle ∧
              after = middle.leave nodeIdx children status := by
      intro nodeType goOn startIdx count found composite
      rw [evalNode_composite found composite] at returned
      obtain ⟨⟨children, inner, middle⟩, evaluated, done⟩ := ok_of_bind_ok returned
      cases done
      exact ⟨middle, children, evalChildren_extends childExtends evaluated, rfl⟩
    rcases found : state.tree.nodeType? nodeIdx.toNat with _ | nodeType
    · rw [evalNode, found] at returned
      cases returned
      exact .inl ⟨rfl, rfl⟩
    refine .inr ?_
    cases nodeType with
    | condition conditionId =>
      rw [evalNode, found] at returned
      cases returned
      exact ⟨{ state with memory := (leaves.evalCondition state.memory conditionId).2 },
        [], ⟨rfl, List.Subset.refl _⟩, rfl⟩
    | action actionId =>
      rw [evalNode, found] at returned
      cases returned
      exact ⟨{ state with memory := (leaves.evalAction state.memory actionId).2 }, [],
        ⟨rfl, List.Subset.refl _⟩, rfl⟩
    | inverter child =>
      rw [evalNode_inverter found] at returned
      obtain ⟨⟨inner, middle⟩, evaluated, done⟩ := ok_of_bind_ok returned
      cases done
      exact ⟨middle, [inner], childExtends evaluated, rfl⟩
    | _ => exact ofComposite found rfl

theorem evalNode_extends {leaves : Leaves Memory} {depth : Nat} {nodeIdx : UInt16}
    {state after : BtState Memory}
    (returned : evalNode leaves depth nodeIdx state = .ok (status, after)) :
    state.Extends after := by
  rcases evalNode_cases returned with ⟨_, rfl⟩ | ⟨middle, children, kept, rfl⟩
  · exact BtState.Extends.refl after
  exact kept.leave nodeIdx children status

section Feeding

variable {types : Nat → Option BtNodeType}

def fedLeaves : Leaves (Stream' BtStatus) where
  evalAction fed _ := (fed.head, fed.tail)
  evalCondition fed _ := (fed.head = .success, fed.tail)

def Drives (types : Nat → Option BtNodeType) (fed : List BtStatus) (index : Nat)
    (status : BtStatus) : Prop :=
  ∀ depth (nodeIdx : UInt16) (state after : BtState (Stream' BtStatus)) rest returned,
    nodeIdx.toNat = index → state.tree.nodeType? = types → state.memory = fed ++ₛ rest →
      evalNode fedLeaves depth nodeIdx state = .ok (returned, after) →
        returned = status ∧ after.memory = rest

variable {status : BtStatus}

theorem evalChildren_advance {fed : Nat → List BtStatus} {goOn : BtStatus} {startIdx : UInt16}
    {depth : Nat} {passed more i : Nat}
    (driven : ∀ j < i + passed, Drives types (fed j) (startIdx.toNat + j) goOn)
    {state after : BtState (Stream' BtStatus)} (kept : state.tree.nodeType? = types)
    {rest : Stream' BtStatus}
    (memory : state.memory = (List.range' i passed).flatMap fed ++ₛ rest)
    {children : List BtStatus}
    (returned : evalChildren (evalNode fedLeaves depth) goOn startIdx (passed + more) i state =
      .ok (children, status, after)) :
    ∃ later middle, state.Extends middle ∧ middle.memory = rest ∧
      evalChildren (evalNode fedLeaves depth) goOn startIdx more (i + passed) middle =
        .ok (later, status, after) := by
  induction passed generalizing i state children with
  | zero =>
    refine ⟨children, state, BtState.Extends.refl state, memory, ?_⟩
    rw [Nat.zero_add] at returned
    exact returned
  | succ passed ih =>
    rw [succ_add] at returned
    obtain ⟨inside, childStatus, middle, evaluated, outcome⟩ := evalChildren_cases returned
    have split : state.memory = fed i ++ₛ ((List.range' (i + 1) passed).flatMap fed ++ₛ rest) := by
      rw [memory, range'_succ, flatMap_cons, Stream'.append_append_stream]
    obtain ⟨rfl, memoryLeft⟩ := driven i (by omega) depth _ state middle _ childStatus
      (startIdx_add_toNat inside) kept split evaluated
    have extended := evalNode_extends evaluated
    rcases outcome with ⟨stops, _⟩ | ⟨_, later, wentOn⟩
    · exact absurd rfl stops
    obtain ⟨last, final, extendedLater, memoryFinal, finished⟩ :=
      ih (fun j before => driven j (by omega)) (extended.1.trans kept) memoryLeft wentOn
    refine ⟨last, final, extended.trans extendedLater, memoryFinal, ?_⟩
    rw [add_succ, ← succ_add]
    exact finished

/-- With the children before it driven, a composite node evaluates the child, and stops
there if it does not go on. -/
theorem evalNode_child {fed : Nat → List BtStatus} {depth : Nat} {nodeIdx : UInt16}
    {nodeType : BtNodeType} {goOn : BtStatus} {startIdx count : UInt16} {i : Nat}
    (found : types nodeIdx.toNat = some nodeType)
    (composite : nodeType.composite? = some (goOn, startIdx, count)) (before : i < count.toNat)
    (driven : ∀ j < i, Drives types (fed j) (startIdx.toNat + j) goOn)
    {state after : BtState (Stream' BtStatus)} (kept : state.tree.nodeType? = types)
    {rest : Stream' BtStatus} (memory : state.memory = (List.range' 0 i).flatMap fed ++ₛ rest)
    (returned : evalNode fedLeaves (depth + 1) nodeIdx state = .ok (status, after)) :
    startIdx.toNat + i < 2 ^ 16 ∧
      ∃ middle childStatus inner, middle.tree.nodeType? = types ∧ middle.memory = rest ∧
        evalNode fedLeaves depth (startIdx + UInt16.ofNat i) middle = .ok (childStatus, inner) ∧
          inner.Extends after ∧
            (childStatus ≠ goOn → status = childStatus ∧ after.memory = inner.memory) := by
  rw [evalNode_composite (kept ▸ found) composite] at returned
  obtain ⟨⟨children, status, last⟩, looped, done⟩ := ok_of_bind_ok returned
  cases done
  obtain ⟨more, split⟩ := Nat.exists_eq_add_of_lt before
  rw [split, Nat.add_assoc] at looped
  obtain ⟨later, middle, extended, memoryLeft, behind⟩ :=
    evalChildren_advance (fun j passed => driven j (by omega)) kept memory looped
  rw [Nat.zero_add] at behind
  obtain ⟨inside, childStatus, inner, evaluated, outcome⟩ := evalChildren_cases behind
  refine ⟨inside, middle, childStatus, inner, extended.1.trans kept, memoryLeft, evaluated, ?_⟩
  rcases outcome with ⟨_, rfl, rfl⟩ | ⟨wentOn, _, finished⟩
  · exact ⟨(BtState.Extends.refl last).leave nodeIdx children status, fun _ => ⟨rfl, rfl⟩⟩
  refine ⟨(evalChildren_extends evalNode_extends finished).leave nodeIdx children status, ?_⟩
  intro stops
  exact absurd wentOn stops

variable {index : Nat}

theorem drives_of_succ {fed : List BtStatus}
    (drives : ∀ depth (nodeIdx : UInt16) (state after : BtState (Stream' BtStatus)) rest returned,
      nodeIdx.toNat = index → state.tree.nodeType? = types → state.memory = fed ++ₛ rest →
        evalNode fedLeaves (depth + 1) nodeIdx state = .ok (returned, after) →
          returned = status ∧ after.memory = rest) : Drives types fed index status := by
  intro depth
  cases depth with
  | zero =>
    intro nodeIdx state after rest returned _ _ _ evaluated
    cases evaluated
  | succ depth => exact drives depth

theorem exists_drives (canReturn : CanReturn types index status) :
    ∃ fed, Drives types fed index status := by
  induction canReturn with
  | outside outside =>
    refine ⟨[], drives_of_succ ?_⟩
    rintro depth nodeIdx state after rest returned rfl kept memory evaluated
    rw [evalNode, kept, outside] at evaluated
    cases evaluated
    exact ⟨rfl, memory⟩
  | condition holds found =>
    refine ⟨[if holds then .success else .failure], drives_of_succ ?_⟩
    rintro depth nodeIdx state after rest returned rfl kept memory evaluated
    rw [evalNode, kept, found] at evaluated
    cases evaluated
    rw [memory]
    cases holds with
    | _ => exact ⟨rfl, rfl⟩
  | action status found =>
    refine ⟨[status], drives_of_succ ?_⟩
    rintro depth nodeIdx state after rest returned rfl kept memory evaluated
    rw [evalNode, kept, found] at evaluated
    cases evaluated
    rw [memory]
    exact ⟨rfl, rfl⟩
  | inverter found _ ih =>
    obtain ⟨fed, drives⟩ := ih
    refine ⟨fed, drives_of_succ ?_⟩
    rintro depth nodeIdx state after rest returned rfl kept memory evaluated
    rw [evalNode_inverter (kept ▸ found)] at evaluated
    obtain ⟨⟨inner, middle⟩, childEvaluated, done⟩ := ok_of_bind_ok evaluated
    obtain ⟨rfl, memoryLeft⟩ :=
      drives depth _ state middle rest inner rfl kept memory childEvaluated
    cases done
    exact ⟨rfl, memoryLeft⟩
  | @exhausted index nodeType goOn startIdx count found composite _ ih =>
    choose! fed driven using ih
    refine ⟨(List.range' 0 count.toNat).flatMap fed, drives_of_succ ?_⟩
    rintro depth nodeIdx state after rest returned rfl kept memory evaluated
    rw [evalNode_composite (kept ▸ found) composite] at evaluated
    obtain ⟨⟨children, inner, middle⟩, looped, done⟩ := ok_of_bind_ok evaluated
    rw [← Nat.add_zero count.toNat] at looped
    obtain ⟨later, last, _, memoryLeft, finished⟩ :=
      evalChildren_advance (fun j before => driven j (by omega)) kept memory looped
    cases finished
    cases done
    exact ⟨rfl, memoryLeft⟩
  | @stopped index nodeType goOn startIdx count i status found composite before _ _ stops
      ih stopHypothesis =>
      choose! fed driven using ih
      obtain ⟨stopFed, stopDriven⟩ := stopHypothesis
      refine ⟨(List.range' 0 i).flatMap fed ++ stopFed, drives_of_succ ?_⟩
      rintro depth nodeIdx state after rest returned rfl kept memory evaluated
      rw [Stream'.append_append_stream] at memory
      obtain ⟨inside, middle, childStatus, inner, keptMiddle, memoryMiddle, childEvaluated, _,
        stopped⟩ := evalNode_child found composite before driven kept memory evaluated
      obtain ⟨rfl, memoryLeft⟩ := stopDriven depth _ middle inner rest childStatus
        (startIdx_add_toNat inside) keptMiddle memoryMiddle childEvaluated
      obtain ⟨rfl, same⟩ := stopped stops
      exact ⟨rfl, same.trans memoryLeft⟩

/-- Fed with these statuses, an evaluation of the node that returns has evaluated the next
one, with what is fed afterwards, within a depth less by `cost`. -/
def Passes (types : Nat → Option BtNodeType) (fed : List BtStatus) (cost index next : Nat) :
    Prop :=
  ∀ depth (nodeIdx : UInt16) (state after : BtState (Stream' BtStatus)) rest status,
    nodeIdx.toNat = index → state.tree.nodeType? = types → state.memory = fed ++ₛ rest →
      evalNode fedLeaves depth nodeIdx state = .ok (status, after) →
        ∃ less, ∃ nextIdx : UInt16, ∃ middle childStatus inner,
          less + cost ≤ depth ∧ nextIdx.toNat = next ∧ middle.tree.nodeType? = types ∧
            middle.memory = rest ∧
              evalNode fedLeaves less nextIdx middle = .ok (childStatus, inner) ∧
                inner.Extends after

theorem Passes.refl (types : Nat → Option BtNodeType) (index : Nat) :
    Passes types [] 0 index index := by
  intro depth nodeIdx state after rest status same kept memory returned
  exact ⟨depth, nodeIdx, state, status, after, le_refl depth, same, kept, memory, returned,
    BtState.Extends.refl after⟩

theorem Passes.trans {first later : List BtStatus} {cost more middle last : Nat}
    (toMiddle : Passes types first cost index middle)
    (toLast : Passes types later more middle last) :
    Passes types (first ++ later) (cost + more) index last := by
  intro depth nodeIdx state after rest status same kept memory returned
  rw [Stream'.append_append_stream] at memory
  obtain ⟨less, nextIdx, second, childStatus, inner, falls, sameNext, keptNext, memoryNext,
    evaluated, extended⟩ := toMiddle depth nodeIdx state after _ status same kept memory returned
  obtain ⟨least, lastIdx, third, lastStatus, innermost, fallsLast, sameLast, keptLast,
    memoryLast, lastEvaluated, extendedLast⟩ :=
    toLast less nextIdx second inner rest childStatus sameNext keptNext memoryNext evaluated
  exact ⟨least, lastIdx, third, lastStatus, innermost, by omega, sameLast, keptLast, memoryLast,
    lastEvaluated, extendedLast.trans extended⟩

theorem exists_passes {next : Nat} (step : LeadsTo types index next) :
    ∃ fed, Passes types fed 1 index next := by
  cases step with
  | @inverter child found =>
    refine ⟨[], ?_⟩
    rintro depth nodeIdx state after rest status rfl kept memory returned
    cases depth with
    | zero => cases returned
    | succ depth =>
      rw [evalNode_inverter (kept ▸ found)] at returned
      obtain ⟨⟨childStatus, inner⟩, evaluated, done⟩ := ok_of_bind_ok returned
      cases done
      exact ⟨depth, child, state, childStatus, inner, le_refl _, rfl, kept, memory,
        evaluated, (BtState.Extends.refl inner).leave nodeIdx _ _⟩
  | @child nodeType goOn startIdx count i found composite before wentOn =>
    choose! fed driven using fun j earlier => exists_drives (wentOn j earlier)
    refine ⟨(List.range' 0 i).flatMap fed, ?_⟩
    rintro depth nodeIdx state after rest status rfl kept memory returned
    cases depth with
    | zero => cases returned
    | succ depth =>
      obtain ⟨inside, middle, childStatus, inner, keptMiddle, memoryMiddle, evaluated,
        extended, _⟩ := evalNode_child found composite before driven kept memory returned
      exact ⟨depth, _, middle, childStatus, inner, le_refl _,
        startIdx_add_toNat inside, keptMiddle, memoryMiddle, evaluated, extended⟩

theorem exists_passes_of_reached {last : Nat} (path : ReflTransGen (LeadsTo types) index last) :
    ∃ fed cost, Passes types fed cost index last := by
  induction path with
  | refl => exact ⟨[], 0, Passes.refl types index⟩
  | tail _ step ih =>
    obtain ⟨fed, cost, passes⟩ := ih
    obtain ⟨stepFed, stepPasses⟩ := exists_passes step
    exact ⟨fed ++ stepFed, cost + 1, passes.trans stepPasses⟩

/-- Fed with the same round over and over, a node that passes itself on never returns: an
evaluation that did would hold one within a smaller depth. -/
theorem exists_never_returns {fed : List BtStatus} {cost : Nat} (positive : 0 < cost)
    (round : Passes types fed cost index index) :
    ∃ forever : Stream' BtStatus, ∀ depth (nodeIdx : UInt16)
      (state after : BtState (Stream' BtStatus)) status, nodeIdx.toNat = index →
        state.tree.nodeType? = types → state.memory = forever →
          evalNode fedLeaves depth nodeIdx state ≠ .ok (status, after) := by
  have periodic : ∃ forever : Stream' BtStatus, forever = fed ++ₛ forever := by
    by_cases empty : fed = []
    · subst empty
      exact ⟨Stream'.const .success, rfl⟩
    exact ⟨Stream'.cycle fed empty, Stream'.cycle_eq fed empty⟩
  obtain ⟨forever, again⟩ := periodic
  refine ⟨forever, ?_⟩
  intro depth
  induction depth using Nat.strongRecOn with
  | ind depth ih =>
    intro nodeIdx state after status same kept memory returned
    obtain ⟨less, nextIdx, middle, childStatus, inner, falls, sameNext, keptNext, memoryNext,
      evaluated, _⟩ := round depth nodeIdx state after forever status same kept
        (memory.trans again) returned
    exact ih less (by omega) nextIdx middle inner childStatus sameNext keptNext memoryNext evaluated

theorem BehaviorTree.FinishesTicks.evaluated {tree : BehaviorTree} (finishes : tree.FinishesTicks)
    (added : tree.count ≠ 0) (rootAdded : tree.rootIndex.toNat < tree.count)
    (reached : ReflTransGen (LeadsTo tree.nodeType?) tree.rootIndex.toNat index)
    (forever : Stream' BtStatus) :
    ∃ depth, ∃ nodeIdx : UInt16, ∃ middle status after, nodeIdx.toNat = index ∧
      middle.tree.nodeType? = tree.nodeType? ∧ middle.memory = forever ∧
        evalNode fedLeaves depth nodeIdx middle = .ok (status, after) ∧
          ∀ visit ∈ after.visits, tree.Evaluates visit := by
  obtain ⟨fed, cost, passes⟩ := exists_passes_of_reached reached
  obtain ⟨bound, status, state, finished, evaluates⟩ :=
    finishes (Stream' BtStatus) fedLeaves (fed ++ₛ forever)
  have ticked := finished bound (le_refl bound)
  have unset : ¬ (tree.count = 0 ∨ tree.count ≤ tree.rootIndex.toNat) := by
    rintro (empty | beyond)
    · exact added empty
    exact Nat.not_le_of_lt rootAdded beyond
  obtain ⟨depth, nodeIdx, middle, childStatus, after, _, same, kept, memory, evaluated,
    extended⟩ := passes bound tree.rootIndex _ state forever status rfl rfl rfl
      ((if_neg unset).symm.trans ticked)
  refine ⟨depth, nodeIdx, middle, childStatus, after, same, kept, memory, evaluated, ?_⟩
  intro visit visited
  exact evaluates visit (extended.2 visited)

theorem BehaviorTree.wellLinked_of_finishesTicks {tree : BehaviorTree}
    (finishes : tree.FinishesTicks) : tree.WellLinked := by
  intro added rootAdded index reached
  have arrives := finishes.evaluated added rootAdded reached
  refine ⟨?_, ?_, ?_⟩
  · intro cycle
    obtain ⟨next, step, back⟩ := TransGen.head'_iff.mp cycle
    obtain ⟨stepFed, stepPasses⟩ := exists_passes step
    obtain ⟨backFed, cost, backPasses⟩ := exists_passes_of_reached back
    obtain ⟨forever, neverReturns⟩ :=
      exists_never_returns (by omega) (stepPasses.trans backPasses)
    obtain ⟨depth, nodeIdx, middle, status, after, same, kept, memory, evaluated, _⟩ :=
      arrives forever
    exact neverReturns depth nodeIdx middle after status same kept memory evaluated
  · obtain ⟨depth, nodeIdx, middle, status, after, rfl, _⟩ := arrives (Stream'.const .success)
    exact nodeIdx.toNat_lt
  by_cases inside : index < behaviorTreeCapacity
  · obtain ⟨depth, nodeIdx, middle, status, after, rfl, kept, _, evaluated, evaluates⟩ :=
      arrives (Stream'.const .success)
    have present : middle.tree.nodeType? nodeIdx.toNat ≠ none := by
      unfold nodeType?
      simp [inside]
    rcases evalNode_cases evaluated with ⟨absent, _⟩ | ⟨last, children, _, rfl⟩
    · exact absurd absent present
    exact .inl (evaluates _ (mem_cons_self ..)).1
  exact .inr (Nat.le_of_not_lt inside)

end Feeding

/-- A tree finishes its ticks with all leaves exactly if it is well linked. -/
theorem BehaviorTree.finishesTicks_iff (tree : BehaviorTree) :
    tree.FinishesTicks ↔ tree.WellLinked :=
  ⟨BehaviorTree.wellLinked_of_finishesTicks, BehaviorTree.finishesTicks_of_wellLinked⟩

/-- The only node of the tree is its own child. -/
def selfInverter : BehaviorTree :=
  (BehaviorTree.new.addNode (.inverter 0)).2.setRoot 0

theorem selfInverter_outOfDepth (depth : Nat) :
    evalNode fedLeaves depth 0 ⟨selfInverter, Stream'.const .success, []⟩ = .error .outOfDepth := by
  induction depth with
  | zero => rfl
  | succ depth ih =>
    have found : selfInverter.nodeType? (0 : UInt16).toNat = some (.inverter 0) := by decide
    rw [evalNode_inverter found, ih]
    rfl

theorem BehaviorTree.not_finishesTicks_selfInverter : ¬ selfInverter.FinishesTicks := by
  intro finishes
  obtain ⟨bound, status, state, finished, _⟩ :=
    finishes (Stream' BtStatus) fedLeaves (Stream'.const .success)
  have ticked := finished bound (le_refl bound)
  cases (selfInverter_outOfDepth bound).symm.trans ticked

end Eidolon.Core
