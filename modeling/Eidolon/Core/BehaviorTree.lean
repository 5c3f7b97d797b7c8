import Mathlib.Algebra.GroupWithZero.Nat
import Mathlib.Data.List.Basic
import Mathlib.Logic.Relation

/-!
# Behaviour trees

Decision trees of autonomous entities in an array of 32 nodes, which name their children by
index.  Nothing keeps an index from naming a node that was not added, or one that is being
evaluated; an evaluation that calls itself runs out of any depth.
-/

namespace Eidolon.Core

open Relation

def behaviorTreeCapacity : Nat := 32

inductive BtStatus where
  | success
  | failure
  | running
  deriving DecidableEq

inductive BtNodeType where
  | sequence (firstChild count : UInt16)
  | selector (firstChild count : UInt16)
  | inverter (child : UInt16)
  | action (actionId : UInt16)
  | condition (conditionId : UInt16)
  deriving DecidableEq

structure BtNode where
  nodeType : BtNodeType
  status : BtStatus
  deriving DecidableEq

def BtNode.new (nodeType : BtNodeType) : BtNode where
  nodeType := nodeType
  status := .failure

structure BehaviorTree where
  nodes : Vector BtNode behaviorTreeCapacity
  count : Nat
  rootIndex : UInt16
  deriving DecidableEq

namespace BehaviorTree

def new : BehaviorTree where
  nodes := Vector.replicate behaviorTreeCapacity (BtNode.new (.action 0))
  count := 0
  rootIndex := 0

variable (tree : BehaviorTree)

def addNode (nodeType : BtNodeType) : Option UInt16 × BehaviorTree :=
  if inside : tree.count < behaviorTreeCapacity then
    (some (UInt16.ofNat tree.count),
      { tree with
        nodes := tree.nodes.set tree.count (BtNode.new nodeType)
        count := tree.count + 1 })
  else
    (none, tree)

def setRoot (rootIndex : UInt16) : BehaviorTree :=
  { tree with rootIndex := rootIndex }

def nodeType? (index : Nat) : Option BtNodeType :=
  tree.nodes[index]?.map BtNode.nodeType

def setStatus (index : Nat) (status : BtStatus) : BehaviorTree :=
  { tree with
    nodes := tree.nodes.setIfInBounds index
      { nodeType := (tree.nodeType? index).getD (.action 0), status := status } }

end BehaviorTree

structure Leaves (Memory : Type) where
  evalAction : Memory → UInt16 → BtStatus × Memory
  evalCondition : Memory → UInt16 → Bool × Memory

structure BtVisit where
  index : UInt16
  children : List BtStatus
  status : BtStatus
  deriving DecidableEq

structure BtState (Memory : Type) where
  tree : BehaviorTree
  memory : Memory
  visits : List BtVisit

/-- Why an evaluation does not return: the depth does not suffice, or an index overflows. -/
inductive BtStop where
  | outOfDepth
  | overflow
  deriving DecidableEq

def BtState.leave {Memory : Type} (state : BtState Memory) (nodeIdx : UInt16)
    (children : List BtStatus) (status : BtStatus) : BtState Memory where
  tree := state.tree.setStatus nodeIdx.toNat status
  memory := state.memory
  visits := ⟨nodeIdx, children, status⟩ :: state.visits

def BtStatus.inverted : BtStatus → BtStatus
  | .success => .failure
  | .failure => .success
  | .running => .running

variable {Memory : Type}

/-- The loop over the children from `i` on, which goes on as long as they return `goOn`.
Returns what the children returned, and the status. -/
def evalChildren (evalChild : UInt16 → BtState Memory → Except BtStop (BtStatus × BtState Memory))
    (goOn : BtStatus) (startIdx : UInt16) : Nat → Nat → BtState Memory →
      Except BtStop (List BtStatus × BtStatus × BtState Memory)
  | 0, _, state => .ok ([], goOn, state)
  | remaining + 1, i, state =>
    if startIdx.toNat + i < 2 ^ 16 then do
      let (childStatus, state) ← evalChild (startIdx + UInt16.ofNat i) state
      if childStatus ≠ goOn then
        return ([childStatus], childStatus, state)
      else
        let (children, status, state) ← evalChildren evalChild goOn startIdx remaining (i + 1) state
        return (childStatus :: children, status, state)
    else
      .error .overflow

def evalNode (leaves : Leaves Memory) : Nat → UInt16 → BtState Memory →
    Except BtStop (BtStatus × BtState Memory)
  | 0, _, _ => .error .outOfDepth
  | depth + 1, nodeIdx, state =>
    match state.tree.nodeType? nodeIdx.toNat with
    | none => .ok (.failure, state)
    | some (.condition conditionId) =>
      let (holds, memory) := leaves.evalCondition state.memory conditionId
      let status := if holds then .success else .failure
      .ok (status, { state with memory := memory }.leave nodeIdx [] status)
    | some (.action actionId) =>
      let (status, memory) := leaves.evalAction state.memory actionId
      .ok (status, { state with memory := memory }.leave nodeIdx [] status)
    | some (.inverter child) => do
        let (childStatus, state) ← evalNode leaves depth child state
        let status := childStatus.inverted
        return (status, state.leave nodeIdx [childStatus] status)
    | some (.sequence startIdx count) => do
        let (children, status, state) ←
          evalChildren (evalNode leaves depth) .success startIdx count.toNat 0 state
        return (status, state.leave nodeIdx children status)
    | some (.selector startIdx count) => do
        let (children, status, state) ←
          evalChildren (evalNode leaves depth) .failure startIdx count.toNat 0 state
        return (status, state.leave nodeIdx children status)

variable (tree : BehaviorTree)

def BehaviorTree.tick (leaves : Leaves Memory) (memory : Memory) (depth : Nat) :
    Except BtStop (BtStatus × BtState Memory) :=
  let state := { tree := tree, memory := memory, visits := [] }
  if tree.count = 0 ∨ tree.count ≤ tree.rootIndex.toNat then
    .ok (.failure, state)
  else
    evalNode leaves depth tree.rootIndex state

def BtNodeType.composite? : BtNodeType → Option (BtStatus × UInt16 × UInt16)
  | .sequence firstChild count => some (.success, firstChild, count)
  | .selector firstChild count => some (.failure, firstChild, count)
  | _ => none

/-- The children are evaluated in order until one does not return `goOn`, whose status is
returned; if all of them do, so does the composite. -/
def Prescribes (goOn : BtStatus) (count : Nat) (children : List BtStatus)
    (status : BtStatus) : Prop :=
  (children = List.replicate count goOn ∧ status = goOn) ∨
    (∃ i < count, children = List.replicate i goOn ++ [status]) ∧ status ≠ goOn

theorem Prescribes.cons {goOn status : BtStatus} {count : Nat} {children : List BtStatus}
    (prescribes : Prescribes goOn count children status) :
    Prescribes goOn (count + 1) (goOn :: children) status := by
  rcases prescribes with ⟨rfl, rfl⟩ | ⟨⟨i, before, rfl⟩, stops⟩
  · exact Or.inl ⟨rfl, rfl⟩
  exact Or.inr ⟨⟨i + 1, Nat.succ_lt_succ before, rfl⟩, stops⟩

namespace BehaviorTree

/-- The node has been added and, if it is composite, returned the status prescribed for
the statuses of its children. -/
def Evaluates (tree : BehaviorTree) (visit : BtVisit) : Prop :=
  visit.index.toNat < tree.count ∧
    ∀ nodeType goOn startIdx count, tree.nodeType? visit.index.toNat = some nodeType →
      nodeType.composite? = some (goOn, startIdx, count) →
        Prescribes goOn count.toNat visit.children visit.status

/-- With all leaves, some depth suffices for a tick, no index overflows, and each node
evaluated has been added and returns what is prescribed. -/
def FinishesTicks (tree : BehaviorTree) : Prop :=
  ∀ (Memory : Type) (leaves : Leaves Memory) (memory : Memory), ∃ bound status state,
    (∀ depth, bound ≤ depth → tree.tick leaves memory depth = .ok (status, state)) ∧
      ∀ visit ∈ state.visits, tree.Evaluates visit

end BehaviorTree

inductive CanReturn (types : Nat → Option BtNodeType) : Nat → BtStatus → Prop
  | outside {index} : types index = none → CanReturn types index .failure
  | condition {index conditionId} (holds : Bool) :
      types index = some (.condition conditionId) →
        CanReturn types index (if holds then .success else .failure)
  | action {index actionId} (status : BtStatus) :
      types index = some (.action actionId) → CanReturn types index status
  | inverter {index child status} :
      types index = some (.inverter child) → CanReturn types child.toNat status →
        CanReturn types index status.inverted
  | exhausted {index nodeType goOn} {startIdx count : UInt16} :
      types index = some nodeType → nodeType.composite? = some (goOn, startIdx, count) →
        (∀ j < count.toNat, CanReturn types (startIdx.toNat + j) goOn) →
          CanReturn types index goOn
  | stopped {index nodeType goOn} {startIdx count : UInt16} {i status} :
      types index = some nodeType → nodeType.composite? = some (goOn, startIdx, count) →
        i < count.toNat → (∀ j < i, CanReturn types (startIdx.toNat + j) goOn) →
          CanReturn types (startIdx.toNat + i) status → status ≠ goOn →
            CanReturn types index status

/-- A node leads to the child of an inverter, and to each child of a composite node that
the loop comes to when all earlier ones let it go on. -/
inductive LeadsTo (types : Nat → Option BtNodeType) : Nat → Nat → Prop
  | inverter {index child} :
      types index = some (.inverter child) → LeadsTo types index child.toNat
  | child {index nodeType goOn} {startIdx count : UInt16} {i} :
      types index = some nodeType → nodeType.composite? = some (goOn, startIdx, count) →
        i < count.toNat → (∀ j < i, CanReturn types (startIdx.toNat + j) goOn) →
          LeadsTo types index (startIdx.toNat + i)

/-- No index come to from the root leads back to itself, exceeds 16 bits, or names a node
of the array that was not added. -/
def BehaviorTree.WellLinked : Prop :=
  tree.count ≠ 0 → tree.rootIndex.toNat < tree.count →
    ∀ index, ReflTransGen (LeadsTo tree.nodeType?) tree.rootIndex.toNat index →
      ¬ TransGen (LeadsTo tree.nodeType?) index index ∧ index < 2 ^ 16 ∧
        (index < tree.count ∨ behaviorTreeCapacity ≤ index)

@[simp] theorem BehaviorTree.nodeType?_setStatus (index : Nat) (status : BtStatus) :
    (tree.setStatus index status).nodeType? = tree.nodeType? := by
  funext other
  unfold setStatus nodeType?
  by_cases same : index = other
  · subst same
    by_cases inside : index < behaviorTreeCapacity
    · simp [inside]
    simp [inside]
  simp [same]

@[simp] theorem BtState.nodeType?_leave (state : BtState Memory) (nodeIdx : UInt16)
    (children : List BtStatus) (status : BtStatus) :
    (state.leave nodeIdx children status).tree.nodeType? = state.tree.nodeType? :=
  state.tree.nodeType?_setStatus nodeIdx.toNat status

theorem BehaviorTree.nodeType?_eq_none {index : Nat} (outside : behaviorTreeCapacity ≤ index) :
    tree.nodeType? index = none := by
  unfold nodeType?
  simp [Nat.not_lt.mpr outside]

theorem startIdx_add_toNat {startIdx : UInt16} {i : Nat} (inside : startIdx.toNat + i < 2 ^ 16) :
    (startIdx + UInt16.ofNat i).toNat = startIdx.toNat + i := by
  rw [UInt16.toNat_add, UInt16.toNat_ofNat']
  omega

theorem evalNode_composite {leaves : Leaves Memory} {depth : Nat} {nodeIdx : UInt16}
    {state : BtState Memory} {nodeType : BtNodeType} {goOn : BtStatus}
    {startIdx count : UInt16}
    (found : state.tree.nodeType? nodeIdx.toNat = some nodeType)
    (composite : nodeType.composite? = some (goOn, startIdx, count)) :
    evalNode leaves (depth + 1) nodeIdx state =
      (evalChildren (evalNode leaves depth) goOn startIdx count.toNat 0 state).bind
        fun (children, status, after) =>
          .ok (status, after.leave nodeIdx children status) := by
  cases nodeType with
  | sequence firstChild childCount =>
    cases composite
    rw [evalNode, found]
    rfl
  | selector firstChild childCount =>
    cases composite
    rw [evalNode, found]
    rfl
  | _ => exact absurd composite (by simp [BtNodeType.composite?])

theorem evalNode_inverter {leaves : Leaves Memory} {depth : Nat} {nodeIdx child : UInt16}
    {state : BtState Memory}
    (found : state.tree.nodeType? nodeIdx.toNat = some (.inverter child)) :
    evalNode leaves (depth + 1) nodeIdx state =
      (evalNode leaves depth child state).bind fun (childStatus, after) =>
        .ok (childStatus.inverted, after.leave nodeIdx [childStatus] childStatus.inverted) := by
  rw [evalNode, found]
  rfl

end Eidolon.Core
