import Eidolon.Library.Lockstep

/-!
# Gameplay scripts

The bytecode machine that runs scripts of quests and rules on a stack of fixed size, with one
unit of gas for each instruction.  A script calls the host, which answers from its own state.
Reads and writes outside an array stop the machine, as they would the program.
-/

namespace Eidolon.World

open Library

def vmStackCapacity : Nat := 128

def vmVarsCapacity : Nat := 32

inductive OpCode where
  | push (val : Int64)
  | pop
  | dup
  | swap
  | add
  | sub
  | mul
  | div
  | mod
  | eq
  | neq
  | lt
  | lte
  | gt
  | gte
  | jump (target : Nat)
  | jumpIfTrue (target : Nat)
  | jumpIfFalse (target : Nat)
  | loadVar (idx : UInt16)
  | storeVar (idx : UInt16)
  | callSyscall (syscallId : UInt16)
  | halt
  deriving DecidableEq

inductive VmError where
  | gasExhausted
  | stackOverflow
  | stackUnderflow
  | divisionByZero
  | invalidJumpTarget
  | invalidVariableIndex
  | syscallFailed (code : UInt16)
  | unexpectedEndOfBytecode
  deriving DecidableEq

/-- The systems that a script calls: the answer to a call, and their state after it. -/
structure HostEnvironment (World : Type) where
  handleSyscall : World → UInt16 → Int64 → Except UInt16 Int64 × World

structure ScriptVm where
  stack : Vector Int64 vmStackCapacity
  stackPtr : Nat
  vars : Vector Int64 vmVarsCapacity
  gasRemaining : UInt64
  deriving DecidableEq

namespace ScriptVm

def new : ScriptVm where
  stack := Vector.replicate vmStackCapacity 0
  stackPtr := 0
  vars := Vector.replicate vmVarsCapacity 0
  gasRemaining := 0

def reset (vm : ScriptVm) : ScriptVm :=
  { vm with stackPtr := 0, vars := Vector.replicate vmVarsCapacity 0, gasRemaining := 0 }

end ScriptVm

inductive VmEvent where
  | fetch (pc : Nat)
  | stackPtr (ptr : Nat)
  | syscall (syscallId : UInt16) (arg : Int64)
  deriving DecidableEq

structure Machine (World : Type) where
  vm : ScriptVm
  world : World
  trace : List VmEvent

inductive Stop where
  | error (error : VmError)
  | indexOutOfBounds
  deriving DecidableEq

abbrev Script (World : Type) :=
  ExceptT Stop (StateM (Machine World))

variable {World : Type}

namespace Script

def access {Value : Type} (found : Option Value) : Script World Value :=
  match found with
  | some value => pure value
  | none => throw .indexOutOfBounds

def store {capacity : Nat} (array : Vector Int64 capacity) (index : Nat) (val : Int64) :
    Script World (Vector Int64 capacity) :=
  if inside : index < capacity then
    pure (array.set index val)
  else
    throw .indexOutOfBounds

def setStackPtr (ptr : Nat) : Script World Unit :=
  modify fun machine =>
    { machine with
      vm := { machine.vm with stackPtr := ptr }
      trace := .stackPtr ptr :: machine.trace }

def push (val : Int64) : Script World Unit := do
  let machine ← get
  if vmStackCapacity ≤ machine.vm.stackPtr then
    throw (.error .stackOverflow)
  else
    let stack ← store machine.vm.stack machine.vm.stackPtr val
    set { machine with vm := { machine.vm with stack := stack } }
    setStackPtr (machine.vm.stackPtr + 1)

def pop : Script World Int64 := do
  let machine ← get
  if machine.vm.stackPtr = 0 then
    throw (.error .stackUnderflow)
  else
    setStackPtr (machine.vm.stackPtr - 1)
    access machine.vm.stack[machine.vm.stackPtr - 1]?

def readVar (idx : UInt16) : Script World Int64 := do
  let machine ← get
  access machine.vm.vars[idx.toNat]?

def writeVar (idx : UInt16) (val : Int64) : Script World Unit := do
  let machine ← get
  let vars ← store machine.vm.vars idx.toNat val
  set { machine with vm := { machine.vm with vars := vars } }

def handleSyscall (host : HostEnvironment World) (syscallId : UInt16) (arg : Int64) :
    Script World (Except UInt16 Int64) := do
  let machine ← get
  let (answer, world) := host.handleSyscall machine.world syscallId arg
  set { machine with world := world, trace := .syscall syscallId arg :: machine.trace }
  return answer

end Script

def saturatingAddI64 (b a : Int64) : Int64 :=
  Int64.ofIntClamp (b.toInt + a.toInt)

def saturatingSubI64 (b a : Int64) : Int64 :=
  Int64.ofIntClamp (b.toInt - a.toInt)

def saturatingMulI64 (b a : Int64) : Int64 :=
  Int64.ofIntClamp (b.toInt * a.toInt)

def checkedDivI64 (b a : Int64) : Option Int64 :=
  if a = 0 ∨ b = Int64.minValue ∧ a = -1 then none else some (b / a)

def checkedRemI64 (b a : Int64) : Option Int64 :=
  if a = 0 ∨ b = Int64.minValue ∧ a = -1 then none else some (b % a)

inductive Flow where
  | goto (pc : Nat)
  | done (ret : Int64)
  deriving DecidableEq

namespace Script

def binary (pc : Nat) (operation : Int64 → Int64 → Int64) : Script World Flow := do
  let a ← pop
  let b ← pop
  push (operation b a)
  return .goto (pc + 1)

def division (pc : Nat) (operation : Int64 → Int64 → Option Int64) : Script World Flow := do
  let a ← pop
  let b ← pop
  if a = 0 then
    throw (.error .divisionByZero)
  else
    push ((operation b a).getD 0)
    return .goto (pc + 1)

def comparison (pc : Nat) (test : Int64 → Int64 → Bool) : Script World Flow :=
  binary pc fun b a => if test b a then 1 else 0

def conditionalJump (length pc target : Nat) (taken : Int64 → Bool) : Script World Flow := do
  if length ≤ target then
    throw (.error .invalidJumpTarget)
  else
    let cond ← pop
    return .goto (if taken cond then target else pc + 1)

def instruction (host : HostEnvironment World) (length pc : Nat) : OpCode → Script World Flow
  | .push val => do
      push val
      return .goto (pc + 1)
  | .pop => do
      let _ ← pop
      return .goto (pc + 1)
  | .dup => do
      let top ← pop
      push top
      push top
      return .goto (pc + 1)
  | .swap => do
      let a ← pop
      let b ← pop
      push a
      push b
      return .goto (pc + 1)
  | .add => binary pc saturatingAddI64
  | .sub => binary pc saturatingSubI64
  | .mul => binary pc saturatingMulI64
  | .div => division pc checkedDivI64
  | .mod => division pc checkedRemI64
  | .eq => comparison pc fun b a => decide (b = a)
  | .neq => comparison pc fun b a => decide (b ≠ a)
  | .lt => comparison pc fun b a => decide (b < a)
  | .lte => comparison pc fun b a => decide (b ≤ a)
  | .gt => comparison pc fun b a => decide (a < b)
  | .gte => comparison pc fun b a => decide (a ≤ b)
  | .jump target => do
      if length ≤ target then
        throw (.error .invalidJumpTarget)
      else
        return .goto target
  | .jumpIfTrue target => conditionalJump length pc target fun cond => decide (cond ≠ 0)
  | .jumpIfFalse target => conditionalJump length pc target fun cond => decide (cond = 0)
  | .loadVar idx => do
      if vmVarsCapacity ≤ idx.toNat then
        throw (.error .invalidVariableIndex)
      else
        push (← readVar idx)
        return .goto (pc + 1)
  | .storeVar idx => do
      if vmVarsCapacity ≤ idx.toNat then
        throw (.error .invalidVariableIndex)
      else
        let val ← pop
        writeVar idx val
        return .goto (pc + 1)
  | .callSyscall syscallId => do
      let arg ← pop
      match ← handleSyscall host syscallId arg with
      | .ok ret =>
        push ret
        return .goto (pc + 1)
      | .error code => throw (.error (.syscallFailed code))
  | .halt => do
      -- an empty stack returns zero
      let ret ← tryCatch pop fun
        | .error _ => pure 0
        | .indexOutOfBounds => throw .indexOutOfBounds
      return .done ret

def charge : Script World Unit := do
  let machine ← get
  if machine.vm.gasRemaining = 0 then
    throw (.error .gasExhausted)
  else
    set { machine with vm := { machine.vm with gasRemaining := machine.vm.gasRemaining - 1 } }

def fetch (bytecode : List OpCode) (pc : Nat) : Script World OpCode := do
  modify fun machine => { machine with trace := .fetch pc :: machine.trace }
  access bytecode[pc]?

def iteration (host : HostEnvironment World) (bytecode : List OpCode) (pc : Nat) :
    Script World Flow := do
  charge
  let op ← fetch bytecode pc
  instruction host bytecode.length pc op

end Script

/-- The loop over the bytecode; `none` when the fuel does not suffice. -/
def scriptLoop (host : HostEnvironment World) (bytecode : List OpCode) :
    Nat → Nat → Machine World → Option (Except Stop Int64 × Machine World)
  | 0, _, _ => none
  | fuel + 1, pc, machine =>
    if pc < bytecode.length then
      match perform (Script.iteration host bytecode pc) machine with
      | (.ok (.goto next), after) => scriptLoop host bytecode fuel next after
      | (.ok (.done ret), after) => some (.ok ret, after)
      | (.error stop, after) => some (.error stop, after)
    else
      some (.error (.error .unexpectedEndOfBytecode), machine)

def ScriptVm.load (vm : ScriptVm) (maxGas : UInt64) (world : World) : Machine World where
  vm := { vm.reset with gasRemaining := maxGas }
  world := world
  trace := [.stackPtr 0]

def ScriptVm.execute (vm : ScriptVm) (bytecode : List OpCode) (maxGas : UInt64)
    (host : HostEnvironment World) (world : World) (fuel : Nat) :
    Option (Except Stop Int64 × Machine World) :=
  scriptLoop host bytecode fuel 0 (vm.load maxGas world)

end Eidolon.World
