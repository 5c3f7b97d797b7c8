import Eidolon.World.ScriptEngine

/-!
# The sandbox of scripts

Two runs of a script are compared that start with different amounts of gas and on machines
that ran other scripts before.  As long as both have gas they are in lockstep: what lies above
the stack pointer does not matter.  Comparing a run with itself gives the bounds.
-/

namespace Eidolon.World

open Library List Nat

variable {World : Type}

def VmEvent.isFetch : VmEvent → Bool
  | .fetch _ => true
  | _ => false

def Machine.executed (machine : Machine World) : Nat :=
  machine.trace.countP VmEvent.isFetch

structure Agree (gas moreGas executed : Nat) (first second : Machine World) : Prop where
  ptr : second.vm.stackPtr = first.vm.stackPtr
  live : ∀ index < first.vm.stackPtr, second.vm.stack[index]? = first.vm.stack[index]?
  vars : second.vm.vars = first.vm.vars
  world : second.world = first.world
  trace : second.trace = first.trace
  inside : first.vm.stackPtr ≤ vmStackCapacity
  bounded : ∀ ptr, .stackPtr ptr ∈ first.trace → ptr ≤ vmStackCapacity
  counted : first.executed = executed
  gas : first.vm.gasRemaining.toNat = gas
  moreGas : second.vm.gasRemaining.toNat = moreGas

def Stop.InBounds (stop : Stop) : Prop :=
  stop ≠ .indexOutOfBounds

namespace Script

variable {gas moreGas executed : Nat}

def Sandboxed {Value : Type} (computation : Script World Value) : Prop :=
  ∀ gas moreGas executed : Nat, Lockstep (Agree gas moreGas executed) Stop.InBounds computation

theorem perform_push (val : Int64) (machine : Machine World) : perform (push val) machine =
      if inside : machine.vm.stackPtr < vmStackCapacity then
        (.ok (),
          { machine with
            vm :=
              { machine.vm with
                stack := machine.vm.stack.set machine.vm.stackPtr val
                stackPtr := machine.vm.stackPtr + 1 }
            trace := .stackPtr (machine.vm.stackPtr + 1) :: machine.trace })
      else (.error (.error .stackOverflow), machine) := by
  change perform (if _ then _ else _) machine = _
  by_cases inside : machine.vm.stackPtr < vmStackCapacity
  · rw [if_neg (Nat.not_le.mpr inside), dif_pos inside, store, dif_pos inside]
    rfl
  rw [if_pos (Nat.not_lt.mp inside), dif_neg inside]
  rfl

theorem perform_pop (machine : Machine World) : perform pop machine =
      if machine.vm.stackPtr = 0 then (.error (.error .stackUnderflow), machine)
      else
        perform (access machine.vm.stack[machine.vm.stackPtr - 1]?)
          { machine with
            vm := { machine.vm with stackPtr := machine.vm.stackPtr - 1 }
            trace := .stackPtr (machine.vm.stackPtr - 1) :: machine.trace } := by
  change perform (if _ then _ else _) machine = _
  by_cases empty : machine.vm.stackPtr = 0
  · rw [if_pos empty, if_pos empty]
    rfl
  rw [if_neg empty, if_neg empty]
  rfl

theorem sandboxed_push (val : Int64) : Sandboxed (push val : Script World Unit) := by
  intro gas moreGas executed first second agree
  rw [perform_push, perform_push, agree.ptr]
  by_cases inside : first.vm.stackPtr < vmStackCapacity
  · rw [dif_pos inside, dif_pos inside]
    refine ⟨rfl, ?_, ?_⟩
    · rintro _ ⟨⟩
    refine ⟨rfl, ?_, agree.vars, agree.world, ?_, inside, ?_, ?_, agree.gas, agree.moreGas⟩
    · intro index below
      rw [Vector.getElem?_set, Vector.getElem?_set]
      split
      · rfl
      refine agree.live index ?_
      change index < first.vm.stackPtr + 1 at below
      omega
    · rw [agree.trace]
    · intro ptr listed
      rcases List.mem_cons.mp listed with isNew | before
      · cases isNew
        exact inside
      exact agree.bounded ptr before
    exact (countP_cons_of_neg Bool.false_ne_true).trans agree.counted
  rw [dif_neg inside, dif_neg inside]
  refine ⟨rfl, ?_, agree⟩
  rintro _ ⟨⟩
  exact Stop.noConfusion

theorem sandboxed_pop : Sandboxed (pop : Script World Int64) := by
  intro gas moreGas executed first second agree
  rw [perform_pop, perform_pop, agree.ptr]
  by_cases empty : first.vm.stackPtr = 0
  · rw [if_pos empty, if_pos empty]
    refine ⟨rfl, ?_, agree⟩
    rintro _ ⟨⟩
    exact Stop.noConfusion
  rw [if_neg empty, if_neg empty]
  have below : first.vm.stackPtr - 1 < first.vm.stackPtr := by
    omega
  have inside := Nat.lt_of_lt_of_le below agree.inside
  rw [agree.live _ below, Vector.getElem?_eq_getElem inside]
  have bounded := Nat.le_of_lt inside
  refine ⟨rfl, ?_, ?_⟩
  · rintro _ ⟨⟩
  refine ⟨rfl, ?_, agree.vars, agree.world, ?_, bounded, ?_, ?_, agree.gas, agree.moreGas⟩
  · intro index lower
    exact agree.live index (Nat.lt_trans lower below)
  · change _ :: _ = _ :: _
    rw [agree.trace]
  · intro ptr listed
    rcases List.mem_cons.mp listed with isNew | before
    · cases isNew
      exact bounded
    exact agree.bounded ptr before
  exact (countP_cons_of_neg Bool.false_ne_true).trans agree.counted

variable {idx : UInt16}

theorem sandboxed_readVar (isVar : idx.toNat < vmVarsCapacity) :
    Sandboxed (readVar idx : Script World Int64) := by
  intro gas moreGas executed first second agree
  have read : ∀ machine : Machine World,
      perform (readVar idx) machine = (.ok machine.vm.vars[idx.toNat], machine) := by
    intro machine
    change perform (access machine.vm.vars[idx.toNat]?) machine = _
    rw [Vector.getElem?_eq_getElem isVar]
    rfl
  rw [read, read, agree.vars]
  refine ⟨rfl, ?_, agree⟩
  rintro _ ⟨⟩

theorem sandboxed_writeVar (isVar : idx.toNat < vmVarsCapacity) (val : Int64) :
    Sandboxed (writeVar idx val : Script World Unit) := by
  intro gas moreGas executed first second agree
  have written : ∀ machine : Machine World, perform (writeVar idx val) machine = (.ok (),
          { machine with
            vm := { machine.vm with vars := machine.vm.vars.set idx.toNat val } }) := by
    intro machine
    change perform (store machine.vm.vars idx.toNat val >>= _) machine = _
    rw [store, dif_pos isVar]
    rfl
  rw [written, written, agree.vars]
  refine ⟨rfl, ?_, { agree with vars := rfl }⟩
  rintro _ ⟨⟩

variable (host : HostEnvironment World)

theorem sandboxed_handleSyscall (syscallId : UInt16) (arg : Int64) :
    Sandboxed (handleSyscall host syscallId arg) := by
  intro gas moreGas executed first second agree
  have called : ∀ machine : Machine World, perform (handleSyscall host syscallId arg) machine =
        (.ok (host.handleSyscall machine.world syscallId arg).1,
          { machine with
            world := (host.handleSyscall machine.world syscallId arg).2
            trace := .syscall syscallId arg :: machine.trace }) := by
    intro machine
    rfl
  rw [called, called, agree.world]
  refine ⟨rfl, ?_, ?_⟩
  · rintro _ ⟨⟩
  refine { agree with world := rfl, trace := ?_, bounded := ?_, counted := ?_ }
  · rw [agree.trace]
  · intro ptr listed
    rcases List.mem_cons.mp listed with isNew | before
    · cases isNew
    exact agree.bounded ptr before
  exact (countP_cons_of_neg Bool.false_ne_true).trans agree.counted

variable {Value : Type}

theorem Sandboxed.pure (value : Value) : Sandboxed (Pure.pure value : Script World Value) :=
  fun _ _ _ => Lockstep.pure value

theorem Sandboxed.throw (error : VmError) :
    Sandboxed (MonadExcept.throw (.error error) : Script World Value) :=
  fun _ _ _ => Lockstep.throw Stop.noConfusion

theorem Sandboxed.bind {Result : Type} {computation : Script World Value}
    {continuation : Value → Script World Result} (now : Sandboxed computation)
    (later : ∀ value, Sandboxed (continuation value)) :
    Sandboxed (computation >>= continuation) :=
  fun _ _ _ => (now _ _ _).bind fun value => later value _ _ _

theorem Sandboxed.ite {condition : Prop} [Decidable condition] {yes no : Script World Value}
    (ifYes : condition → Sandboxed yes) (ifNo : ¬ condition → Sandboxed no) :
    Sandboxed (if condition then yes else no) :=
  fun _ _ _ => Lockstep.ite (fun holds => ifYes holds _ _ _) (fun fails => ifNo fails _ _ _)

theorem sandboxed_binary (pc : Nat) (operation : Int64 → Int64 → Int64) :
    Sandboxed (binary pc operation : Script World Flow) :=
  sandboxed_pop.bind fun _ => sandboxed_pop.bind fun _ =>
    (sandboxed_push _).bind fun _ => .pure _

theorem sandboxed_division (pc : Nat) (operation : Int64 → Int64 → Option Int64) :
    Sandboxed (division pc operation : Script World Flow) :=
  sandboxed_pop.bind fun _ => sandboxed_pop.bind fun _ =>
    .ite (fun _ => .throw _) fun _ => (sandboxed_push _).bind fun _ => .pure _

theorem sandboxed_conditionalJump (length pc target : Nat) (taken : Int64 → Bool) :
    Sandboxed (conditionalJump length pc target taken : Script World Flow) :=
  .ite (fun _ => .throw _) fun _ => sandboxed_pop.bind fun _ => .pure _

theorem sandboxed_instruction (length pc : Nat) (op : OpCode) :
    Sandboxed (instruction host length pc op) := by
  cases op with
  | push val => exact (sandboxed_push val).bind fun _ => .pure _
  | pop => exact sandboxed_pop.bind fun _ => .pure _
  | dup =>
    exact sandboxed_pop.bind fun top => (sandboxed_push top).bind fun _ =>
      (sandboxed_push top).bind fun _ => .pure _
  | swap =>
    exact sandboxed_pop.bind fun a => sandboxed_pop.bind fun b =>
      (sandboxed_push a).bind fun _ => (sandboxed_push b).bind fun _ => .pure _
  | div => exact sandboxed_division pc _
  | mod => exact sandboxed_division pc _
  | jump target => exact .ite (fun _ => .throw _) fun _ => .pure _
  | jumpIfTrue target => exact sandboxed_conditionalJump length pc target _
  | jumpIfFalse target => exact sandboxed_conditionalJump length pc target _
  | loadVar idx =>
    refine .ite (fun _ => .throw _) fun isVar => ?_
    exact (sandboxed_readVar (Nat.not_le.mp isVar)).bind fun val =>
      (sandboxed_push val).bind fun _ => .pure _
  | storeVar idx =>
    refine .ite (fun _ => .throw _) fun isVar => ?_
    exact sandboxed_pop.bind fun val =>
      (sandboxed_writeVar (Nat.not_le.mp isVar) val).bind fun _ => .pure _
  | callSyscall syscallId =>
    refine sandboxed_pop.bind fun arg => ?_
    refine (sandboxed_handleSyscall host syscallId arg).bind fun answer => ?_
    cases answer with
    | ok ret => exact (sandboxed_push ret).bind fun _ => .pure _
    | error code => exact .throw _
  | halt =>
    intro gas moreGas executed
    refine Lockstep.bind (Lockstep.tryCatch (sandboxed_pop gas moreGas executed) ?_)
      fun ret => Lockstep.pure _
    intro stop inBounds
    cases stop with
    | error error => exact Lockstep.pure 0
    | indexOutOfBounds => exact absurd rfl inBounds
  | _ => exact sandboxed_binary pc _

variable {host : HostEnvironment World} {bytecode : List OpCode} {pc : Nat}

theorem perform_iteration_of_noGas {machine : Machine World} (empty : machine.vm.gasRemaining = 0) :
    perform (iteration host bytecode pc) machine = (.error (.error .gasExhausted), machine) := by
  have charged : perform charge machine = (.error (.error .gasExhausted), machine) := by
    change perform (if machine.vm.gasRemaining = 0 then _ else _) machine = _
    rw [if_pos empty]
    rfl
  rw [iteration, perform_bind, charged]

def fetched (machine : Machine World) (pc : Nat) : Machine World :=
  { machine with
    vm := { machine.vm with gasRemaining := machine.vm.gasRemaining - 1 }
    trace := .fetch pc :: machine.trace }

theorem perform_iteration {machine : Machine World} (paid : machine.vm.gasRemaining ≠ 0)
    (inside : pc < bytecode.length) :
    perform (iteration host bytecode pc) machine =
      perform (instruction host bytecode.length pc bytecode[pc]) (fetched machine pc) := by
  have charged : perform charge machine = (.ok (),
        { machine with
          vm := { machine.vm with gasRemaining := machine.vm.gasRemaining - 1 } }) := by
    change perform (if machine.vm.gasRemaining = 0 then _ else _) machine = _
    rw [if_neg paid]
    rfl
  rw [iteration, perform_bind, charged]
  rw [fetch, List.getElem?_eq_getElem inside]
  rfl

theorem toNat_pred {remaining : UInt64} {gas : Nat} (isNext : remaining.toNat = gas + 1) :
    remaining ≠ 0 ∧ (remaining - 1).toNat = gas := by
  have one : (1 : UInt64).toNat = 1 := rfl
  constructor
  · rintro rfl
    cases isNext
  rw [UInt64.toNat_sub_of_le _ _ (UInt64.le_iff_toNat_le.mpr (by omega))]
  omega

theorem agree_fetched {first second : Machine World}
    (agree : Agree (gas + 1) (moreGas + 1) executed first second) (pc : Nat) :
    Agree gas moreGas (executed + 1) (fetched first pc) (fetched second pc) := by
  refine ⟨agree.ptr, agree.live, agree.vars, agree.world, ?_, agree.inside, ?_, ?_,
    (toNat_pred agree.gas).2, (toNat_pred agree.moreGas).2⟩
  · change _ :: _ = _ :: _
    rw [agree.trace]
  · intro ptr listed
    rcases List.mem_cons.mp listed with isNew | before
    · cases isNew
    exact agree.bounded ptr before
  have counted := agree.counted
  exact (countP_cons_of_pos rfl).trans (congrArg (· + 1) counted)

end Script

open Script

variable {host : HostEnvironment World} {bytecode : List OpCode}

/-- What is kept of a run: the result, the state of the host and the events. -/
def EndsWith (result : Except Stop Int64) (world : World) (trace : List VmEvent)
    (outcome : Option (Except Stop Int64 × Machine World)) : Prop :=
  ∃ vm, outcome = some (result, { vm := vm, world := world, trace := trace })

theorem EndsWith.unique {result otherResult : Except Stop Int64} {world otherWorld : World}
    {trace otherTrace : List VmEvent} {outcome : Option (Except Stop Int64 × Machine World)}
    (ends : EndsWith result world trace outcome)
    (otherEnds : EndsWith otherResult otherWorld otherTrace outcome) :
    result = otherResult ∧ world = otherWorld ∧ trace = otherTrace := by
  obtain ⟨_, ends⟩ := ends
  obtain ⟨_, otherEnds⟩ := otherEnds
  cases ends.symm.trans otherEnds
  exact ⟨rfl, rfl, rfl⟩

/-- What a run of a script ends with: it keeps to the bounds and to its gas. -/
structure Confined (gas : Nat) (result : Except Stop Int64) (trace : List VmEvent) : Prop where
  inBounds : ∀ stop, result = .error stop → stop.InBounds
  executed : trace.countP VmEvent.isFetch ≤ gas
  bounded : ∀ ptr, .stackPtr ptr ∈ trace → ptr ≤ vmStackCapacity

theorem Agree.ends {gas moreGas executed : Nat} {first second : Machine World}
    (agree : Agree gas moreGas executed first second) (result : Except Stop Int64) :
    EndsWith result first.world first.trace (some (result, first)) ∧
      EndsWith result first.world first.trace (some (result, second)) := by
  refine ⟨⟨first.vm, rfl⟩, second.vm, ?_⟩
  rw [← agree.world, ← agree.trace]

theorem Agree.confined {gas moreGas executed total : Nat} {first second : Machine World}
    (agree : Agree gas moreGas executed first second) {result : Except Stop Int64}
    (inBounds : ∀ stop, result = .error stop → stop.InBounds) (noMore : executed ≤ total) :
    Confined total result first.trace :=
  ⟨inBounds, Nat.le_trans (Nat.le_of_eq agree.counted) noMore, agree.bounded⟩

/-- With enough fuel for their gas, the runs from machines that agree end alike, unless the
first one is out of gas. -/
theorem scriptLoop_agree {fuel moreFuel gas moreGas executed pc : Nat}
    {first second : Machine World} (agree : Agree gas moreGas executed first second)
    (noLess : gas ≤ moreGas) (enough : gas < fuel) (moreEnough : moreGas < moreFuel) :
    ∃ result world trace, EndsWith result world trace (scriptLoop host bytecode fuel pc first) ∧
        Confined (executed + gas) result trace ∧
        (result ≠ .error (.error .gasExhausted) ∨ gas = moreGas →
          EndsWith result world trace (scriptLoop host bytecode moreFuel pc second)) := by
  induction fuel generalizing moreFuel gas moreGas executed pc first second with
  | zero => cases enough
  | succ fuel ih =>
    obtain ⟨moreFuel, rfl⟩ := Nat.exists_eq_add_one_of_ne_zero (Nat.ne_zero_of_lt moreEnough)
    rw [scriptLoop, scriptLoop]
    by_cases inside : pc < bytecode.length
    · rw [if_pos inside, if_pos inside]
      cases gas with
      | zero =>
        have empty : first.vm.gasRemaining = 0 := UInt64.toNat_inj.mp agree.gas
        refine ⟨.error (.error .gasExhausted), first.world, first.trace, ?_,
          agree.confined ?_ (Nat.le_refl _), ?_⟩
        · rw [perform_iteration_of_noGas empty]
          exact (agree.ends _).1
        · rintro _ ⟨⟩
          exact Stop.noConfusion
        rintro (other | same)
        · exact absurd rfl other
        have alsoEmpty : second.vm.gasRemaining = 0 :=
          UInt64.toNat_inj.mp (agree.moreGas.trans same.symm)
        rw [perform_iteration_of_noGas alsoEmpty]
        exact (agree.ends _).2
      | succ gas =>
        obtain ⟨more, rfl⟩ := Nat.exists_eq_add_one_of_ne_zero
          (Nat.ne_zero_of_lt (Nat.lt_of_lt_of_le gas.lt_succ_self noLess))
        rw [perform_iteration (toNat_pred agree.gas).1 inside,
          perform_iteration (toNat_pred agree.moreGas).1 inside]
        obtain ⟨alike, inBounds, next⟩ :=
          sandboxed_instruction host bytecode.length pc bytecode[pc] _ _ _ _ _
            (agree_fetched agree pc)
        rcases firstRun : perform _ (fetched first pc) with ⟨flow, firstNext⟩
        rcases secondRun : perform _ (fetched second pc) with ⟨_, secondNext⟩
        rw [firstRun] at alike inBounds next
        rw [secondRun] at alike next
        cases alike
        rcases flow with stop | target | ret
        · refine ⟨.error stop, firstNext.world, firstNext.trace, (next.ends _).1,
            next.confined ?_ (by omega), fun _ => (next.ends _).2⟩
          rintro _ ⟨⟩
          exact inBounds stop rfl
        · have total : executed + (gas + 1) = executed + 1 + gas := by
            omega
          rw [total]
          obtain ⟨result, world, trace, ends, confined, alsoEnds⟩ :=
            ih next (le_of_succ_le_succ noLess)
              (lt_of_succ_lt_succ enough) (lt_of_succ_lt_succ moreEnough)
          refine ⟨result, world, trace, ends, confined, fun settled => alsoEnds ?_⟩
          exact settled.imp_right Nat.succ.inj
        refine ⟨.ok ret, firstNext.world, firstNext.trace, (next.ends _).1,
          next.confined ?_ (by omega), fun _ => (next.ends _).2⟩
        rintro _ ⟨⟩
    rw [if_neg inside, if_neg inside]
    refine ⟨.error (.error .unexpectedEndOfBytecode), first.world, first.trace,
      (agree.ends _).1, agree.confined ?_ (le_add_right _ _), fun _ => (agree.ends _).2⟩
    rintro _ ⟨⟩
    exact Stop.noConfusion

theorem agree_load {maxGas moreGas : UInt64} (world : World) (first second : ScriptVm) :
    Agree maxGas.toNat moreGas.toNat 0 (first.load maxGas world) (second.load moreGas world) := by
  refine ⟨rfl, ?_, rfl, rfl, rfl, zero_le _, ?_, rfl, rfl, rfl⟩
  · intro index below
    exact absurd below (not_lt_zero index)
  intro ptr listed
  cases List.mem_singleton.mp listed
  exact zero_le _

/-- A script ends with a result, with calls of the host and with other events that are the
same on every machine, keep to the bounds and its gas, and are the same with more gas unless
the gas was exhausted. -/
theorem execute_confined (host : HostEnvironment World) (bytecode : List OpCode)
    (maxGas : UInt64) (world : World) :
    ∃ result worldAfter trace, Confined maxGas.toNat result trace ∧
        (∀ (vm : ScriptVm) (fuel : Nat), maxGas.toNat < fuel →
          EndsWith result worldAfter trace (vm.execute bytecode maxGas host world fuel)) ∧
        (result ≠ .error (.error .gasExhausted) →
          ∀ (moreGas : UInt64) (vm : ScriptVm) (fuel : Nat), maxGas ≤ moreGas →
            moreGas.toNat < fuel →
            EndsWith result worldAfter trace (vm.execute bytecode moreGas host world fuel)) := by
  have compared : ∀ (moreGas : UInt64) (vm : ScriptVm) (fuel : Nat), maxGas ≤ moreGas →
      moreGas.toNat < fuel →
      ∃ result worldAfter trace, EndsWith result worldAfter trace
            (ScriptVm.new.execute bytecode maxGas host world (maxGas.toNat + 1)) ∧
          Confined (0 + maxGas.toNat) result trace ∧
          (result ≠ .error (.error .gasExhausted) ∨ maxGas.toNat = moreGas.toNat →
            EndsWith result worldAfter trace (vm.execute bytecode moreGas host world fuel)) := by
    intro moreGas vm fuel noLess enough
    exact scriptLoop_agree (agree_load world ScriptVm.new vm) (UInt64.le_iff_toNat_le.mp noLess)
      (lt_succ_self _) enough
  obtain ⟨result, worldAfter, trace, ends, confined, _⟩ :=
    compared maxGas ScriptVm.new _ (UInt64.le_refl maxGas) (lt_succ_self _)
  rw [Nat.zero_add] at confined
  refine ⟨result, worldAfter, trace, confined, ?_, ?_⟩
  · intro vm fuel enough
    obtain ⟨_, _, _, otherEnds, _, alsoEnds⟩ := compared maxGas vm fuel (UInt64.le_refl _) enough
    obtain ⟨rfl, rfl, rfl⟩ := ends.unique otherEnds
    exact alsoEnds (Or.inr rfl)
  intro settled moreGas vm fuel noLess enough
  obtain ⟨_, _, _, otherEnds, _, alsoEnds⟩ := compared moreGas vm fuel noLess enough
  obtain ⟨rfl, rfl, rfl⟩ := ends.unique otherEnds
  exact alsoEnds (Or.inl settled)

/-- A division by minus one of the smallest number, which has no quotient. -/
example : ((ScriptVm.new.execute [.push Int64.minValue, .push (-1), .div, .callSyscall 3, .halt] 5
        { handleSyscall := fun calls _ arg => (.ok arg, calls + 1) } 0 6).map
      fun outcome => (outcome.1, outcome.2.world)) = some (.ok 0, 1) :=
  rfl

end Eidolon.World
