import ChipEight.Machine.Execute

/-! Instructions without the monad they are written in. Whether an instruction faults is decided by
the processor alone, before anything is changed (`Cpu.refusal?`); one that does not fault is a
function from machines to machines (`Machine.after`). `execute_eq` and `step_eq` say that this is
all there is to an instruction and to a step. -/
namespace ChipEight

/-- The fault of touching `length` bytes from `start` on, if they do not all exist. -/
def Memory.spanFault? (start length : Nat) : Option Fault :=
  if start + length ≤ memorySize then none else some (.outOfBounds (max start memorySize))

namespace Cpu

/-- Why an instruction cannot be carried out, if it cannot. -/
def refusal? (cpu : Cpu) : Instruction → Option Fault
  | .ret => if cpu.stack = [] then some .stackUnderflow else none
  | .call _ => if cpu.stack.length < stackDepth then none else some .stackOverflow
  | .draw _ _ n => Memory.spanFault? cpu.i.toNat n.val
  | .skipIfPressed x | .skipIfReleased x =>
    if (cpu.register x).toNat < 16 then none else some (.notOnKeypad (cpu.register x))
  | .decimal _ => Memory.spanFault? cpu.i.toNat 3
  | .store x | .load x => Memory.spanFault? cpu.i.toNat (x.val + 1)
  | _ => none

/-- The key whose number a register holds. Meant for registers that hold one. -/
def keyIn (cpu : Cpu) (x : Register) : Key := Fin.ofNat 16 (cpu.register x).toNat

theorem keyIn_eq {cpu : Cpu} {x : Register} (known : (cpu.register x).toNat < 16) :
    cpu.keyIn x = ⟨(cpu.register x).toNat, known⟩ :=
  Fin.ext (Nat.mod_eq_of_lt known)

def current (cpu : Cpu) : Except Fault Instruction := do
  let word ← cpu.fetch
  let instruction ← Instruction.decode (.ofWord word)
  match cpu.refusal? instruction with
  | some fault => .error fault
  | none => .ok instruction

end Cpu

namespace Machine

/-- The machine after an instruction that is not refused, before the program counter moves on. -/
def after (keys : Key → Bool) (now : Instant) (m : Machine) : Instruction → Machine
  | .clear => { m with display := m.display.clear }
  | .ret => { m with cpu := { m.cpu with pc := m.cpu.stack.headD 0, stack := m.cpu.stack.tail } }
  | .sys _ => m
  | .jump addr => { m with cpu := { m.cpu with pc := .ofNat addr.val - 2 } }
  | .call addr =>
    { m with cpu := { m.cpu with pc := .ofNat addr.val - 2, stack := m.cpu.pc :: m.cpu.stack } }
  | .skipIfEqual x kk => { m with cpu := m.cpu.skipIf (m.cpu.register x == kk) }
  | .skipIfNotEqual x kk => { m with cpu := m.cpu.skipIf (m.cpu.register x != kk) }
  | .skipIfSame x y => { m with cpu := m.cpu.skipIf (m.cpu.register x == m.cpu.register y) }
  | .set x kk => { m with cpu := m.cpu.setRegister x kk }
  | .add x kk => { m with cpu := m.cpu.setRegister x (m.cpu.register x + kk) }
  | .alu op x y => { m with cpu := m.cpu.alu m.settings.shiftOperand op x y }
  | .skipIfDifferent x y => { m with cpu := m.cpu.skipIf (m.cpu.register x != m.cpu.register y) }
  | .setIndex addr => { m with cpu := { m.cpu with i := .ofNat addr.val } }
  | .jumpOffset addr =>
    { m with cpu := { m.cpu with pc := .ofNat addr.val + (m.cpu.register 0).toUInt16 - 2 } }
  | .random x kk =>
    { m with
      random := m.random.next.2
      cpu := m.cpu.setRegister x (m.random.next.1 &&& kk) }
  | .draw x y n =>
    let sprite := m.cpu.memory.slice m.cpu.i.toNat n.val
    let drawn := m.display.draw (m.cpu.register x) (m.cpu.register y) sprite
    { m with
      display := drawn.1
      cpu := m.cpu.setRegister flagRegister (if drawn.2 then 1 else 0) }
  | .skipIfPressed x => { m with cpu := m.cpu.skipIf (keys (m.cpu.keyIn x) == true) }
  | .skipIfReleased x => { m with cpu := m.cpu.skipIf (keys (m.cpu.keyIn x) == false) }
  | .readDelay x => { m with cpu := m.cpu.setRegister x m.delay.value }
  | .awaitKey x => { m with cpu := { m.cpu with awaiting := some x } }
  | .setDelay x =>
    let set := m.delay.set (m.cpu.register x)
    { m with
      delay := set.1
      agenda := if set.2 then m.agenda.schedule .delay (now + m.settings.timerPeriod) else m.agenda }
  | .setSound x =>
    let set := m.sound.set (m.cpu.register x)
    { m with
      sound := set.1
      agenda := if set.2 then m.agenda.schedule .sound (now + m.settings.timerPeriod) else m.agenda }
  | .addIndex x => { m with cpu := { m.cpu with i := m.cpu.i + (m.cpu.register x).toUInt16 } }
  | .glyph x =>
    { m with cpu := { m.cpu with
      i := .ofNat (fontStart + glyphSize * (m.cpu.register x &&& 0xF).toNat) } }
  | .decimal x =>
    { m with cpu := { m.cpu with
      memory := m.cpu.memory.patch m.cpu.i.toNat (decimalDigits (m.cpu.register x)) } }
  | .store x =>
    { m with cpu := { m.cpu with
      memory := m.cpu.memory.patch m.cpu.i.toNat (m.cpu.registersTo x) } }
  | .load x => { m with cpu := m.cpu.setRegisters (m.cpu.memory.slice m.cpu.i.toNat (x.val + 1)) }

def moveOn (m : Machine) : Machine := { m with cpu := m.cpu.advance }

/-- The processor after a step, or `faulted` if the step is refused. -/
def stepped (keys : Key → Bool) (now : Instant) (m : Machine) (faulted : Cpu) : Cpu :=
  match m.cpu.awaiting with
  | some _ => m.cpu
  | none =>
    match m.cpu.current with
    | .ok instruction => (m.after keys now instruction).moveOn.cpu
    | .error _ => faulted

/-- What becomes of a machine that carries out an instruction unless that is refused. -/
def attempt (m : Machine) (refusal : Option Fault) (next : Machine) :
    EStateM.Result Fault Machine Unit :=
  match refusal with
  | some fault => .error fault m
  | none => .ok () next

end Machine

theorem length_decimalDigits (value : UInt8) : (decimalDigits value).length = 3 := rfl

theorem Cpu.length_registersTo (cpu : Cpu) (x : Register) :
    (cpu.registersTo x).length = x.val + 1 := by
  simp [registersTo, Nat.succ_le_of_lt x.isLt]

theorem Cpu.alu_registers (cpu : Cpu) (source : ShiftOperand) (op : RegisterOp) (x y : Register) :
    ∃ v, cpu.alu source op x y = { cpu with v } := by
  simp only [alu]
  split <;> exact ⟨_, rfl⟩

theorem Action.get_bind (next : Machine → Action α) (m : Machine) :
    (get >>= next) m = next m m := by
  exact rfl

theorem Action.ofExcept_bind (result : Except Fault α) (next : α → Action β) (m : Machine) :
    (Action.ofExcept result >>= next) m =
      match result with
      | .ok value => next value m
      | .error fault => .error fault m := by
  cases result <;> rfl

namespace Machine

theorem call_eq (target : UInt16) (m : Machine) :
    call target m = m.attempt (if m.cpu.stack.length < stackDepth then none else some .stackOverflow)
      { m with cpu := { m.cpu with pc := target - 2, stack := m.cpu.pc :: m.cpu.stack } } := by
  simp only [call, Action.get_bind, Action.ofExcept_bind, Cpu.push]
  by_cases room : m.cpu.stack.length < stackDepth <;> simp only [room, ↓reduceIte] <;> rfl

theorem ret_eq (m : Machine) :
    ret m = m.attempt (if m.cpu.stack = [] then some .stackUnderflow else none)
      { m with cpu := { m.cpu with pc := m.cpu.stack.headD 0, stack := m.cpu.stack.tail } } := by
  simp only [ret, Action.get_bind, Action.ofExcept_bind, Cpu.pop]
  cases m.cpu.stack <;> rfl

theorem drawSprite_eq (x y : Register) (n : Fin 16) (m : Machine) :
    drawSprite x y n m = m.attempt (Memory.spanFault? m.cpu.i.toNat n.val)
      (let sprite := m.cpu.memory.slice m.cpu.i.toNat n.val
      let drawn := m.display.draw (m.cpu.register x) (m.cpu.register y) sprite
      { m with
        display := drawn.1
        cpu := m.cpu.setRegister flagRegister (if drawn.2 then 1 else 0) }) := by
  simp only [drawSprite, Action.get_bind, Action.ofExcept_bind, Memory.read, Memory.checkSpan,
    Memory.spanFault?]
  by_cases exist : m.cpu.i.toNat + n.val ≤ memorySize <;> simp only [exist, ↓reduceIte] <;> rfl

theorem skipOnKey_eq (keys : Key → Bool) (x : Register) (held : Bool) (m : Machine) :
    skipOnKey keys x held m =
      m.attempt (if (m.cpu.register x).toNat < 16 then none else some (.notOnKeypad (m.cpu.register x)))
        { m with cpu := m.cpu.skipIf (keys (m.cpu.keyIn x) == held) } := by
  simp only [skipOnKey, Action.get_bind, Action.ofExcept_bind, Key.ofCode]
  by_cases known : (m.cpu.register x).toNat < 16
  · simp only [known, ↓reduceDIte, ↓reduceIte, Cpu.keyIn_eq known]
    rfl
  · simp only [known, ↓reduceDIte, ↓reduceIte]
    rfl

theorem writeMemory_eq (bytes : List UInt8) (m : Machine) :
    writeMemory bytes m = m.attempt (Memory.spanFault? m.cpu.i.toNat bytes.length)
      { m with cpu := { m.cpu with memory := m.cpu.memory.patch m.cpu.i.toNat bytes } } := by
  simp only [writeMemory, Action.get_bind, Action.ofExcept_bind, Memory.checkSpan,
    Memory.spanFault?]
  by_cases exist : m.cpu.i.toNat + bytes.length ≤ memorySize <;>
    simp only [exist, ↓reduceIte] <;> rfl

theorem loadRegisters_eq (x : Register) (m : Machine) :
    loadRegisters x m = m.attempt (Memory.spanFault? m.cpu.i.toNat (x.val + 1))
      { m with cpu := m.cpu.setRegisters (m.cpu.memory.slice m.cpu.i.toNat (x.val + 1)) } := by
  simp only [loadRegisters, Action.get_bind, Action.ofExcept_bind, Memory.read, Memory.checkSpan,
    Memory.spanFault?]
  by_cases exist : m.cpu.i.toNat + (x.val + 1) ≤ memorySize <;>
    simp only [exist, ↓reduceIte] <;> rfl

/-- Every instruction is refused with the machine as it was, or carried out as a whole. -/
theorem execute_eq (keys : Key → Bool) (now : Instant) (instruction : Instruction) (m : Machine) :
    execute keys now instruction m =
      m.attempt (m.cpu.refusal? instruction) (m.after keys now instruction) := by
  cases instruction with
  | ret => exact ret_eq m
  | call addr => exact call_eq _ m
  | draw x y n => exact drawSprite_eq x y n m
  | skipIfPressed x => exact skipOnKey_eq keys x true m
  | skipIfReleased x => exact skipOnKey_eq keys x false m
  | decimal x =>
    simp only [execute, Action.get_bind, writeMemory_eq, length_decimalDigits, Cpu.refusal?, after]
  | store x =>
    simp only [execute, Action.get_bind, writeMemory_eq, Cpu.length_registersTo, Cpu.refusal?, after]
  | load x => exact loadRegisters_eq x m
  | _ => rfl

theorem execute_refused {keys : Key → Bool} {now : Instant} {instruction : Instruction} {m : Machine}
    {fault : Fault} (refused : m.cpu.refusal? instruction = some fault) :
    execute keys now instruction m = .error fault m := by
  rw [execute_eq, refused, attempt]

/-- A step waits, is refused with the machine as it was, or carries out the current instruction as
a whole and moves on. -/
theorem step_eq (keys : Key → Bool) (now : Instant) (m : Machine) :
    step keys now m =
      match m.cpu.awaiting with
      | some _ => .ok () m
      | none =>
        match m.cpu.current with
        | .ok instruction => .ok () (m.after keys now instruction).moveOn
        | .error fault => .error fault m := by
  simp only [step, Action.get_bind, Cpu.current]
  cases m.cpu.awaiting with
  | some x => rfl
  | none =>
    simp only [Action.ofExcept_bind]
    cases m.cpu.fetch with
    | error fault => rfl
    | ok word =>
      simp only [bind, Except.bind]
      cases Instruction.decode (.ofWord word) with
      | error fault => rfl
      | ok instruction =>
        simp only [EStateM.bind, execute_eq, attempt]
        cases m.cpu.refusal? instruction <;> rfl

def fault? (keys : Key → Bool) (now : Instant) (m : Machine) : Option Fault :=
  match step keys now m with
  | .ok .. => none
  | .error fault _ => some fault

theorem fault?_eq_some_iff {keys : Key → Bool} {now : Instant} {m : Machine} {fault : Fault} :
    m.fault? keys now = some fault ↔ m.cpu.awaiting = none ∧ m.cpu.current = .error fault := by
  rw [fault?, step_eq]
  cases m.cpu.awaiting with
  | some x => simp
  | none => cases m.cpu.current <;> simp

/-- The instruction that a step carries out without a fault, if it does so. -/
def carriesOut? (keys : Key → Bool) (now : Instant) (m : Machine) : Option Instruction :=
  match m.cpu.awaiting, m.cpu.fetch, step keys now m with
  | none, .ok word, .ok () _ => (Instruction.decode (.ofWord word)).toOption
  | _, _, _ => none

theorem carriesOut?_eq_some_iff {keys : Key → Bool} {now : Instant} {m : Machine}
    {instruction : Instruction} :
    m.carriesOut? keys now = some instruction ↔
      m.cpu.awaiting = none ∧ m.cpu.current = .ok instruction := by
  rw [carriesOut?, step_eq]
  cases m.cpu.awaiting with
  | some x => simp
  | none =>
    simp only [Cpu.current, bind, Except.bind]
    cases m.cpu.fetch with
    | error fault => simp
    | ok word =>
      cases decoded : Instruction.decode (.ofWord word) with
      | error fault => simp [decoded]
      | ok candidate =>
        cases refused : m.cpu.refusal? candidate <;> simp [decoded, refused, Except.toOption]

theorem carriesOut?_eq (keys : Key → Bool) (now : Instant) (m : Machine) :
    m.carriesOut? keys now =
      match m.cpu.awaiting with
      | some _ => none
      | none => m.cpu.current.toOption := by
  refine Option.ext fun instruction => ?_
  rw [carriesOut?_eq_some_iff]
  cases m.cpu.awaiting with
  | some x => simp
  | none => cases m.cpu.current <;> simp [Except.toOption]

end Machine
end ChipEight
