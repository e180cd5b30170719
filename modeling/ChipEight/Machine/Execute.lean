import ChipEight.Instruction.Decode
import ChipEight.Keypad.Basic
import ChipEight.Machine.Basic

/-! One instruction. The program counter moves past every instruction after it was executed, so
jumps aim two bytes before their target. A fault keeps whatever the instruction had done. -/
namespace ChipEight

/-- The result of a register operation, and the flag of those that have one. A shift takes its
operand from `shifted`. -/
def RegisterOp.apply (op : RegisterOp) (vx vy shifted : UInt8) : UInt8 × Option UInt8 :=
  match op with
  | assign => (vy, none)
  | or => (vx ||| vy, none)
  | and => (vx &&& vy, none)
  | xor => (vx ^^^ vy, none)
  | add => (vx + vy, some (if 256 ≤ vx.toNat + vy.toNat then 1 else 0))
  | sub => (vx - vy, some (if vy ≤ vx then 1 else 0))
  | shiftRight => (shifted >>> 1, some (shifted &&& 1))
  | subReverse => (vy - vx, some (if vx ≤ vy then 1 else 0))
  | shiftLeft => (shifted <<< 1, some (shifted >>> 7))

def decimalDigits (value : UInt8) : List UInt8 := [value / 100, value / 10 % 10, value % 10]

/-- The result is written before the flag, so the flag wins where both go to VF. -/
def Cpu.alu (cpu : Cpu) (source : ShiftOperand) (op : RegisterOp) (x y : Register) : Cpu :=
  let shifted := match source with
    | .vx => cpu.register x
    | .vy => cpu.register y
  let (result, flag?) := op.apply (cpu.register x) (cpu.register y) shifted
  match flag? with
  | some flag => (cpu.setRegister x result).setRegister flagRegister flag
  | none => cpu.setRegister x result

/-- A change of the machine that may fault on the way. -/
abbrev Action := EStateM Fault Machine

@[inline]
def Action.ofExcept (result : Except Fault α) : Action α := fun m =>
  match result with
  | .ok value => .ok value m
  | .error fault => .error fault m

namespace Machine

@[inline]
def modifyCpu (change : Cpu → Cpu) : Action Unit := modify fun m => { m with cpu := change m.cpu }

@[inline]
def jump (target : UInt16) : Action Unit := modifyCpu fun cpu => { cpu with pc := target - 2 }

def call (target : UInt16) : Action Unit := do
  let m ← get
  let cpu ← Action.ofExcept (m.cpu.push m.cpu.pc)
  set { m with cpu }
  jump target

def ret : Action Unit := do
  let m ← get
  let (address, cpu) ← Action.ofExcept m.cpu.pop
  set { m with cpu := { cpu with pc := address } }

def randomize (x : Register) (mask : UInt8) : Action Unit := modify fun m =>
  let (byte, random) := m.random.next
  { m with random, cpu := m.cpu.setRegister x (byte &&& mask) }

/-- The origin is read before the flag register is written. -/
def drawSprite (x y : Register) (n : Fin 16) : Action Unit := do
  let m ← get
  let sprite ← Action.ofExcept (m.cpu.memory.read m.cpu.i.toNat n.val)
  let (display, erased) := m.display.draw (m.cpu.register x) (m.cpu.register y) sprite
  set { m with display, cpu := m.cpu.setRegister flagRegister (if erased then 1 else 0) }

/-- Skips the next instruction if key VX is held just when `held` says so. -/
def skipOnKey (keys : Key → Bool) (x : Register) (held : Bool) : Action Unit := do
  let m ← get
  let key ← Action.ofExcept (Key.ofCode (m.cpu.register x))
  modifyCpu (·.skipIf (keys key == held))

def setDelay (now : Instant) (x : Register) : Action Unit := modify fun m =>
  let (delay, starts) := m.delay.set (m.cpu.register x)
  { m with
    delay
    agenda := if starts then m.agenda.schedule .delay (now + m.settings.timerPeriod) else m.agenda }

def setSound (now : Instant) (x : Register) : Action Unit := modify fun m =>
  let (sound, starts) := m.sound.set (m.cpu.register x)
  { m with
    sound
    agenda := if starts then m.agenda.schedule .sound (now + m.settings.timerPeriod) else m.agenda }

def writeMemory (bytes : List UInt8) : Action Unit := do
  Action.ofExcept (Memory.checkSpan (← get).cpu.i.toNat bytes.length)
  modifyCpu fun cpu => { cpu with memory := cpu.memory.patch cpu.i.toNat bytes }

def loadRegisters (x : Register) : Action Unit := do
  let m ← get
  let bytes ← Action.ofExcept (m.cpu.memory.read m.cpu.i.toNat (x.val + 1))
  set { m with cpu := m.cpu.setRegisters bytes }

/-- Carries out an instruction. `keys` tells which keys are held and `now` is the time. -/
def execute (keys : Key → Bool) (now : Instant) (instruction : Instruction) : Action Unit := do
  let m ← get
  let v := m.cpu.register
  match instruction with
  | .clear => set { m with display := m.display.clear }
  | .ret => ret
  | .sys _ => pure ()
  | .jump addr => jump (.ofNat addr.val)
  | .call addr => call (.ofNat addr.val)
  | .skipIfEqual x kk => modifyCpu (·.skipIf (v x == kk))
  | .skipIfNotEqual x kk => modifyCpu (·.skipIf (v x != kk))
  | .skipIfSame x y => modifyCpu (·.skipIf (v x == v y))
  | .set x kk => modifyCpu (·.setRegister x kk)
  | .add x kk => modifyCpu (·.setRegister x (v x + kk))
  | .alu op x y => modifyCpu (·.alu m.settings.shiftOperand op x y)
  | .skipIfDifferent x y => modifyCpu (·.skipIf (v x != v y))
  | .setIndex addr => modifyCpu ({ · with i := .ofNat addr.val })
  | .jumpOffset addr => jump (.ofNat addr.val + (v 0).toUInt16)
  | .random x kk => randomize x kk
  | .draw x y n => drawSprite x y n
  | .skipIfPressed x => skipOnKey keys x true
  | .skipIfReleased x => skipOnKey keys x false
  | .readDelay x => modifyCpu (·.setRegister x m.delay.value)
  | .awaitKey x => modifyCpu ({ · with awaiting := some x })
  | .setDelay x => setDelay now x
  | .setSound x => setSound now x
  | .addIndex x => modifyCpu fun cpu => { cpu with i := cpu.i + (v x).toUInt16 }
  | .glyph x => modifyCpu ({ · with i := .ofNat (fontStart + glyphSize * (v x &&& 0xF).toNat) })
  | .decimal x => writeMemory (decimalDigits (v x))
  | .store x => writeMemory (m.cpu.registersTo x)
  | .load x => loadRegisters x

/-- Fetches, decodes and executes the instruction at the program counter and moves past it.
Nothing happens while a key press is awaited. -/
def step (keys : Key → Bool) (now : Instant) : Action Unit := do
  let m ← get
  match m.cpu.awaiting with
  | some _ => pure ()
  | none =>
    let word ← Action.ofExcept m.cpu.fetch
    let instruction ← Action.ofExcept (Instruction.decode (.ofWord word))
    execute keys now instruction
    modifyCpu Cpu.advance

/-- Whether the next step asks for the state of a key. -/
def consultsKeypad (m : Machine) : Bool :=
  match m.cpu.awaiting, m.cpu.fetch.map Opcode.ofWord with
  | none, .ok op =>
    match Instruction.decode op with
    | .ok (.skipIfPressed x) | .ok (.skipIfReleased x) => m.cpu.register x < 16
    | _ => false
  | _, _ => false

end Machine
end ChipEight
