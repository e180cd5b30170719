import ChipEight.Machine.Execute

/-! A processor on plain arrays and bounded numbers. Whatever could go wrong in it is checked where
it happens: each index, slice and copy, each sum, product and difference, each shift. A check that
fails is a trap, which is not a fault: nobody reports it. The call stack is an array of sixteen
cells and a counter. -/
namespace ChipEight

inductive Stop
  | fault (fault : Fault)
  | trap
deriving DecidableEq

structure Bare where
  pc : UInt16
  v : Vector UInt8 16
  i : UInt16
  /-- How many cells of the stack are live. -/
  sp : Nat
  stack : Vector UInt16 16
  awaiting : Option Nat
  memory : Vector UInt8 4096

namespace Bare

/-! ### Checked access and arithmetic -/

/-- Registers and addresses are computed in sixteen bits, positions in arrays in thirty-two. -/
def wordLimit : Nat := 0x10000
def sizeLimit : Nat := 0x100000000

def cell (cells : Vector α n) (index : Nat) : Except Stop α :=
  if h : index < n then .ok cells[index] else .error .trap

def setCell (cells : Vector α n) (index : Nat) (value : α) : Except Stop (Vector α n) :=
  if h : index < n then .ok (cells.set index value) else .error .trap

def slice (cells : Vector UInt8 n) (start stop : Nat) : Except Stop (List UInt8) :=
  if start ≤ stop ∧ stop ≤ n then .ok (cells.toArray.extract start stop).toList else .error .trap

/-- Copies values to the cells from `start` on and before `stop`. There must be as many. -/
def copy (cells : Vector UInt8 n) (start stop : Nat) (values : List UInt8) :
    Except Stop (Vector UInt8 n) :=
  if start ≤ stop ∧ stop ≤ n ∧ values.length = stop - start then .ok (overwrite cells start values)
  else .error .trap

def sum (limit a b : Nat) : Except Stop Nat := if a + b < limit then .ok (a + b) else .error .trap

def product (limit a b : Nat) : Except Stop Nat := if a * b < limit then .ok (a * b) else .error .trap

def difference (a b : Nat) : Except Stop Nat := if b ≤ a then .ok (a - b) else .error .trap

/-- Whether a key is held. Its bit in a mask of sixteen is found by a shift. -/
def isHeld (keys : Key → Bool) (key : Nat) : Except Stop Bool :=
  if h : key < 16 then .ok (keys ⟨key, h⟩) else .error .trap

/-! ### Memory and stack -/

def spanEnd (address : UInt16) (length : Nat) : Except Stop Nat := do
  let stop ← sum sizeLimit address.toNat length
  if memorySize < stop then .error (.fault (.outOfBounds (max address.toNat memorySize)))
  else return stop

def read (b : Bare) (address : UInt16) (length : Nat) : Except Stop (List UInt8) := do
  slice b.memory address.toNat (← spanEnd address length)

def fetch (b : Bare) : Except Stop UInt16 := do
  let bytes ← read b b.pc 2
  match bytes with
  | high :: low :: _ => return high.toUInt16 <<< 8 ||| low.toUInt16
  | _ => .error .trap

def push (b : Bare) (address : UInt16) : Except Stop Bare :=
  if b.sp = stackDepth then .error (.fault .stackOverflow)
  else do
    let stack ← setCell b.stack b.sp address
    return { b with stack, sp := ← sum sizeLimit b.sp 1 }

def pop (b : Bare) : Except Stop (UInt16 × Bare) :=
  if b.sp = 0 then .error (.fault .stackUnderflow)
  else do
    let sp ← difference b.sp 1
    return (← cell b.stack sp, { b with sp })

/-! ### Instructions -/

/-- Aims two bytes before a target, and says whether the program counter wrapped. It may do so only
for a target that has not two bytes before it. -/
def jump (b : Bare) (target : Nat) : Except Stop (Bare × Bool) :=
  if target < 2 then .ok ({ b with pc := .ofNat target - 2 }, true)
  else do return ({ b with pc := .ofNat (← difference target 2) }, false)

def skipIf (b : Bare) (condition : Bool) : Except Stop (Bare × Bool) :=
  if condition then do return ({ b with pc := .ofNat (← sum wordLimit b.pc.toNat 2) }, false)
  else .ok (b, false)

def setRegister (b : Bare) (x : Nat) (value : UInt8) : Except Stop (Bare × Bool) := do
  return ({ b with v := ← setCell b.v x value }, false)

def keyIn (b : Bare) (x : Nat) : Except Stop Nat := do
  let code ← cell b.v x
  if code.toNat < 16 then return code.toNat else .error (.fault (.notOnKeypad code))

def alu (b : Bare) (source : ShiftOperand) (op : RegisterOp) (x y : Nat) :
    Except Stop (Bare × Bool) := do
  let vx ← cell b.v x
  let vy ← cell b.v y
  let (result, flag?) := op.apply vx vy (match source with | .vx => vx | .vy => vy)
  let v ← setCell b.v x result
  match flag? with
  | some flag => return ({ b with v := ← setCell v 15 flag }, false)
  | none => return ({ b with v }, false)

/-- What an instruction does, and whether it wrapped the program counter. What is not of the
processor, such as the delay timer, is the machine's. -/
def execute (keys : Key → Bool) (m : Machine) (b : Bare) : Instruction → Except Stop (Bare × Bool)
  | .clear | .sys _ => .ok (b, false)
  | .ret => do
    let (address, b) ← b.pop
    return ({ b with pc := address }, false)
  | .jump addr => b.jump addr.val
  | .call addr => do (← b.push b.pc).jump addr.val
  | .skipIfEqual x kk => do b.skipIf ((← cell b.v x.val) == kk)
  | .skipIfNotEqual x kk => do b.skipIf ((← cell b.v x.val) != kk)
  | .skipIfSame x y => do b.skipIf ((← cell b.v x.val) == (← cell b.v y.val))
  | .skipIfDifferent x y => do b.skipIf ((← cell b.v x.val) != (← cell b.v y.val))
  | .set x kk => b.setRegister x.val kk
  | .add x kk => do b.setRegister x.val ((← cell b.v x.val) + kk)
  | .alu op x y => b.alu m.settings.shiftOperand op x.val y.val
  | .setIndex addr => .ok ({ b with i := .ofNat addr.val }, false)
  | .jumpOffset addr => do b.jump (← sum wordLimit addr.val (← cell b.v 0).toNat)
  | .random x kk => b.setRegister x.val (m.random.next.1 &&& kk)
  | .draw x y n => do
    let vx ← cell b.v x.val
    let vy ← cell b.v y.val
    let sprite ← b.read b.i n.val
    b.setRegister 15 (if (m.display.draw vx vy sprite).2 then 1 else 0)
  | .skipIfPressed x => do b.skipIf (← isHeld keys (← b.keyIn x.val))
  | .skipIfReleased x => do b.skipIf (!(← isHeld keys (← b.keyIn x.val)))
  | .readDelay x => b.setRegister x.val m.delay.value
  | .awaitKey x => .ok ({ b with awaiting := some x.val }, false)
  | .setDelay x | .setSound x => do
    let _ ← cell b.v x.val
    return (b, false)
  | .addIndex x => do return ({ b with i := b.i + (← cell b.v x.val).toUInt16 }, false)
  | .glyph x => do
    let digit := (← cell b.v x.val) &&& 0xF
    let offset ← product wordLimit glyphSize digit.toNat
    return ({ b with i := .ofNat (← sum wordLimit fontStart offset) }, false)
  | .decimal x => do
    let value ← cell b.v x.val
    let stop ← spanEnd b.i 3
    return ({ b with memory := ← copy b.memory b.i.toNat stop (decimalDigits value) }, false)
  | .store x => do
    let stop ← spanEnd b.i (← sum sizeLimit x.val 1)
    let values ← slice b.v 0 (x.val + 1)
    return ({ b with memory := ← copy b.memory b.i.toNat stop values }, false)
  | .load x => do
    let bytes ← b.read b.i (← sum sizeLimit x.val 1)
    let registers ← copy (Vector.replicate 16 0) 0 (x.val + 1) bytes
    let values ← slice registers 0 (x.val + 1)
    return ({ b with v := ← copy b.v 0 (x.val + 1) values }, false)

/-- Moves past an instruction. The program counter may wrap only if it did so before. -/
def advance (b : Bare) (wrapped : Bool) : Except Stop Bare :=
  if wrapped then .ok { b with pc := b.pc + 2 }
  else do return { b with pc := .ofNat (← sum wordLimit b.pc.toNat 2) }

def carryOut (keys : Key → Bool) (m : Machine) (b : Bare) (word : UInt16) : Except Stop Bare :=
  match Instruction.decode (.ofWord word) with
  | .error fault => .error (.fault fault)
  | .ok instruction => do
    let (next, wrapped) ← b.execute keys m instruction
    next.advance wrapped

def step (keys : Key → Bool) (m : Machine) (b : Bare) : Except Stop Bare :=
  match b.awaiting with
  | some _ => .ok b
  | none => do b.carryOut keys m (← b.fetch)

end Bare
end ChipEight
