import ChipEight.Instruction.Opcode
import ChipEight.Memory

/-! What an instruction can see of the processor: registers, call stack, memory, and the
register that a pending key press is to be stored in. -/
namespace ChipEight

def stackDepth : Nat := 16

/-- The last register, which arithmetic and drawing use for their flag. -/
def flagRegister : Register := 0xF

structure Cpu where
  pc : UInt16 := .ofNat programStart
  v : Vector UInt8 16 := Vector.replicate 16 0
  i : UInt16 := 0
  /-- Return addresses, the latest first. -/
  stack : List UInt16 := []
  awaiting : Option Register := none
  memory : Memory := .initial
deriving DecidableEq

namespace Cpu

@[inline]
def register (cpu : Cpu) (x : Register) : UInt8 := cpu.v[x]

@[inline]
def setRegister (cpu : Cpu) (x : Register) (value : UInt8) : Cpu := { cpu with v := cpu.v.set x value }

theorem getElem?_v (cpu : Cpu) (x : Register) : cpu.v[x.val]? = some (cpu.register x) :=
  Vector.getElem?_eq_getElem x.isLt

theorem register_setRegister (cpu : Cpu) (x r : Register) (value : UInt8) :
    (cpu.setRegister x value).register r = if r = x then value else cpu.register r := by
  simp only [register, setRegister, Fin.getElem_fin, Vector.getElem_set, Fin.ext_iff, eq_comm]

/-- The registers V0 to VX. -/
def registersTo (cpu : Cpu) (x : Register) : List UInt8 := cpu.v.toList.take (x.val + 1)

/-- Replaces the first registers by the given values. -/
def setRegisters (cpu : Cpu) (values : List UInt8) : Cpu := { cpu with v := overwrite cpu.v 0 values }

@[inline]
def advance (cpu : Cpu) : Cpu := { cpu with pc := cpu.pc + 2 }

@[inline]
def skipIf (cpu : Cpu) (condition : Bool) : Cpu := if condition then cpu.advance else cpu

/-- The opcode at the program counter. -/
@[inline]
def fetch (cpu : Cpu) : Except Fault UInt16 := cpu.memory.word cpu.pc.toNat

def push (cpu : Cpu) (address : UInt16) : Except Fault Cpu :=
  if cpu.stack.length < stackDepth then .ok { cpu with stack := address :: cpu.stack }
  else .error .stackOverflow

def pop (cpu : Cpu) : Except Fault (UInt16 × Cpu) :=
  match cpu.stack with
  | address :: rest => .ok (address, { cpu with stack := rest })
  | [] => .error .stackUnderflow

end Cpu
end ChipEight
