import ChipEight.Instruction.Basic

/-! Which instruction an opcode stands for. The first nibble chooses, and in the categories 0, 5,
8, 9, E and F also the nibbles after the operands. Category 0 never faults: what is neither a
clear nor a return names a routine of the host processor, which does nothing here. -/
namespace ChipEight

def RegisterOp.ofNibble? (n : Fin 16) : Option RegisterOp :=
  match n.val with
  | 0x0 => some assign
  | 0x1 => some or
  | 0x2 => some and
  | 0x3 => some xor
  | 0x4 => some add
  | 0x5 => some sub
  | 0x6 => some shiftRight
  | 0x7 => some subReverse
  | 0xE => some shiftLeft
  | _ => none

namespace Instruction

def decodeSystem (op : Opcode) : Instruction :=
  match op.n.val with
  | 0x0 => clear
  | 0xE => ret
  | _ => sys op.addr

def decodeKey? (op : Opcode) : Option Instruction :=
  match op.kk.toNat with
  | 0x9E => some (skipIfPressed op.x)
  | 0xA1 => some (skipIfReleased op.x)
  | _ => none

def decodeMisc? (op : Opcode) : Option Instruction :=
  match op.kk.toNat with
  | 0x07 => some (readDelay op.x)
  | 0x0A => some (awaitKey op.x)
  | 0x15 => some (setDelay op.x)
  | 0x18 => some (setSound op.x)
  | 0x1E => some (addIndex op.x)
  | 0x29 => some (glyph op.x)
  | 0x33 => some (decimal op.x)
  | 0x55 => some (store op.x)
  | 0x65 => some (load op.x)
  | _ => none

@[inline]
def decode? (op : Opcode) : Option Instruction :=
  match op.category.val with
  | 0x0 => some (decodeSystem op)
  | 0x1 => some (jump op.addr)
  | 0x2 => some (call op.addr)
  | 0x3 => some (skipIfEqual op.x op.kk)
  | 0x4 => some (skipIfNotEqual op.x op.kk)
  | 0x5 => if op.n = 0 then some (skipIfSame op.x op.y) else none
  | 0x6 => some (set op.x op.kk)
  | 0x7 => some (add op.x op.kk)
  | 0x8 => (RegisterOp.ofNibble? op.n).map fun operation => alu operation op.x op.y
  | 0x9 => if op.n = 0 then some (skipIfDifferent op.x op.y) else none
  | 0xA => some (setIndex op.addr)
  | 0xB => some (jumpOffset op.addr)
  | 0xC => some (random op.x op.kk)
  | 0xD => some (draw op.x op.y op.n)
  | 0xE => decodeKey? op
  | _ => decodeMisc? op

@[inline]
def decode (op : Opcode) : Except Fault Instruction :=
  match decode? op with
  | some instruction => .ok instruction
  | none => .error (.unimplemented op.word)

end Instruction
end ChipEight
