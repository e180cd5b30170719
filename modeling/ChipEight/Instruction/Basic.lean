import ChipEight.Instruction.Opcode

/-! The instruction set. Registers are named by their index, addresses have twelve bits. -/
namespace ChipEight

/-- The register-to-register operations of category 8. -/
inductive RegisterOp
  | assign
  | or
  | and
  | xor
  | add
  | sub
  | shiftRight
  | subReverse
  | shiftLeft
deriving DecidableEq

inductive Instruction
  | clear
  | ret
  | sys (addr : Address)
  | jump (addr : Address)
  | call (addr : Address)
  | skipIfEqual (x : Register) (kk : UInt8)
  | skipIfNotEqual (x : Register) (kk : UInt8)
  | skipIfSame (x y : Register)
  | set (x : Register) (kk : UInt8)
  | add (x : Register) (kk : UInt8)
  | alu (op : RegisterOp) (x y : Register)
  | skipIfDifferent (x y : Register)
  | setIndex (addr : Address)
  | jumpOffset (addr : Address)
  | random (x : Register) (kk : UInt8)
  | draw (x y : Register) (n : Fin 16)
  | skipIfPressed (x : Register)
  | skipIfReleased (x : Register)
  | readDelay (x : Register)
  | awaitKey (x : Register)
  | setDelay (x : Register)
  | setSound (x : Register)
  | addIndex (x : Register)
  | glyph (x : Register)
  | decimal (x : Register)
  | store (x : Register)
  | load (x : Register)
deriving DecidableEq

end ChipEight
