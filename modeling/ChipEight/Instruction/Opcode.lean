import ChipEight.Fault

/-! A two-byte opcode as four nibbles, and the operands that its low nibbles spell. -/
namespace ChipEight

/-- An index of one of the registers V0 to VF. -/
abbrev Register := Fin 16

/-- A twelve-bit address operand. -/
abbrev Address := Fin 4096

structure Opcode where
  category : Fin 16
  x : Register
  y : Register
  n : Fin 16
deriving DecidableEq

namespace Opcode

@[inline]
def nibble (word : UInt16) (place : Nat) : Fin 16 := Fin.ofNat 16 (word.toNat >>> (4 * place))

@[inline]
def ofWord (word : UInt16) : Opcode :=
  ⟨nibble word 3, nibble word 2, nibble word 1, nibble word 0⟩

def nibbles (op : Opcode) : List (Fin 16) := [op.category, op.x, op.y, op.n]

/-- The number that the last `count` nibbles spell. -/
def low (op : Opcode) (count : Nat) : Nat :=
  (op.nibbles.drop (4 - count)).foldl (fun value digit => 16 * value + digit.val) 0

def low? (op : Opcode) (count : Nat) : Except Fault UInt16 :=
  if count ≤ 4 then .ok (.ofNat (op.low count)) else .error (.tooManyNibbles count)

def word (op : Opcode) : UInt16 := .ofNat (op.low 4)
@[inline]
def kk (op : Opcode) : UInt8 := .ofNat (16 * op.y.val + op.n.val)
@[inline]
def addr (op : Opcode) : Address := Fin.ofNat 4096 (256 * op.x.val + 16 * op.y.val + op.n.val)

theorem nibble_val (word : UInt16) (place : Nat) :
    (nibble word place).val = word.toNat >>> (4 * place) % 16 := rfl

theorem kk_ofWord (word : UInt16) : (ofWord word).kk.toNat = word.toNat % 256 := by
  simp [kk, ofWord, nibble_val, Nat.shiftRight_eq_div_pow]; omega

theorem addr_ofWord (word : UInt16) : ((ofWord word).addr : Nat) = word.toNat % 4096 := by
  simp [addr, ofWord, nibble_val, Nat.shiftRight_eq_div_pow]; omega

theorem word_ofWord (word : UInt16) : (ofWord word).word = word := by
  apply UInt16.toNat_inj.1
  have := word.toNat_lt
  simp [Opcode.word, low, nibbles, ofWord, nibble_val, Nat.shiftRight_eq_div_pow]; omega

end Opcode
end ChipEight
