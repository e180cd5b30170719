import ChipEight.Fault

/-! The hexadecimal keypad: sixteen keys, of which any set may be held down. -/
namespace ChipEight

abbrev Key := Fin 16

namespace Key

def ofCode (code : UInt8) : Except Fault Key :=
  if h : code.toNat < 16 then .ok ⟨code.toNat, h⟩ else .error (.notOnKeypad code)

def code (key : Key) : UInt8 := .ofNat key.val

def label (key : Key) : String := "Key(" ++ hex 1 key.val ++ ")"

end Key

/-- Bit `k` of the mask is set while key `k` is held. -/
structure Keypad where
  mask : BitVec 16 := 0
deriving DecidableEq

namespace Keypad

def isPressed (pad : Keypad) (key : Key) : Bool := pad.mask &&& BitVec.twoPow 16 key.val != 0

def press (pad : Keypad) (key : Key) : Keypad := ⟨pad.mask ||| BitVec.twoPow 16 key.val⟩

def release (pad : Keypad) (key : Key) : Keypad := ⟨pad.mask &&& ~~~BitVec.twoPow 16 key.val⟩

def releaseAll (_ : Keypad) : Keypad := ⟨0⟩

/-- A key is told by its own bit. -/
theorem isPressed_eq (pad : Keypad) (key : Key) : pad.isPressed key = pad.mask.getLsbD key.val := by
  have positive : BitVec.twoPow 16 key.val ≠ 0 := by
    revert key
    decide
  rw [isPressed, BitVec.and_twoPow]
  cases pad.mask.getLsbD key.val with
  | false => simp
  | true => simpa using positive

@[simp] theorem isPressed_press (pad : Keypad) (key other : Key) :
    (pad.press key).isPressed other = (decide (other = key) || pad.isPressed other) := by
  simp [isPressed_eq, press, Fin.ext_iff, Bool.or_comm, eq_comm]

@[simp] theorem isPressed_release (pad : Keypad) (key other : Key) :
    (pad.release key).isPressed other = (decide (other ≠ key) && pad.isPressed other) := by
  simp [isPressed_eq, release, Fin.ext_iff, Bool.and_comm, eq_comm]

@[simp] theorem isPressed_releaseAll (pad : Keypad) (key : Key) :
    pad.releaseAll.isPressed key = false := by simp [isPressed_eq, releaseAll]

end Keypad
end ChipEight
