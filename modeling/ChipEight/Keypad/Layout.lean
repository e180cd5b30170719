import ChipEight.Keypad.Basic

/-! The keypad laid over the left-hand block of a keyboard: four rows of four keys, from the
digits 1 to 4 down to Z, X, C and V. -/
namespace ChipEight

/-- The key that the keyboard key of this name stands for. -/
def Key.ofKeyName? : String → Option Key
  | "Num1" => some 0x1
  | "Num2" => some 0x2
  | "Num3" => some 0x3
  | "Num4" => some 0xC
  | "Q" => some 0x4
  | "W" => some 0x5
  | "E" => some 0x6
  | "R" => some 0xD
  | "A" => some 0x7
  | "S" => some 0x8
  | "D" => some 0x9
  | "F" => some 0xE
  | "Z" => some 0xA
  | "X" => some 0x0
  | "C" => some 0xB
  | "V" => some 0xF
  | _ => none

end ChipEight
