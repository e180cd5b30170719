/-! Why an instruction cannot be carried out, and the wording of it, in which codes and addresses
are hexadecimal. -/
namespace ChipEight

/-- The numerals of keys, registers and other hexadecimal digits rest on this one proof. It has a
name because the library's instance, which is not a constant, would be proved again in each
definition that such a numeral stands in. -/
instance neZero_sixteen : @NeZero Nat Zero.ofOfNat0 16 := ⟨by decide⟩

/-- The upper-case digits of `n`, most significant first, padded with zeros to `width`. -/
def hex (width n : Nat) : String :=
  let digits := (Nat.toDigits 16 n).map Char.toUpper
  String.ofList (List.replicate (width - digits.length) '0' ++ digits)

inductive Fault
  | unimplemented (opcode : UInt16)
  | outOfBounds (address : Nat)
  | stackOverflow
  | stackUnderflow
  | notOnKeypad (code : UInt8)
  | tooManyNibbles (count : Nat)
deriving DecidableEq

namespace Fault

def message : Fault → String
  | unimplemented opcode => "unimplemented opcode 0x" ++ hex 4 opcode.toNat
  | outOfBounds address => "memory access out of bounds at 0x" ++ hex 4 address
  | stackOverflow => "call stack overflow: more than 16 nested calls"
  | stackUnderflow => "return from subroutine with an empty call stack"
  | notOnKeypad code => "key 0x" ++ hex 2 code.toNat ++ " is not on the keypad"
  | tooManyNibbles count => s!"an opcode has 4 nibbles, {count} were requested"

end Fault
end ChipEight
