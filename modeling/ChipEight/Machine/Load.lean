import ChipEight.File.Reads
import ChipEight.Machine.Basic

/-! Taking a program into memory. It is taken whole or not at all. -/
namespace ChipEight

inductive LoadError
  | tooLarge (size : Nat)
  | unreadable (cause : FileError)
deriving DecidableEq

namespace LoadError

def message : LoadError → String
  | tooLarge size => s!"program is {size} bytes but at most {programLimit} bytes fit in memory"
  | unreadable _ => "unable to read program"

def report : LoadError → String
  | tooLarge size =>
    "ProgramTooLarge \x7b size: " ++ toString size ++ ", max: " ++ toString programLimit ++ " \x7d"
  | unreadable cause => "Io(" ++ cause.report ++ ")"

end LoadError

namespace Machine

def load (program : List UInt8) : EStateM LoadError Machine Unit := do
  if programLimit < program.length then
    throw (.tooLarge program.length)
  modify fun m => { m with cpu.memory := m.cpu.memory.patch programStart program }

/-- A large file is refused by its size, before its pieces are put together. -/
def loadFrom (reads : Reads) : EStateM LoadError Machine Unit :=
  match reads.gather with
  | .ok pieces => do
    let size := Reads.size pieces
    if programLimit < size then
      throw (.tooLarge size)
    load pieces.flatten
  | .error cause => throw (.unreadable cause)

end Machine
end ChipEight
