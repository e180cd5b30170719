import ChipEight.File.Error

/-! Reading a file to its end. -/
namespace ChipEight

/-- The successive reads of a file. An empty read or the end of the list ends the file. A failed
read ends the reading, unless it was interrupted: then the next one takes its place. -/
abbrev Reads := List (Except FileError (List UInt8))

def Reads.gather : Reads → Except FileError (List (List UInt8))
  | [] => .ok []
  | .ok [] :: _ => .ok []
  | .ok bytes :: rest => (gather rest).map (bytes :: ·)
  | .error cause :: rest => if cause.isInterrupted then gather rest else .error cause

def Reads.size (pieces : List (List UInt8)) : Nat :=
  pieces.foldl (fun size piece => size + piece.length) 0

theorem Reads.size_eq (pieces : List (List UInt8)) : size pieces = pieces.flatten.length := by
  have counted (first : Nat) : pieces.foldl (fun size piece => size + piece.length) first =
      first + pieces.flatten.length := by
    induction pieces generalizing first with
    | nil => rfl
    | cons piece rest ih => simp [ih, Nat.add_assoc]
  rw [size, counted, Nat.zero_add]

end ChipEight
