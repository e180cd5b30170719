import ChipEight.File.Reads

/-! What a path may lead to, and what opening and reading it gives. A path leads nowhere from
the first name on that does not exist. -/
namespace ChipEight

/-- `below`: a path from the directory `start`, which holds nothing, or from the root directory,
none of whose names is known. -/
inductive RomFile
  | below (start path : String)
  | directory
  | belowFile
  | file (reads : Reads)

namespace RomFile

/-- Longest path and longest name of a file, in bytes. -/
def pathLimit : Nat := 4095
def nameLimit : Nat := 255

/-- A path that begins with a slash does not go out from `start`. -/
def wholePath (start path : String) : String :=
  if start.isEmpty || path.startsWith "/" then path else start ++ "/" ++ path

/-- The first name on the path. Steps that stay in a directory or climb out of it have none. -/
def firstName? (path : String) : Option String :=
  (path.splitOn "/").find? fun step => step ∉ ["", ".", ".."]

/-- The whole path is measured before its names are looked up one by one. A path of steps
without a name stays where directories are. -/
def openBelow (start path : String) : Except FileError Reads :=
  if path.toList.contains '\x00' then .error .nulInName
  else if pathLimit < (wholePath start path).utf8ByteSize then .error .nameTooLong
  else match firstName? path with
    | none => .ok [.error .isDirectory]
    | some name => .error (if nameLimit < name.utf8ByteSize then .nameTooLong else .notFound)

/-- A directory can be opened like a file, but not read. -/
def contents : RomFile → Except FileError Reads
  | below start path => openBelow start path
  | directory => .ok [.error .isDirectory]
  | belowFile => .error .notDirectory
  | file reads => .ok reads

end RomFile

end ChipEight
