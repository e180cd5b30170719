/-! Failures of opening and reading a file, with the operating system's number and wording. Those that
a path can lead to have names. -/
namespace ChipEight

inductive FileError
  | notFound
  | notDirectory
  | nameTooLong
  | isDirectory
  | deviceFault
  | nulInName
  | other (number : Option Nat) (kind description : String)
deriving DecidableEq

namespace FileError

/-- The system's number of the error, if it comes from the system. A name that holds a NUL never
reaches the system. -/
def number? : FileError → Option Nat
  | notFound => some 2
  | notDirectory => some 20
  | nameTooLong => some 36
  | isDirectory => some 21
  | deviceFault => some 5
  | nulInName => none
  | other number _ _ => number

def kind : FileError → String
  | notFound => "NotFound"
  | notDirectory => "NotADirectory"
  | nameTooLong => "InvalidFilename"
  | isDirectory => "IsADirectory"
  | deviceFault => "Uncategorized"
  | nulInName => "InvalidInput"
  | other _ kind _ => kind

def description : FileError → String
  | notFound => "No such file or directory"
  | notDirectory => "Not a directory"
  | nameTooLong => "File name too long"
  | isDirectory => "Is a directory"
  | deviceFault => "Input/output error"
  | nulInName => "file name contained an unexpected NUL byte"
  | other _ _ description => description

/-- Whether what failed was only broken off and may be tried again. -/
def isInterrupted (error : FileError) : Bool := error.kind == "Interrupted"

def message (error : FileError) : String :=
  match error.number? with
  | some number => s!"{error.description} (os error {number})"
  | none => error.description

def report (error : FileError) : String :=
  let rest := "kind: " ++ error.kind ++ ", message: \"" ++ error.description ++ "\" \x7d"
  match error.number? with
  | some number => "Os \x7b code: " ++ toString number ++ ", " ++ rest
  | none => "Error \x7b " ++ rest

end FileError
end ChipEight
