import ChipEight.CommandLine
import ChipEight.Machine.Load

/-! From the command line to a machine with its program in memory, and the ways to fail. -/
namespace ChipEight

inductive LaunchError
  | cannotOpen (cause : FileError)
  | cannotLoad (cause : LoadError)
deriving DecidableEq

def LaunchError.report (error : LaunchError) : String :=
  "Error: " ++ match error with
    | cannotOpen cause => cause.report
    | cannotLoad cause => cause.report

/-- A machine with the program loaded from an opened file. -/
def launch (settings : Settings) (entropy : StreamKey) (opened : Except FileError Reads) :
    Except LaunchError Machine :=
  match opened with
  | .error cause => .error (.cannotOpen cause)
  | .ok reads =>
    match Machine.loadFrom reads (.new settings entropy) with
    | .ok () machine => .ok machine
    | .error cause _ => .error (.cannotLoad cause)

structure Exit where
  code : UInt32
  stderr : Option String := none
deriving DecidableEq

/-- Failing to understand the command line comes before failing to open the file. -/
def prepare (args : List String) (entropy : StreamKey) (openFile : String → Except FileError Reads) :
    Except Exit Machine :=
  match CommandLine.parse args with
  | .error refusal => .error { code := refusal.exitCode }
  | .ok arguments =>
    match launch arguments.settings entropy (openFile arguments.rom) with
    | .error cause => .error { code := 1, stderr := some cause.report }
    | .ok machine => .ok machine

end ChipEight
