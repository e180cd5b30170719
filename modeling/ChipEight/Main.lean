import ChipEight.EventLoop
import ChipEight.Launch

/-! The command line program: runs a machine in real time and draws each new frame as text. It
has no keys, so it ends when the machine stops or waits for one. -/
namespace ChipEight

def fileError : IO.Error → FileError
  | .noFileOrDirectory .. => .notFound
  | .inappropriateType _ code _ => if code = 20 then .notDirectory else .isDirectory
  | .invalidArgument _ code _ => if code = 36 then .nameTooLong else .nulInName
  | .hardwareFault .. => .deviceFault
  | error => .other none "Other" error.toString

def readAll (handle : IO.FS.Handle) : IO (Except FileError (List UInt8)) := do
  try
    let bytes ← handle.readBinToEnd
    return .ok bytes.toList
  catch cause =>
    return .error (fileError cause)

def openFile (path : String) : IO (Except FileError Reads) := do
  try
    let handle ← IO.FS.Handle.mk path .read
    return .ok [← readAll handle]
  catch cause =>
    return .error (fileError cause)

def randomKey : IO StreamKey := do
  let bytes ← IO.getRandomBytes 32
  return Vector.ofFn fun word =>
    (List.range 4).foldl (fun value k => value <<< 8 ||| (bytes.get! (4 * word.val + k)).toUInt32) 0

def picture (screen : Screen) : String :=
  "\n".intercalate <| (List.range 32).map fun row =>
    String.ofList <| (List.range 64).map fun column => if screen.lit row column then '#' else ' '

partial def runLoop (loop : Loop) : IO Unit := do
  let now ← IO.monoNanosNow
  let (frame, display) := loop.machine.display.frame
  match frame with
  | some screen => IO.println (picture screen)
  | none => pure ()
  let loop := { loop with machine.display := display }
  match loop.phase with
  | .returned | .parked => return
  | .resting _ due => IO.sleep (UInt32.ofNat ((due - now) / 1000000))
  | _ => pure ()
  let move := loop.move now
  let next := loop.apply (fun _ => false) now move
  for notice in loop.notices move ++ next.outcomeNotices move do
    if notice.level matches .info | .warn | .error then IO.eprintln notice.line
  runLoop next

def usage : String := "usage: [--clock-hz N] [--shift-vy] [--seed N] [--scale N] ROM"

end ChipEight

open ChipEight in
def main (args : List String) : IO UInt32 := do
  let entropy ← randomKey
  match CommandLine.parse args with
  | .error refusal =>
    if refusal.exitCode = 0 then IO.println usage else IO.eprintln usage
    return refusal.exitCode
  | .ok arguments =>
    let opened ← openFile arguments.rom
    match prepare args entropy fun _ => opened with
    | .error exit =>
      exit.stderr.forM IO.eprintln
      return exit.code
    | .ok machine =>
      runLoop { machine := machine.start (← IO.monoNanosNow) }
      return 0
