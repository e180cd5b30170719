import ChipEight.Machine.Events
import ChipEight.Machine.Load

/-! What a machine reports of its doings. Notices are worked out from the machine as it stands
before or after a change, so that the changes themselves need not carry them. -/
namespace ChipEight

inductive Level
  | trace
  | debug
  | info
  | warn
  | error
deriving DecidableEq

def Level.label : Level → String
  | trace => "TRACE"
  | debug => "DEBUG"
  | info => "INFO"
  | warn => "WARN"
  | error => "ERROR"

inductive Notice
  | loaded (size : Nat)
  | executing (opcode : UInt16) (v : Vector UInt8 16) (i pc : UInt16)
  | routineIgnored (addr : Address) (pc : UInt16)
  | soundOn (ticks : UInt8)
  | soundOff
  | awaitingKey (x : Register)
  | resumed (key : Key)
  | halted (pc : UInt16) (fault : Fault)
  | stopped (pc : UInt16)
  | started (pc : UInt16)
  | finished
  | keyDropped (key : Key)
  | crashed
deriving DecidableEq

namespace Notice

def level : Notice → Level
  | loaded _ | routineIgnored .. | awaitingKey _ | started _ | finished => .debug
  | executing .. | soundOn _ | soundOff | resumed _ | keyDropped _ => .trace
  | stopped _ => .info
  | crashed => .warn
  | halted .. => .error

def text : Notice → String
  | loaded size => s!"loaded {size} byte program"
  | executing opcode v i pc =>
    let registers := ", ".intercalate (v.toList.map fun value => hex 2 value.toNat)
    hex 4 opcode.toNat ++ " v[" ++ registers ++ "] i" ++ hex 4 i.toNat ++ " pc" ++ hex 4 pc.toNat
  | routineIgnored addr pc =>
    "ignoring machine code routine 0x" ++ hex 3 addr.val ++ " at 0x" ++ hex 3 pc.toNat
  | soundOn ticks => s!"sound on for {ticks.toNat} ticks"
  | soundOff => "sound off"
  | awaitingKey x => "waiting for a key press into V" ++ hex 1 x.val
  | resumed key => key.label ++ " resumes execution"
  | halted pc fault => "halted at 0x" ++ hex 3 pc.toNat ++ ": " ++ fault.message
  | stopped pc => "stopped at 0x" ++ hex 3 pc.toNat
  | started pc => "starting at 0x" ++ hex 3 pc.toNat
  | finished => "event loop finished"
  | keyDropped key => key.label ++ " dropped, machine is no longer running"
  | crashed => "execution thread panicked"

def line (notice : Notice) : String := notice.level.label ++ " " ++ notice.text

def isAlarm (notice : Notice) : Bool := notice.level = .warn || notice.level = .error

end Notice

namespace Machine

def loadNotices (size : Nat) : List Notice := if programLimit < size then [] else [.loaded size]

def loadFromNotices (reads : Reads) : List Notice :=
  match reads.gather with
  | .ok pieces => loadNotices (Reads.size pieces)
  | .error _ => []

def executeNotices (m : Machine) : Instruction → List Notice
  | .sys addr => [.routineIgnored addr m.cpu.pc]
  | .setSound x => if (m.sound.set (m.cpu.register x)).2 then [.soundOn (m.cpu.register x)] else []
  | _ => []

def stepNotices (m : Machine) : List Notice :=
  match m.cpu.awaiting, m.cpu.fetch with
  | none, .ok word =>
    .executing word m.cpu.v m.cpu.i m.cpu.pc ::
      match Instruction.decode (.ofWord word) with
      | .ok instruction => m.executeNotices instruction
      | .error _ => []
  | _, _ => []

/-- What a machine reports on starting a task. -/
def performNotices (m : Machine) : Task → List Notice
  | .cycle => m.stepNotices
  | .delay => []
  | .sound => if m.sound.tick.2 then [] else [.soundOff]

/-- What a machine reports on having ended a task. A cycle leaves the next one armed unless it
ended in waiting for a key or in a fault. -/
def outcomeNotices (m : Machine) : Task → List Notice
  | .cycle =>
    match m.cpu.awaiting, m.agenda.cycle, m.status with
    | some x, _, _ => [.awaitingKey x]
    | none, none, .halted fault => [.halted m.cpu.pc fault]
    | none, _, _ => []
  | .delay | .sound => []

def stopNotices (m : Machine) : List Notice :=
  match m.status with
  | .halted _ => []
  | _ => [.stopped m.cpu.pc]

def receiveNotices (m : Machine) : Signal → List Notice
  | .keyDown key => if m.cpu.awaiting.isSome then [.resumed key] else []
  | .stop => m.stopNotices

end Machine
end ChipEight
