import ChipEight.Agenda
import ChipEight.Countdown
import ChipEight.Cpu
import ChipEight.Random.Source
import ChipEight.Screen.Display

/-! The machine: how it is set up, processor, screen, timers, deadlines and random bytes. -/
namespace ChipEight

/-- The register that the two shifts take their operand from. -/
inductive ShiftOperand
  | vx
  | vy
deriving DecidableEq

/-- Periods are in nanoseconds. Without a seed the random bytes differ from run to run. -/
structure Settings where
  clockPeriod : Nat := 2000000
  timerPeriod : Nat := 16666666
  shiftOperand : ShiftOperand := .vx
  seed : Option UInt64 := none
deriving DecidableEq

inductive Status
  | running
  | awaitingKey (x : Register)
  | halted (fault : Fault)
  | stopped
deriving DecidableEq

structure Machine where
  settings : Settings
  status : Status := .stopped
  agenda : Agenda := {}
  delay : Countdown := {}
  sound : Countdown := {}
  random : RandomSource
  cpu : Cpu := {}
  display : Display := {}
deriving DecidableEq

namespace Machine

/-- A stopped machine without a program. `entropy` keys the random bytes if no seed is set. -/
def new (settings : Settings) (entropy : StreamKey) : Machine where
  settings := settings
  random := match settings.seed with
    | some seed => .seeded seed
    | none => { key := entropy }

end Machine
end ChipEight
