import ChipEight.Machine.Execute

/-! What happens to a machine while it runs on its own: deadlines pass and signals arrive. -/
namespace ChipEight

inductive Signal
  | keyDown (key : Key)
  | stop
deriving DecidableEq

namespace Machine

/-- Ends all activity: no deadline stays armed, both timers stand at zero, no key is awaited. -/
def quiesce (m : Machine) : Machine :=
  { m with
    agenda := m.agenda.cancelAll
    delay := m.delay.cancel
    sound := m.sound.cancel
    cpu.awaiting := none }

def halt (m : Machine) (fault : Fault) : Machine := { m.quiesce with status := .halted fault }

/-- Stops the machine. One that has halted stays halted. -/
def stop (m : Machine) : Machine :=
  match m.status with
  | .halted _ => m.quiesce
  | _ => { m.quiesce with status := .stopped }

def tickDelay (m : Machine) (due : Instant) : Machine :=
  let (delay, again) := m.delay.tick
  { m with
    delay
    agenda := if again then m.agenda.schedule .delay (due + m.settings.timerPeriod) else m.agenda }

def tickSound (m : Machine) (due : Instant) : Machine :=
  let (sound, again) := m.sound.tick
  { m with
    sound
    agenda := if again then m.agenda.schedule .sound (due + m.settings.timerPeriod) else m.agenda }

/-- One instruction; then the machine waits for a key, or its next cycle is one clock period
after this one was due. -/
def cycle (keys : Key → Bool) (now : Instant) (m : Machine) (due : Instant) : Machine :=
  match step keys now m with
  | .ok () m =>
    match m.cpu.awaiting with
    | some x => { m with status := .awaitingKey x }
    | none => { m with agenda := m.agenda.schedule .cycle (due + m.settings.clockPeriod) }
  | .error fault m => m.halt fault

/-- Carries out a task that was due at `due`. Its deadline is used up. -/
def perform (keys : Key → Bool) (now : Instant) (m : Machine) (task : Task) (due : Instant) : Machine :=
  let m := { m with agenda := m.agenda.cancel task }
  match task with
  | .cycle => m.cycle keys now due
  | .delay => m.tickDelay due
  | .sound => m.tickSound due

/-- Gives a key to the instruction that waits for one, and says whether any did. -/
def giveKey (m : Machine) (key : Key) : Machine × Bool :=
  match m.cpu.awaiting with
  | some x => ({ m with cpu := { m.cpu.setRegister x key.code with awaiting := none } }, true)
  | none => (m, false)

/-- A key that nothing waits for is dropped. -/
def receive (now : Instant) (m : Machine) : Signal → Machine
  | .keyDown key =>
    match m.giveKey key with
    | (m, true) =>
      { m with
        agenda := m.agenda.schedule .cycle (now + m.settings.clockPeriod)
        status := .running }
    | (m, false) => m
  | .stop => m.stop

/-- A machine that has been set going: its first cycle is due at once. -/
def start (now : Instant) (m : Machine) : Machine :=
  { m with status := .running, agenda := m.agenda.schedule .cycle now }

end Machine
end ChipEight
