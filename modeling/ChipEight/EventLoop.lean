import ChipEight.Machine.Notice

/-! The loop that paces a machine. It takes the queued signals in order until it sees the queue
empty, then carries out the earliest task once its time has come. Between two of its moves
signals may be sent and the sender may hang up. A move depends on the time `now`, and the
waiting ones leave everything as it is until a signal, a hang-up or a deadline ends the wait. -/
namespace ChipEight

/-- Signals in the order sent. `connected` is false once the sender has hung up; what was queued
before can still be taken. -/
structure Channel where
  queue : List Signal := []
  connected : Bool := true
deriving DecidableEq

namespace Channel

def send (channel : Channel) (signals : List Signal) : Channel :=
  { channel with queue := channel.queue ++ signals }

def hangUp (channel : Channel) : Channel := { channel with connected := false }

end Channel

/-- `draining`: takes signals without waiting. `choosing`: saw the queue empty. `parked`: waits
for a signal, with nothing due. `resting`: waits for a signal until a task is due. `due`: about
to carry out a task. -/
inductive Phase
  | draining
  | choosing
  | parked
  | resting (task : Task) (due : Instant)
  | due (task : Task) (due : Instant)
  | returned
deriving DecidableEq

structure Loop where
  machine : Machine
  channel : Channel := {}
  phase : Phase := .draining
deriving DecidableEq

inductive Move
  | receive (signal : Signal)
  | hearHangUp (phase : Phase)
  | enter (phase : Phase)
  | perform (task : Task) (due : Instant)
  | finish
  | wait
deriving DecidableEq

namespace Loop

/-- At a waiting point: the first signal, else the hang-up, else `idle`. -/
def take (loop : Loop) (afterHangUp : Phase) (idle : Move) : Move :=
  match loop.channel.queue with
  | signal :: _ => .receive signal
  | [] => if loop.channel.connected then idle else .hearHangUp afterHangUp

def choose (loop : Loop) (now : Instant) : Move :=
  match loop.machine.agenda.next? with
  | some (task, due) => .enter (if now < due then .resting task due else .due task due)
  | none => if loop.machine.cpu.awaiting.isSome then .enter .parked else .finish

/-- A parked loop that hears the hang-up looks at the channel once more before it returns. -/
def move (loop : Loop) (now : Instant) : Move :=
  match loop.phase with
  | .draining => loop.take .returned (.enter .choosing)
  | .choosing => loop.choose now
  | .parked => loop.take .draining .wait
  | .resting task due => loop.take .returned (if now < due then .wait else .enter (.due task due))
  | .due task due => .perform task due
  | .returned => .wait

def apply (keys : Key → Bool) (now : Instant) (loop : Loop) : Move → Loop
  | .receive signal =>
    { machine := loop.machine.receive now signal
      channel := { loop.channel with queue := loop.channel.queue.tail }
      phase := .draining }
  | .hearHangUp phase => { loop with machine := loop.machine.stop, phase }
  | .enter phase => { loop with phase }
  | .perform task due =>
    { loop with machine := loop.machine.perform keys now task due, phase := .draining }
  | .finish => { loop with phase := .returned }
  | .wait => loop

def advance (keys : Key → Bool) (now : Instant) (loop : Loop) : Loop :=
  loop.apply keys now (loop.move now)

def notices (loop : Loop) : Move → List Notice
  | .receive signal => loop.machine.receiveNotices signal
  | .hearHangUp _ => loop.machine.stopNotices
  | .perform task _ => loop.machine.performNotices task
  | .finish => [.finished]
  | .enter _ | .wait => []

/-- What is reported after a move. All alarms are among this. -/
def outcomeNotices (loop : Loop) : Move → List Notice
  | .perform task _ => loop.machine.outcomeNotices task
  | _ => []

/-- A quiet loop with a task due carries it out in three moves. -/
theorem advance_due (keys : Key → Bool) (now : Instant) (loop : Loop) {task : Task} {due : Instant}
    (draining : loop.phase = .draining) (quiet : loop.channel = {})
    (next : loop.machine.agenda.next? = some (task, due)) (time : due ≤ now) :
    ((loop.advance keys now).advance keys now).advance keys now =
      loop.apply keys now (.perform task due) := by
  simp [advance, move, take, choose, apply, draining, quiet, next, Nat.not_lt.2 time]

/-- If the task is not due yet, the loop sleeps after two moves and carries it out two moves after
it has woken. -/
theorem advance_sleep (keys : Key → Bool) (now later : Instant) (loop : Loop) {task : Task}
    {due : Instant} (draining : loop.phase = .draining) (quiet : loop.channel = {})
    (next : loop.machine.agenda.next? = some (task, due)) (early : now < due) (time : due ≤ later) :
    ((((loop.advance keys now).advance keys now).advance keys later).advance keys later) =
      loop.apply keys later (.perform task due) := by
  simp [advance, move, take, choose, apply, draining, quiet, next, early, Nat.not_lt.2 time]

end Loop
end ChipEight
