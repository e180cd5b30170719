import ChipEight.EventLoop

/-! A machine running on its own, seen by the program that started it. Time is simulated: every
act takes a moment, and a sleep ends somewhat later than the deadline it is for, so that several
tasks may be overdue at once. A starter who waits for something lets every deadline pass. One who
only lets some time pass finds what was due by then done, and the rest ahead. So a session is
played until what is waited for has come or its time is over, or nothing more happens without its
starter: the loop has returned, waits for a signal, or runs in a circle. -/
namespace ChipEight

/-- How long a sender watches a loop before sending what comes late. One that is still at work
then, with a period shorter than `restPeriod`, is watched for `watchTurns` more turns, or until it
rests or is found in a circle that it will not leave for `circleTime`. -/
def watchTime : Nat := 50000000
def restPeriod : Nat := 5000000
def watchTurns : Nat := 10000000
def circleTime : Nat := 1000000000

/-- How long an act takes, how late a sleep ends, and how long a thread takes to start. -/
def actTime : Nat := 100
def oversleep : Nat := 50000
def threadStart : Nat := 50000

/-- Which notices a session keeps. -/
inductive Attention
  | nothing
  | alarms
  | everything
deriving DecidableEq

def Attention.keeps : Attention → Notice → Bool
  | nothing, _ => false
  | alarms, notice => notice.isAlarm
  | everything, _ => true

/-- `keypad` is missing if asking for a key breaks the session off. A session is `closed` once its
starter has seen its end. The notices kept stand with the latest first. -/
structure Session where
  loop : Loop
  keypad : Option Keypad
  attention : Attention
  clock : Instant
  crashed : Bool := false
  closed : Bool := false
  notices : List Notice := []

/-- What a session does next by itself. A round is all that the loop does from finding its
channel quiet to having carried out the next task, the sleep before the task included. -/
inductive Turn
  | rest
  | sleep (due : Instant)
  | crash
  | act (move : Move)
  | round (task : Task) (due : Instant)

namespace Session

def machine (s : Session) : Machine := s.loop.machine

def note (s : Session) : List Notice → Session
  | [] => s
  | notices => { s with notices := (notices.filter s.attention.keeps).reverse ++ s.notices }

/-- Whether a task breaks the session off, by asking a keypad that is missing. -/
@[inline]
def breaksAt (s : Session) (task : Task) : Bool :=
  task = .cycle && s.keypad.isNone && s.machine.consultsKeypad

/-- The task of the next round, if there is to be one. -/
@[inline]
def nextRound? (s : Session) : Option (Task × Instant) :=
  match s.loop.phase, s.loop.channel with
  | .draining, { queue := [], connected := true } => s.machine.agenda.next?
  | _, _ => none

/-- A session rests if only a signal or a hang-up can make it go on. -/
def turn (s : Session) : Turn :=
  if s.crashed then .rest
  else
    match s.nextRound? with
    | some (task, due) =>
      if !s.breaksAt task then .round task due
      else if s.clock < due then .sleep due
      else .crash
    | none =>
      match s.loop.move s.clock with
      | .wait =>
        match s.loop.phase with
        | .resting _ due => .sleep due
        | _ => .rest
      | .perform task due => if s.breaksAt task then .crash else .act (.perform task due)
      | move => .act move

def act (s : Session) (move : Move) : Session :=
  let before := if s.attention = .everything then s.loop.notices move else []
  let keys := s.keypad.getD {}
  let s := { s with
    loop := s.loop.apply keys.isPressed s.clock move
    clock := s.clock + actTime }
  s.note (before ++ s.loop.outcomeNotices move)

def sleep (s : Session) (due : Instant) : Session :=
  if s.clock < due then { s with clock := due + oversleep } else s

def take (s : Session) : Turn → Session
  | .rest => s
  | .sleep due => s.sleep due
  | .crash => { s with crashed := true }
  | .act move => s.act move
  | .round task due => (s.sleep due).act (.perform task due)

/-- The machine with its deadlines counted from now, or from the earliest if that has passed, and
those that lie `horizon` ahead not told apart: two equal ones go on alike for that long. Without
a `horizon` all are told apart. -/
def timeless (horizon : Option Nat) (s : Session) : Machine :=
  let agenda := s.machine.agenda
  let base := match agenda.next? with
    | some (_, due) => min due s.clock
    | none => s.clock
  let ahead := Option.map fun due => horizon.elim (due - base) (min (due - base))
  { s.machine with agenda := ⟨ahead agenda.cycle, ahead agenda.delay, ahead agenda.sound⟩ }

end Session

/-- Search for a circle: an earlier state, how many rounds ago it was, and after how many rounds
it is replaced by a newer one. -/
structure Bookmark where
  machine : Option Machine := none
  age : Nat := 0
  limit : Nat := 1

namespace Bookmark

/-- Whether the session is where the bookmark lies. To compare two machines takes time, so it is
done every 64 rounds only; a shorter circle is found on one of its later laps. -/
def isAt (mark : Bookmark) (horizon : Option Nat) (s : Session) : Bool :=
  mark.age % 64 = 0 && mark.machine.any fun m =>
    m.cpu.pc == s.machine.cpu.pc && m = s.timeless horizon

def follow (mark : Bookmark) (horizon : Option Nat) (s : Session) : Bookmark :=
  if mark.age < mark.limit then { mark with age := mark.age + 1 }
  else { machine := some (s.timeless horizon), age := 1, limit := 2 * mark.limit }

end Bookmark

namespace Session

/-- Plays until `done`, until it rests, until a state comes back, or for `fuel` turns. -/
def play (done : Session → Bool) (horizon : Option Nat) :
    Nat → Bookmark → Session → Session
  | 0, _, s => s
  | fuel + 1, mark, s =>
    if done s then s
    else
      match s.turn with
      | .rest => s
      | .round task due =>
        if mark.isAt horizon s then s
        else play done horizon fuel (mark.follow horizon s) (s.take (.round task due))
      | turn => play done horizon fuel mark (s.take turn)

/-- Turns that a session is given to reach what is waited for, besides one for every signal that is
queued. -/
def longWhile : Nat := 1000000000

def playUntil (done : Session → Bool) (s : Session) : Session :=
  s.play done none (longWhile + s.loop.channel.queue.length) {}

/-- Whether nothing happens before `time`, or that is over. -/
def isQuietUntil (time : Instant) (s : Session) : Bool :=
  time ≤ s.clock ||
    match s.turn with
    | .rest => true
    | .sleep due | .round _ due => time ≤ due
    | _ => false

def elapse (duration : Nat) (s : Session) : Session :=
  let time := s.clock + duration
  let s := s.playUntil (isQuietUntil time)
  { s with clock := max s.clock time }

/-- Whether the loop carries out instructions one after the other, with hardly a sleep. -/
def isBusy (s : Session) : Bool :=
  s.machine.settings.clockPeriod < restPeriod &&
    s.machine.agenda.cycle.any (· < s.clock + restPeriod)

/-- Goes on by itself while its sender watches. -/
def watched (s : Session) : Session :=
  (s.elapse watchTime).play (!·.isBusy) (some circleTime) watchTurns {}

def send (s : Session) (signals : List Signal) : Session :=
  { s with loop.channel := s.loop.channel.send signals }

def hangUp (s : Session) : Session := { s with loop.channel := s.loop.channel.hangUp }

def isOver (s : Session) : Bool := s.crashed || s.loop.phase = .returned

def opened (clock : Instant) (machine : Machine) (keypad : Option Keypad) (attention : Attention) :
    Session :=
  { loop := { machine }, keypad, attention, clock : Session }.note [.started machine.cpu.pc]

/-- The session of a machine that is set going on a thread of its own. -/
def launched (machine : Machine) (keypad : Option Keypad) (attention : Attention) : Session :=
  opened threadStart (machine.start 0) keypad attention

/-- Ends the session by a stop signal and waits for the loop to return. -/
def close (s : Session) : Session :=
  if s.closed then s
  else
    let s := { (s.send [.stop]).playUntil isOver with closed := true }
    if s.crashed then s.note [.crashed] else s

def frame (s : Session) : Option Screen × Session :=
  let (frame, display) := s.machine.display.frame
  (frame, { s with loop.machine.display := display })

def keyDown (s : Session) (key : Key) : Session :=
  if s.isOver then s.note [.keyDropped key] else s.send [.keyDown key]

def changeKeypad (s : Session) (change : Keypad → Keypad) : Session :=
  { s with keypad := s.keypad.map change }

def takeNotices (s : Session) : List Notice × Session :=
  (s.notices.reverse, { s with notices := [] })

end Session

/-- When the sender of the signals hangs up: never, before the run, or after the late signals. -/
inductive Sender
  | stays
  | leavesAtOnce
  | leavesLate
deriving DecidableEq

/-- One run of the loop from start, at the time `clock`, to return. The signals `queued` are sent
before it, the ones `late` once it has been watched. -/
def Session.run (clock : Instant) (machine : Machine) (keypad : Keypad) (attention : Attention)
    (queued late : List Signal) (sender : Sender) : Session :=
  let s := (Session.opened clock machine (some keypad) attention).send queued
  let s := if sender = .leavesAtOnce then s.hangUp else s
  let s := s.watched.send late
  let s := if sender = .leavesLate then s.hangUp else s
  s.playUntil isOver

end ChipEight
