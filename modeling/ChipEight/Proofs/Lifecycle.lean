import ChipEight.EventLoop
import ChipEight.Proofs.Events
import ChipEight.Proofs.Run

/-! The life of a machine that was set going. A timer is armed exactly while it has not run out,
and the machine is in one of three phases: it runs, with a cycle armed; it waits for a key, with
none armed; or it has ended, with nothing armed. Each event keeps this, so every run does. -/
namespace ChipEight

/-- The next tick of a timer is armed exactly while the timer has not run out. -/
def Countdown.Chained (timer : Countdown) (deadline : Option Instant) : Prop :=
  deadline.isSome ↔ timer.value ≠ 0

theorem Countdown.chained_set {timer : Countdown} {deadline : Option Instant}
    (chained : timer.Chained deadline) (value : UInt8) (due : Instant) :
    (timer.set value).1.Chained (if (timer.set value).2 then some due else deadline) := by
  rw [set_eq]
  split
  next started => simp [Chained, started.2]
  next => exact chained

theorem Countdown.chained_tick (timer : Countdown) (due : Instant) :
    timer.tick.1.Chained (if timer.tick.2 then some due else none) := by
  have again : timer.tick.2 = (timer.tick.1.value != 0) := rfl
  rw [again]
  by_cases spent : timer.tick.1.value = 0
  · simp [Chained, spent]
  · simp [Chained, spent]

theorem Agenda.deadline_ite_schedule (agenda : Agenda) (armed : Bool) (task other : Task)
    (due : Instant) :
    (if armed then agenda.schedule task due else agenda).deadline other =
      if other = task then (if armed then some due else agenda.deadline task)
      else agenda.deadline other := by
  cases armed <;> by_cases same : other = task <;> simp [same]

namespace Machine

structure Timed (m : Machine) : Prop where
  delay : m.delay.Chained (m.agenda.deadline .delay)
  sound : m.sound.Chained (m.agenda.deadline .sound)

structure Running (m : Machine) : Prop where
  status : m.status = .running
  armed : m.agenda.isScheduled .cycle
  free : m.cpu.awaiting = none

structure Waiting (m : Machine) (x : Register) : Prop where
  status : m.status = .awaitingKey x
  disarmed : ¬ m.agenda.isScheduled .cycle
  awaiting : m.cpu.awaiting = some x

structure Ended (m : Machine) : Prop where
  status : (∃ fault, m.status = .halted fault) ∨ m.status = .stopped
  disarmed : ∀ task, ¬ m.agenda.isScheduled task
  delay : m.delay.value = 0
  sound : m.sound.value = 0
  free : m.cpu.awaiting = none

abbrev Phased (m : Machine) : Prop := m.Running ∨ (∃ x, m.Waiting x) ∨ m.Ended

structure Lifecycle (m : Machine) : Prop where
  timed : m.Timed
  phase : m.Phased

theorem after_status (keys : Key → Bool) (now : Instant) (m : Machine) (instruction : Instruction) :
    (m.after keys now instruction).status = m.status := by
  cases instruction <;> rfl

theorem after_cycle (keys : Key → Bool) (now : Instant) (m : Machine) (instruction : Instruction) :
    (m.after keys now instruction).agenda.deadline .cycle = m.agenda.deadline .cycle := by
  cases instruction with
  | setDelay x => simp [after, Agenda.deadline_ite_schedule]
  | setSound x => simp [after, Agenda.deadline_ite_schedule]
  | _ => rfl

theorem after_timed (keys : Key → Bool) (now : Instant) {m : Machine} (instruction : Instruction)
    (timed : m.Timed) : (m.after keys now instruction).Timed := by
  cases instruction with
  | setDelay x =>
    constructor
    · simpa [after, Agenda.deadline_ite_schedule] using Countdown.chained_set timed.delay _ _
    · simpa [after, Agenda.deadline_ite_schedule] using timed.sound
  | setSound x =>
    constructor
    · simpa [after, Agenda.deadline_ite_schedule] using timed.delay
    · simpa [after, Agenda.deadline_ite_schedule] using Countdown.chained_set timed.sound _ _
  | _ => exact ⟨timed.delay, timed.sound⟩

theorem quiesce_timed (m : Machine) (status : Status) :
    ({ m.quiesce with status } : Machine).Timed where
  delay := by simp [Countdown.Chained, quiesce, Countdown.cancel]
  sound := by simp [Countdown.Chained, quiesce, Countdown.cancel]

theorem quiesce_ended (m : Machine) {status : Status}
    (ended : (∃ fault, status = .halted fault) ∨ status = .stopped) :
    ({ m.quiesce with status } : Machine).Ended where
  status := ended
  disarmed := by simp [quiesce, Agenda.isScheduled]
  delay := rfl
  sound := rfl
  free := rfl

theorem stop_timed (m : Machine) : m.stop.Timed := by
  unfold stop
  split
  · exact quiesce_timed m m.status
  · exact quiesce_timed m .stopped

theorem stop_ended (m : Machine) : m.stop.Ended := by
  unfold stop
  split
  next fault halted => exact quiesce_ended m (.inl ⟨fault, halted⟩)
  next => exact quiesce_ended m (.inr rfl)

theorem goOn_timed {m : Machine} (due : Instant) (timed : m.Timed) : (m.goOn due).Timed := by
  unfold goOn
  split
  · exact ⟨timed.delay, timed.sound⟩
  · exact ⟨by simpa using timed.delay, by simpa using timed.sound⟩

theorem goOn_phased {m : Machine} (due : Instant) (running : m.status = .running)
    (spent : m.agenda.deadline .cycle = none) : (m.goOn due).Phased := by
  unfold goOn
  cases awaited : m.cpu.awaiting with
  | some x => exact .inr (.inl ⟨x, rfl, by simp [Agenda.isScheduled, spent], awaited⟩)
  | none => exact .inl ⟨running, by simp [Agenda.isScheduled], awaited⟩

/-- What touches nothing but timers keeps the phase of a machine that has not ended. -/
theorem Phased.of_timers {m next : Machine} {task : Task} (phased : m.Phased)
    (armed : m.agenda.isScheduled task) (status : next.status = m.status)
    (cycle : next.agenda.deadline .cycle = m.agenda.deadline .cycle)
    (awaiting : next.cpu.awaiting = m.cpu.awaiting) : next.Phased := by
  rcases phased with running | ⟨x, waiting⟩ | ended
  · exact .inl ⟨status.trans running.status,
      by simpa [Agenda.isScheduled, cycle] using running.armed, awaiting.trans running.free⟩
  · exact .inr (.inl ⟨x, status.trans waiting.status,
      by simpa [Agenda.isScheduled, cycle] using waiting.disarmed, awaiting.trans waiting.awaiting⟩)
  · exact absurd armed (ended.disarmed task)

/-- A cycle is carried out only by a running machine. -/
theorem Phased.running_of_armed {m : Machine} (phased : m.Phased)
    (armed : m.agenda.isScheduled .cycle) : m.Running := by
  rcases phased with running | ⟨x, waiting⟩ | ended
  · exact running
  · exact absurd armed waiting.disarmed
  · exact absurd armed (ended.disarmed .cycle)

theorem perform_timed (keys : Key → Bool) (now : Instant) {m : Machine} (task : Task)
    (due : Instant) (timed : m.Timed) : (m.perform keys now task due).Timed := by
  cases task with
  | cycle =>
    have disarmed : ({ m with agenda := m.agenda.cancel .cycle } : Machine).Timed :=
      ⟨by simpa using timed.delay, by simpa using timed.sound⟩
    simp only [perform, cycle_eq]
    split
    · exact ⟨disarmed.delay, disarmed.sound⟩
    · split
      next instruction _ =>
        have carried := after_timed keys now instruction disarmed
        exact goOn_timed due ⟨carried.delay, carried.sound⟩
      next fault _ => exact quiesce_timed _ (.halted fault)
  | delay =>
    constructor
    · simpa [perform, tickDelay, Agenda.deadline_ite_schedule] using
        Countdown.chained_tick m.delay _
    · simpa [perform, tickDelay, Agenda.deadline_ite_schedule] using timed.sound
  | sound =>
    constructor
    · simpa [perform, tickSound, Agenda.deadline_ite_schedule] using timed.delay
    · simpa [perform, tickSound, Agenda.deadline_ite_schedule] using
        Countdown.chained_tick m.sound _

theorem perform_phased (keys : Key → Bool) (now : Instant) {m : Machine} {task : Task}
    (due : Instant) (phased : m.Phased) (armed : m.agenda.isScheduled task) :
    (m.perform keys now task due).Phased := by
  cases task with
  | cycle =>
    have running := phased.running_of_armed armed
    simp only [perform, cycle_eq, running.free]
    cases m.cpu.current with
    | error fault => exact .inr (.inr (quiesce_ended _ (.inl ⟨fault, rfl⟩)))
    | ok instruction =>
      refine goOn_phased due ?_ ?_
      · exact (after_status ..).trans running.status
      · exact (after_cycle ..).trans (by simp)
  | delay =>
    refine phased.of_timers armed rfl ?_ rfl
    simp [perform, tickDelay, Agenda.deadline_ite_schedule]
  | sound =>
    refine phased.of_timers armed rfl ?_ rfl
    simp [perform, tickSound, Agenda.deadline_ite_schedule]

theorem perform_lifecycle (keys : Key → Bool) (now : Instant) {m : Machine} {task : Task}
    (due : Instant) (valid : m.Lifecycle) (armed : m.agenda.isScheduled task) :
    (m.perform keys now task due).Lifecycle :=
  ⟨perform_timed keys now task due valid.timed, perform_phased keys now due valid.phase armed⟩

theorem receive_timed (now : Instant) {m : Machine} (signal : Signal) (timed : m.Timed) :
    (m.receive now signal).Timed := by
  cases signal with
  | stop => exact stop_timed m
  | keyDown key =>
    unfold receive giveKey
    cases m.cpu.awaiting with
    | none => exact timed
    | some x => exact ⟨by simpa using timed.delay, by simpa using timed.sound⟩

theorem receive_phased (now : Instant) {m : Machine} (signal : Signal) (phased : m.Phased) :
    (m.receive now signal).Phased := by
  cases signal with
  | stop => exact .inr (.inr (stop_ended m))
  | keyDown key =>
    unfold receive giveKey
    cases m.cpu.awaiting with
    | none => exact phased
    | some x => exact .inl ⟨rfl, by simp [Agenda.isScheduled], rfl⟩

theorem receive_lifecycle (now : Instant) {m : Machine} (signal : Signal) (valid : m.Lifecycle) :
    (m.receive now signal).Lifecycle :=
  ⟨receive_timed now signal valid.timed, receive_phased now signal valid.phase⟩

theorem handle_lifecycle (m : Machine) (event : Event) (valid : m.Lifecycle) :
    (m.handle event).Lifecycle := by
  cases event with
  | signal now signal => exact receive_lifecycle now signal valid
  | fire keys now =>
    simp only [handle]
    split
    next task due next =>
      have armed := Agenda.deadline_of_next? next
      exact perform_lifecycle keys now due valid (by simp [Agenda.isScheduled, armed])
    next => exact valid

/-- Until it is set going, a machine has nothing armed and awaits no key. -/
theorem assemble_fresh (settings : Settings) (entropy : StreamKey) (programs : List (List UInt8)) :
    let m := assemble settings entropy programs
    m.agenda = {} ∧ m.delay = {} ∧ m.sound = {} ∧ m.cpu.awaiting = none := by
  induction programs with
  | nil => exact ⟨rfl, rfl, rfl, rfl⟩
  | cons program earlier ih =>
    simp only [assemble, left_load]
    split
    · exact ih
    · exact ih

theorem start_lifecycle (settings : Settings) (entropy : StreamKey) (programs : List (List UInt8))
    (now : Instant) : ((assemble settings entropy programs).start now).Lifecycle := by
  obtain ⟨agenda, delay, sound, free⟩ := assemble_fresh settings entropy programs
  refine ⟨⟨?_, ?_⟩, .inl ⟨rfl, by simp [start, Agenda.isScheduled], free⟩⟩
  · simp [start, Countdown.Chained, agenda, delay, Agenda.schedule, Agenda.put, Agenda.deadline]
  · simp [start, Countdown.Chained, agenda, sound, Agenda.schedule, Agenda.put, Agenda.deadline]

theorem Running.not_waiting {m : Machine} (running : m.Running) : ¬ ∃ x, m.Waiting x := by
  rintro ⟨x, waiting⟩
  have := running.free.symm.trans waiting.awaiting
  contradiction

theorem Ended.not_waiting {m : Machine} (ended : m.Ended) : ¬ ∃ x, m.Waiting x := by
  rintro ⟨x, waiting⟩
  have := ended.free.symm.trans waiting.awaiting
  contradiction

theorem Running.not_ended {m : Machine} (running : m.Running) : ¬ m.Ended := by
  intro ended
  exact ended.disarmed .cycle running.armed

theorem Lifecycle.exactly_one {m : Machine} (valid : m.Lifecycle) :
    (m.Running ∧ (¬ ∃ x, m.Waiting x) ∧ ¬ m.Ended) ∨
    (¬ m.Running ∧ (∃ x, m.Waiting x) ∧ ¬ m.Ended) ∨
    (¬ m.Running ∧ (¬ ∃ x, m.Waiting x) ∧ m.Ended) := by
  rcases valid.phase with running | waiting | ended
  · exact .inl ⟨running, running.not_waiting, running.not_ended⟩
  · refine .inr (.inl ⟨?_, waiting, ?_⟩)
    · intro running
      exact running.not_waiting waiting
    · intro ended
      exact ended.not_waiting waiting
  · refine .inr (.inr ⟨?_, ended.not_waiting, ended⟩)
    intro running
    exact running.not_ended ended

/-- What a loop chooses to do next, by the phase of its machine. -/
theorem Lifecycle.choose {loop : Loop} (valid : loop.machine.Lifecycle) (now : Instant) :
    (loop.choose now = .finish → loop.machine.Ended) ∧
    (loop.choose now = .enter .parked → ∃ x, loop.machine.Waiting x) ∧
    (∀ due, loop.choose now = .enter (.resting .cycle due) ∨
      loop.choose now = .enter (.due .cycle due) → loop.machine.Running) := by
  unfold Loop.choose
  cases next : loop.machine.agenda.next? with
  | none =>
    have idle : ¬ loop.machine.agenda.isScheduled .cycle := by
      simp [Agenda.isScheduled, Agenda.next?_eq_none_iff.mp next]
    rcases valid.phase with running | ⟨x, waiting⟩ | ended
    · exact absurd running.armed idle
    · simp only [waiting.awaiting]
      exact ⟨by simp, fun _ => ⟨x, waiting⟩, by simp⟩
    · simp only [ended.free]
      exact ⟨fun _ => ended, by simp, by simp⟩
  | some first =>
    obtain ⟨task, due⟩ := first
    have armed := Agenda.deadline_of_next? next
    refine ⟨by simp, by dsimp only; split <;> simp, fun due' chosen => ?_⟩
    have cycle : task = .cycle := by
      dsimp only at chosen
      split at chosen <;> simp at chosen <;> exact chosen.1
    subst cycle
    exact Phased.running_of_armed valid.phase (by simp [Agenda.isScheduled, armed])

/-- The life of a machine that was set going with any programs loaded, after any events: each timer
is armed exactly while it has not run out; the machine runs, waits or has ended, and only one of
these. So a loop returns only if its machine has ended, goes to sleep without a deadline only if
it waits, and turns to an instruction only if it runs. -/
theorem pace_lifecycle (settings : Settings) (entropy : StreamKey) (programs : List (List UInt8))
    (now : Instant) (events : List Event) :
    let m := pace events ((assemble settings entropy programs).start now)
    (m.agenda.isScheduled .delay ↔ m.delay.value ≠ 0) ∧
    (m.agenda.isScheduled .sound ↔ m.sound.value ≠ 0) ∧
    ((m.Running ∧ (¬ ∃ x, m.Waiting x) ∧ ¬ m.Ended) ∨
      (¬ m.Running ∧ (∃ x, m.Waiting x ∧ x.val < 16) ∧ ¬ m.Ended) ∨
      (¬ m.Running ∧ (¬ ∃ x, m.Waiting x) ∧ m.Ended)) ∧
    ∀ (loop : Loop) (time : Instant), loop.machine = m →
      (loop.choose time = .finish → m.Ended) ∧
      (loop.choose time = .enter .parked → ∃ x, m.Waiting x) ∧
      (∀ due, loop.choose time = .enter (.resting .cycle due) ∨
        loop.choose time = .enter (.due .cycle due) → m.Running) := by
  have valid := pace_invariant handle_lifecycle events _
    (start_lifecycle settings entropy programs now)
  refine ⟨valid.timed.delay, valid.timed.sound, ?_, ?_⟩
  · simpa using valid.exactly_one
  · intro loop time same
    rw [← same] at valid ⊢
    exact valid.choose time

/-- Sets the delay timer to one and asks for a key; what follows is no instruction. -/
def question : List UInt8 := [0x60, 0x01, 0xF0, 0x15, 0xF1, 0x0A, 0xFF, 0xFF]

/-- The timer runs out while the machine waits. -/
def answered : List Event :=
  List.replicate 4 (.fire (fun _ => false) 0) ++
    [.signal 9 (.keyDown 7), .fire (fun _ => false) 9]

theorem pace_lifecycle_answered :
    let m (n : Nat) :=
      pace (answered.take n) ((assemble {} (Vector.replicate 8 0) [question]).start 0)
    (m 2).delay.value = 1 ∧ (m 2).agenda.isScheduled .delay ∧ (m 2).Running ∧
      (m 4).delay.value = 0 ∧ ¬ (m 4).agenda.isScheduled .delay ∧ (∃ x, (m 4).Waiting x) ∧
      (m 6).Ended := by
  have facts :
      let m (n : Nat) :=
        pace (answered.take n) ((assemble {} (Vector.replicate 8 0) [question]).start 0)
      (m 2).delay.value = 1 ∧
        Loop.choose { machine := m 2 } 4000000 = .enter (.due .cycle 4000000) ∧
        (m 4).delay.value = 0 ∧ Loop.choose { machine := m 4 } 0 = .enter .parked ∧
        Loop.choose { machine := m 6 } 9 = .finish := by
    decide +kernel
  have life (n : Nat) := pace_lifecycle {} (Vector.replicate 8 0) [question] 0 (answered.take n)
  -- From here on it does not matter which machine and which events these are.
  generalize (assemble {} (Vector.replicate 8 0) [question]).start 0 = begun at facts life ⊢
  generalize answered = events at facts life ⊢
  obtain ⟨going, turns, spent, parks, finishes⟩ := facts
  obtain ⟨armed, -, -, runs⟩ := life 2
  obtain ⟨disarmed, -, -, waits⟩ := life 4
  obtain ⟨-, -, -, ends⟩ := life 6
  refine ⟨going, armed.mpr (by rw [going]; decide), ?_, spent, fun still => disarmed.mp still spent,
    ?_, (ends _ 9 rfl).1 finishes⟩
  · exact (runs _ 4000000 rfl).2.2 _ (.inr turns)
  · exact (waits _ 0 rfl).2.1 parks

end Machine
end ChipEight
