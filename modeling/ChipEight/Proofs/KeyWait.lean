import ChipEight.Proofs.Finality
import Mathlib.Data.Nat.Find

/-! Waiting for a key. The instruction that asks for one uses up the cycle it is carried out in and
arms no other, so until the loop hears from outside nothing changes but the timers. If what it
hears first is a key, that key goes to the register, and the clock goes on. So keys and
instructions that ask for one are matched one to one, and a key that matches none is dropped. -/
namespace ChipEight

namespace Moment

/-- Neither a signal is handled nor the hang-up heard. -/
structure Silent (moment : Moment) : Prop where
  unhandled : moment.handled? = none
  unheard : moment.hearsHangUp = false

def fires (task : Task) (moment : Moment) : Bool := moment.fired?.any (·.1 = task)

end Moment

namespace Loop

/-- What lies between two places of a history. -/
def between (past : List Moment) (i j : Nat) : List Moment := (past.take j).drop (i + 1)

/-- The first that the loop hears after the moment `i`, in which an instruction asks for a key to be
stored in `x`, is `key`, and it hears it in the moment `j`. -/
structure Answers (past : List Moment) (i j : Nat) (x : Register) (key : Key) : Prop where
  later : i < j
  asks : ∃ moment, past[i]? = some moment ∧ moment.executes? = some (.awaitKey x)
  brings : ∃ moment, past[j]? = some moment ∧ moment.handled? = some (.keyDown key)
  silent : ∀ moment ∈ between past i j, moment.Silent

theorem mem_between {past : List Moment} {i j : Nat} {moment : Moment} :
    moment ∈ between past i j ↔ ∃ n, i < n ∧ n < j ∧ past[n]? = some moment := by
  simp only [between, List.mem_iff_getElem?, List.getElem?_drop, List.getElem?_take]
  constructor
  · rintro ⟨n, found⟩
    split at found
    next bound => exact ⟨i + 1 + n, by omega, bound, found⟩
    next => contradiction
  · rintro ⟨n, first, second, found⟩
    refine ⟨n - (i + 1), ?_⟩
    have place : i + 1 + (n - (i + 1)) = n := by omega
    rw [place, if_pos second, found]

theorem follow_between {incidents : List Incident} {loop : Loop} {i j : Nat} {first second : Moment}
    (found : (history incidents loop)[i]? = some first)
    (reached : (history incidents loop)[j]? = some second) (later : i < j) :
    ∃ middle, follow middle first.next = second.loop ∧
      history middle first.next = between (history incidents loop) i j := by
  have ordered : (incidents.take j).take (i + 1) = incidents.take (i + 1) := by
    rw [List.take_take, Nat.min_eq_left later]
  refine ⟨(incidents.take j).drop (i + 1), ?_, ?_⟩
  · rw [(getElem?_history found).2, (getElem?_history reached).1, ← ordered, ← follow_append,
      List.take_append_drop]
  · rw [(getElem?_history found).2, between, take_history, drop_history, ordered]

end Loop

namespace Machine

/-- Nothing has changed but the timers, and those by so many ticks. -/
structure Idled (m : Machine) (delays sounds : Nat) (next : Machine) : Prop where
  same : next = { m with agenda := next.agenda, delay := next.delay, sound := next.sound }
  delay : next.delay.value.toNat = m.delay.value.toNat - delays
  sound : next.sound.value.toNat = m.sound.value.toNat - sounds

theorem Idled.refl (m : Machine) : m.Idled 0 0 m := ⟨rfl, rfl, rfl⟩

theorem Idled.trans {m middle next : Machine} {delays sounds moreDelays moreSounds : Nat}
    (first : m.Idled delays sounds middle) (second : middle.Idled moreDelays moreSounds next) :
    m.Idled (delays + moreDelays) (sounds + moreSounds) next where
  same := by
    rw [second.same, first.same]
  delay := by rw [second.delay, first.delay, Nat.sub_sub]
  sound := by rw [second.sound, first.sound, Nat.sub_sub]

end Machine

theorem Countdown.toNat_tick (timer : Countdown) :
    timer.tick.1.value.toNat = timer.value.toNat - 1 := by
  simp only [tick]
  split
  next spent => simp [spent]
  next going =>
    have positive : 1 ≤ timer.value := by
      rw [UInt8.le_iff_toNat_le]
      exact Nat.pos_of_ne_zero fun zero => going (UInt8.toNat_inj.mp zero)
    rw [UInt8.toNat_sub_of_le _ _ positive]
    rfl

namespace Machine

theorem perform_idled (keys : Key → Bool) (now : Instant) (m : Machine) {task : Task}
    (other : task ≠ .cycle) (due : Instant) :
    m.Idled (if task = .delay then 1 else 0) (if task = .sound then 1 else 0)
        (m.perform keys now task due) ∧
      (m.perform keys now task due).agenda.deadline .cycle = m.agenda.deadline .cycle := by
  cases task with
  | cycle => contradiction
  | delay =>
    refine ⟨⟨rfl, Countdown.toNat_tick m.delay, rfl⟩, ?_⟩
    simp [perform, tickDelay, Agenda.deadline_ite_schedule]
  | sound =>
    refine ⟨⟨rfl, rfl, Countdown.toNat_tick m.sound⟩, ?_⟩
    simp [perform, tickSound, Agenda.deadline_ite_schedule]

theorem Waiting.of_idled {m next : Machine} {x : Register} {delays sounds : Nat}
    (waiting : m.Waiting x) (idled : m.Idled delays sounds next)
    (cycle : next.agenda.deadline .cycle = none) : next.Waiting x where
  status := by rw [idled.same]; exact waiting.status
  disarmed := by simp [Agenda.isScheduled, cycle]
  awaiting := by rw [idled.same]; exact waiting.awaiting

theorem Waiting.cycle {m : Machine} {x : Register} (waiting : m.Waiting x) :
    m.agenda.deadline .cycle = none := by
  simpa [Agenda.isScheduled] using waiting.disarmed

theorem Waiting.receive {m : Machine} {x : Register} (waiting : m.Waiting x) (now : Instant)
    (key : Key) :
    m.receive now (.keyDown key) = { m with
      agenda := m.agenda.schedule .cycle (now + m.settings.clockPeriod)
      cpu := { m.cpu.setRegister x key.code with awaiting := none }
      status := .running } := by
  simp only [Machine.receive, giveKey, waiting.awaiting]

theorem Waiting.step {m : Machine} {x : Register} (waiting : m.Waiting x) (keys : Key → Bool)
    (now : Instant) : step keys now m = .ok () m := by
  simp only [step_eq, waiting.awaiting]

theorem perform_awaitKey {m : Machine} {x : Register} (free : m.cpu.awaiting = none)
    (current : m.cpu.current = .ok (.awaitKey x)) (keys : Key → Bool) (now due : Instant) :
    m.perform keys now .cycle due = { m with
      agenda := m.agenda.cancel .cycle
      cpu := { m.cpu with pc := m.cpu.pc + 2, awaiting := some x }
      status := .awaitingKey x } := by
  simp only [perform, cycle_eq, free, current]
  rfl

theorem after_awaiting (keys : Key → Bool) (now : Instant) (m : Machine)
    (instruction : Instruction) :
    (m.after keys now instruction).cpu.awaiting =
      match instruction with
      | .awaitKey x => some x
      | _ => m.cpu.awaiting := by
  have skipped (taken : Bool) : (m.cpu.skipIf taken).awaiting = m.cpu.awaiting := by
    cases taken <;> rfl
  cases instruction with
  | skipIfEqual | skipIfNotEqual | skipIfSame | skipIfDifferent | skipIfPressed | skipIfReleased =>
    exact skipped _
  | alu op x y =>
    obtain ⟨v, same⟩ := m.cpu.alu_registers m.settings.shiftOperand op x y
    rw [after, same]
  | _ => rfl

theorem eq_awaitKey_of_after {keys : Key → Bool} {now : Instant} {m : Machine}
    {instruction : Instruction} {x : Register} (free : m.cpu.awaiting = none)
    (awaited : (m.after keys now instruction).cpu.awaiting = some x) :
    instruction = .awaitKey x := by
  rw [after_awaiting] at awaited
  split at awaited
  · rw [Option.some.inj awaited]
  · simp [free] at awaited

theorem giveKey_free (m : Machine) (key : Key) : (m.giveKey key).1.cpu.awaiting = none := by
  unfold giveKey
  split
  next => rfl
  next free => exact free

end Machine

namespace Loop

/-- The machine waits for a key, and the loop does not mean to carry out a cycle. -/
structure Awaits (loop : Loop) (x : Register) : Prop where
  waiting : loop.machine.Waiting x
  patient : ∀ due, loop.phase ≠ .resting .cycle due ∧ loop.phase ≠ .due .cycle due

/-- How many ticks of the two timers there are among these moments. -/
abbrev delays (moments : List Moment) : Nat := moments.countP (Moment.fires .delay)
abbrev sounds (moments : List Moment) : Nat := moments.countP (Moment.fires .sound)

theorem Awaits.of_same {loop next : Loop} {x : Register} (awaits : loop.Awaits x)
    (machine : next.machine = loop.machine)
    (patient : ∀ due, next.phase ≠ .resting .cycle due ∧ next.phase ≠ .due .cycle due) :
    next.Awaits x ∧ loop.machine.Idled 0 0 next.machine := by
  rw [machine]
  exact ⟨⟨machine ▸ awaits.waiting, patient⟩, .refl _⟩

theorem Awaits.apply {loop : Loop} {x : Register} {move : Move} {now : Instant}
    (awaits : loop.Awaits x) (keys : Key → Bool) (ready : loop.Ready now move)
    (unhandled : move.handled? = none) (unheard : move.hearsHangUp = false) :
    (∀ due, move.fired? ≠ some (.cycle, due)) ∧ (loop.apply keys now move).Awaits x ∧
      loop.machine.Idled (if move.fired?.any (·.1 = .delay) then 1 else 0)
        (if move.fired?.any (·.1 = .sound) then 1 else 0) (loop.apply keys now move).machine := by
  have waiting := awaits.waiting
  have unarmed {task : Task} {due : Instant} (next : loop.machine.agenda.next? = some (task, due)) :
      task ≠ .cycle := by
    rintro rfl
    have armed := Agenda.deadline_of_next? next
    simp [waiting.cycle] at armed
  cases ready with
  | receive => contradiction
  | hearInTime | hearParked => contradiction
  | findEmpty | park | finish =>
    exact ⟨by simp [Move.fired?], awaits.of_same rfl (by simp [Loop.apply])⟩
  | rest _ next | attend _ next =>
    exact ⟨by simp [Move.fired?], awaits.of_same rfl (by simp [Loop.apply, unarmed next])⟩
  | @wake task due phase =>
    have other : task ≠ .cycle := by
      rintro rfl
      exact (awaits.patient due).1 phase
    exact ⟨by simp [Move.fired?], awaits.of_same rfl (by simp [Loop.apply, other])⟩
  | wait => exact ⟨by simp [Move.fired?], awaits.of_same rfl awaits.patient⟩
  | @perform task due phase =>
    have other : task ≠ .cycle := by
      rintro rfl
      exact (awaits.patient due).2 phase
    obtain ⟨idled, cycle⟩ := loop.machine.perform_idled keys now other due
    refine ⟨by simp [Move.fired?, other], ⟨waiting.of_idled idled ?_, by simp [Loop.apply]⟩, ?_⟩
    · exact cycle.trans waiting.cycle
    · simpa [Move.fired?, Loop.apply] using idled

theorem Awaits.meet {loop : Loop} {x : Register} (awaits : loop.Awaits x) {incident : Incident}
    (silent : Moment.Silent ⟨loop, incident⟩) :
    (∀ due, Moment.fired? ⟨loop, incident⟩ ≠ some (.cycle, due)) ∧ (loop.meet incident).Awaits x ∧
      loop.machine.Idled (delays [⟨loop, incident⟩]) (sounds [⟨loop, incident⟩])
        (loop.meet incident).machine := by
  cases incident with
  | send signal =>
    refine ⟨nofun, awaits.of_same (machine_meet_send ..) ?_⟩
    rw [phase_meet_send]
    exact awaits.patient
  | hangUp => exact ⟨nofun, awaits.of_same rfl awaits.patient⟩
  | move keys now =>
    simp only [delays, sounds, List.countP_singleton]
    exact awaits.apply keys (loop.ready_move now) silent.unhandled silent.unheard

/-- Until something is heard, the wait goes on. -/
theorem Awaits.follow {loop : Loop} {x : Register} (awaits : loop.Awaits x)
    (incidents : List Incident) (silent : ∀ moment ∈ history incidents loop, moment.Silent) :
    (Loop.follow incidents loop).Awaits x ∧
      loop.machine.Idled (delays (history incidents loop)) (sounds (history incidents loop))
        (Loop.follow incidents loop).machine := by
  induction incidents generalizing loop with
  | nil => exact ⟨awaits, .refl _⟩
  | cons incident rest ih =>
    obtain ⟨first, later⟩ := List.forall_mem_cons.mp silent
    obtain ⟨-, awaits, idled⟩ := awaits.meet first
    obtain ⟨awaits, more⟩ := ih awaits later
    refine ⟨awaits, ?_⟩
    have both := idled.trans more
    rwa [← List.countP_append, ← List.countP_append] at both

theorem meet_timed {loop : Loop} (incident : Incident) (timed : loop.machine.Timed) :
    (loop.meet incident).machine.Timed := by
  have next : (loop.meet incident).machine = (Moment.mk loop incident).next.machine := rfl
  rw [next]
  cases (Moment.mk loop incident).bears with
  | nothing _ _ _ same => rwa [same]
  | signal _ _ _ _ received =>
    rw [received]
    exact Machine.receive_timed _ _ timed
  | hangUp _ _ _ stopped =>
    rw [stopped]
    exact Machine.stop_timed _
  | task _ _ _ _ _ performed =>
    rw [performed]
    exact Machine.perform_timed _ _ _ _ timed

theorem follow_timed {loop : Loop} (incidents : List Incident) (timed : loop.machine.Timed) :
    (Loop.follow incidents loop).machine.Timed :=
  @follow_invariant (fun loop => loop.machine.Timed) (fun _ incident => meet_timed incident)
    incidents loop timed

theorem Ready.ended_of_stop {loop : Loop} {move : Move} {now : Instant} (ready : loop.Ready now move)
    (keys : Key → Bool) (ends : move.handled? = some .stop ∨ move.hearsHangUp = true) :
    (loop.apply keys now move).Sound ∧ (loop.apply keys now move).machine.Ended := by
  have stopped := Machine.stop_ended loop.machine
  cases ready with
  | @receive signal =>
    obtain rfl : signal = .stop := by simpa [Move.handled?, Move.hearsHangUp] using ends
    exact ⟨.of_draining (.inr (.inr stopped)) rfl, stopped⟩
  | hearInTime => exact ⟨⟨.inr (.inr stopped), by simp [apply], fun _ => stopped⟩, stopped⟩
  | hearParked => exact ⟨.of_draining (.inr (.inr stopped)) rfl, stopped⟩
  | _ => simp [Move.handled?, Move.hearsHangUp] at ends

end Loop

namespace Moment

theorem next_of_awaitKey {moment : Moment} {x : Register}
    (asks : moment.executes? = some (.awaitKey x)) :
    let m := moment.loop.machine
    moment.next.machine = { m with
      agenda := m.agenda.cancel .cycle
      cpu := { m.cpu with pc := m.cpu.pc + 2, awaiting := some x }
      status := .awaitingKey x } := by
  obtain ⟨keys, now, due, incident, fired, free, current⟩ := executes?_eq_some_iff.mp asks
  cases moment.bears with
  | nothing _ _ idle | signal _ _ _ idle | hangUp _ _ idle => simp [idle] at fired
  | task _ _ _ _ fired' performed =>
    obtain ⟨rfl, rfl⟩ : _ = Task.cycle ∧ _ = due := by simpa [fired'] using fired
    exact performed.trans (Machine.perform_awaitKey free current _ _ _)

theorem awaits_of_awaitKey {moment : Moment} {x : Register}
    (asks : moment.executes? = some (.awaitKey x)) : moment.next.Awaits x := by
  have next := next_of_awaitKey asks
  obtain ⟨keys, now, due, incident, fired, free, current⟩ := executes?_eq_some_iff.mp asks
  have started : moment.fired? ≠ none := by simp [fired]
  refine ⟨⟨?_, ?_, ?_⟩, by simp [(phase_of_fired started).2]⟩
  · rw [next]
  · rw [next]
    simp [Agenda.isScheduled]
  · rw [next]

theorem next_of_handled {moment : Moment} {keys : Key → Bool} {now : Instant} {signal : Signal}
    (incident : moment.incident = .move keys now) (handled : moment.handled? = some signal) :
    moment.next.machine = moment.loop.machine.receive now signal := by
  cases moment.bears with
  | nothing unhandled | hangUp unhandled | task _ _ unhandled => simp [unhandled] at handled
  | signal incident' handled' _ _ received =>
    obtain ⟨rfl, rfl⟩ : _ = keys ∧ _ = now := by simpa [incident'] using incident
    obtain rfl : _ = signal := by simpa [handled'] using handled
    exact received

theorem incident_of_handled {moment : Moment} {signal : Signal}
    (handled : moment.handled? = some signal) : ∃ keys now, moment.incident = .move keys now := by
  obtain ⟨loop, incident⟩ := moment
  cases incident with
  | send | hangUp => contradiction
  | move keys now => exact ⟨keys, now, rfl⟩

/-- A machine that waits after a moment has waited before and heard nothing, or an instruction has
just asked for a key. -/
theorem awaiting_next {moment : Moment} {x : Register}
    (awaited : moment.next.machine.cpu.awaiting = some x) :
    moment.executes? = some (.awaitKey x) ∨
      moment.Silent ∧ moment.loop.machine.cpu.awaiting = some x := by
  cases moment.bears with
  | nothing unhandled unheard _ same => exact .inr ⟨⟨unhandled, unheard⟩, same ▸ awaited⟩
  | @signal signal _ now _ _ _ _ received =>
    rw [received] at awaited
    cases signal with
    | stop => simp [(Machine.stop_ended _).free, Machine.receive] at awaited
    | keyDown key =>
      rw [Machine.cpu_receive] at awaited
      exact absurd awaited (by simp [Machine.giveKey_free])
  | hangUp _ _ _ stopped => simp [stopped, (Machine.stop_ended _).free] at awaited
  | @task task due keys now incident phase unhandled unheard fired performed =>
    rw [performed] at awaited
    cases task with
    | delay | sound => exact .inr ⟨⟨unhandled, unheard⟩, awaited⟩
    | cycle =>
      rw [Machine.cpu_perform_cycle, Machine.stepped] at awaited
      cases free : moment.loop.machine.cpu.awaiting with
      | some y => exact .inr ⟨⟨unhandled, unheard⟩, by simpa [free] using awaited⟩
      | none =>
        cases current : moment.loop.machine.cpu.current with
        | error fault => simp [free, current] at awaited
        | ok instruction =>
          simp only [free, current] at awaited
          obtain rfl := Machine.eq_awaitKey_of_after free awaited
          exact .inl (executes?_eq_some_iff.mpr ⟨keys, now, due, incident, fired, free, current⟩)

theorem heard_of_not_silent {moment : Moment} (heard : ¬ moment.Silent) :
    (∃ key, moment.handled? = some (.keyDown key)) ∨
      moment.handled? = some .stop ∨ moment.hearsHangUp = true := by
  cases handled : moment.handled? with
  | none =>
    cases unheard : moment.hearsHangUp with
    | true => exact .inr (.inr rfl)
    | false => exact absurd ⟨handled, unheard⟩ heard
  | some signal =>
    cases signal with
    | keyDown key => exact .inl ⟨key, rfl⟩
    | stop => exact .inr (.inl rfl)

theorem ended_of_stop {moment : Moment}
    (ends : moment.handled? = some .stop ∨ moment.hearsHangUp = true) :
    moment.next.Sound ∧ moment.next.machine.Ended := by
  obtain ⟨loop, incident⟩ := moment
  cases incident with
  | send | hangUp => simp [handled?, hearsHangUp, move?] at ends
  | move keys now => exact (loop.ready_move now).ended_of_stop keys ends

theorem executes?_eq_none {moment : Moment} (idle : moment.fired? = none) :
    moment.executes? = none := by
  refine Option.eq_none_iff_forall_not_mem.mpr ?_
  intro instruction executes
  obtain ⟨_, _, _, _, fired, _⟩ := executes?_eq_some_iff.mp executes
  simp [idle] at fired

end Moment

namespace Loop

/-- A machine that waits for a key has been asked to since it last heard anything, or it did so from
the start and has heard nothing. -/
theorem asked_of_awaiting {incidents : List Incident} {loop : Loop} {x : Register}
    (awaited : (follow incidents loop).machine.cpu.awaiting = some x) :
    (∃ before asks after, history incidents loop = before ++ asks :: after ∧
      asks.executes? = some (.awaitKey x) ∧ ∀ moment ∈ after, moment.Silent) ∨
    loop.machine.cpu.awaiting = some x ∧ ∀ moment ∈ history incidents loop, moment.Silent := by
  induction incidents generalizing loop with
  | nil => exact .inr ⟨awaited, by simp [history]⟩
  | cons incident rest ih =>
    rcases ih awaited with ⟨before, asks, after, split, executes, silent⟩ | ⟨awaited, silent⟩
    · exact .inl ⟨⟨loop, incident⟩ :: before, asks, after, congrArg _ split, executes, silent⟩
    · rcases @Moment.awaiting_next ⟨loop, incident⟩ x awaited with executes | ⟨first, awaited⟩
      · exact .inl ⟨[], ⟨loop, incident⟩, _, rfl, executes, silent⟩
      · exact .inr ⟨awaited, List.forall_mem_cons.mpr ⟨first, silent⟩⟩

theorem exists_first_heard {past : List Moment} {i j : Nat}
    (heard : ¬ ∀ moment ∈ between past i j, moment.Silent) :
    ∃ n moment, i < n ∧ n < j ∧ past[n]? = some moment ∧ ¬ moment.Silent ∧
      ∀ earlier ∈ between past i n, earlier.Silent := by
  classical
  have places : ∃ n moment, i < n ∧ n < j ∧ past[n]? = some moment ∧ ¬ moment.Silent := by
    simp only [not_forall] at heard
    obtain ⟨moment, member, loud⟩ := heard
    obtain ⟨n, after, before, found⟩ := mem_between.mp member
    exact ⟨n, moment, after, before, found, loud⟩
  obtain ⟨moment, after, before, found, loud⟩ := Nat.find_spec places
  refine ⟨Nat.find places, moment, after, before, found, loud, ?_⟩
  intro earlier member
  by_contra louder
  obtain ⟨n, first, least, place⟩ := mem_between.mp member
  exact Nat.find_min places least ⟨earlier, first, Nat.lt_trans least before, place, louder⟩

variable {incidents : List Incident} {start : Loop} {i j : Nat} {first second : Moment}

theorem executes?_after_stop (found : (history incidents start)[i]? = some first)
    (ends : first.handled? = some .stop ∨ first.hearsHangUp = true)
    (reached : (history incidents start)[j]? = some second) (later : i < j) :
    second.executes? = none := by
  obtain ⟨sound, ended⟩ := Moment.ended_of_stop ends
  obtain ⟨middle, path, -⟩ := follow_between found reached later
  have same := (sound.follow_ended ended middle).1
  have still := sound.follow middle
  rw [path] at same still
  exact Moment.executes?_eq_none (still.meet_ended (same ▸ ended) second.incident).2

theorem awaits_between {x : Register} (found : (history incidents start)[i]? = some first)
    (asks : first.executes? = some (.awaitKey x))
    (reached : (history incidents start)[j]? = some second) (later : i < j)
    (silent : ∀ moment ∈ between (history incidents start) i j, moment.Silent) :
    second.loop.Awaits x ∧
      first.next.machine.Idled (delays (between (history incidents start) i j))
        (sounds (between (history incidents start) i j)) second.loop.machine ∧
      (first.loop.machine.Timed → second.loop.machine.Timed) := by
  obtain ⟨middle, path, same⟩ := follow_between found reached later
  rw [← same] at silent ⊢
  rw [← path]
  obtain ⟨awaits, idled⟩ := (Moment.awaits_of_awaitKey asks).follow middle silent
  exact ⟨awaits, idled, fun timed => follow_timed middle (meet_timed first.incident timed)⟩

theorem answered_between {x y : Register} (found : (history incidents start)[i]? = some first)
    (asks : first.executes? = some (.awaitKey x))
    (reached : (history incidents start)[j]? = some second)
    (again : second.executes? = some (.awaitKey y)) (later : i < j) :
    ∃ n key, n < j ∧ Answers (history incidents start) i n x key := by
  by_cases silent : ∀ moment ∈ between (history incidents start) i j, moment.Silent
  -- Had nothing been heard, the machine would still wait, and carry out nothing.
  · have awaits := (awaits_between found asks reached later silent).1
    obtain ⟨_, _, _, _, _, free, _⟩ := Moment.executes?_eq_some_iff.mp again
    have awaited := awaits.waiting.awaiting
    simp [free] at awaited
  · obtain ⟨n, moment, after, before, place, loud, silent⟩ := exists_first_heard silent
    rcases Moment.heard_of_not_silent loud with ⟨key, handled⟩ | ends
    · exact ⟨n, key, before, after, ⟨first, found, asks⟩, ⟨moment, place, handled⟩, silent⟩
    · have stopped := executes?_after_stop place ends reached before
      simp [stopped] at again

theorem Answers.asks_unique {past : List Moment} (same : past = history incidents start)
    {i j n : Nat} {x y : Register} {key other : Key} (first : Answers past i n x key)
    (second : Answers past j n y other) : i = j := by
  subst same
  have apart {i j : Nat} {x y : Register} {key other : Key}
      (first : Answers (history incidents start) i n x key)
      (second : Answers (history incidents start) j n y other) : ¬ i < j := by
    intro later
    obtain ⟨moment, found, asks⟩ := first.asks
    obtain ⟨again, reached, asksAgain⟩ := second.asks
    obtain ⟨k, pressed, before, answers⟩ := answered_between found asks reached asksAgain later
    obtain ⟨press, place, handled⟩ := answers.brings
    have silent := first.silent press
      (mem_between.mpr ⟨k, answers.later, Nat.lt_trans before second.later, place⟩)
    simp [silent.unhandled] at handled
  exact Nat.le_antisymm (Nat.not_lt.mp (apart second first)) (Nat.not_lt.mp (apart first second))

theorem Answers.brings_unique {past : List Moment} {i j n : Nat} {x y : Register} {key other : Key}
    (first : Answers past i j x key) (second : Answers past i n y other) : j = n := by
  have apart {j n : Nat} {x y : Register} {key other : Key} (first : Answers past i j x key)
      (second : Answers past i n y other) : ¬ j < n := by
    intro before
    obtain ⟨press, place, handled⟩ := first.brings
    have silent := second.silent press (mem_between.mpr ⟨j, first.later, before, place⟩)
    simp [silent.unhandled] at handled
  exact Nat.le_antisymm (Nat.not_lt.mp (apart second first)) (Nat.not_lt.mp (apart first second))

/-- A key that no instruction has asked for since the machine last heard anything. -/
theorem awaiting_of_unasked {x : Register} {key : Key}
    (reached : (history incidents start)[j]? = some second)
    (handled : second.handled? = some (.keyDown key))
    (unasked : ∀ i x, ¬ Answers (history incidents start) i j x key)
    (initial : start.machine.cpu.awaiting ≠ none →
      ∃ earlier ∈ (history incidents start).take j, ¬ earlier.Silent) :
    second.loop.machine.cpu.awaiting ≠ some x := by
  intro awaited
  rw [(getElem?_history reached).1] at awaited
  rcases asked_of_awaiting awaited with ⟨before, asks, after, split, executes, silent⟩ | ⟨awaited, silent⟩
  · rw [← take_history] at split
    have place : ((history incidents start).take j)[before.length]? = some asks := by
      rw [split, List.getElem?_append_right (Nat.le_refl _), Nat.sub_self]
      rfl
    rw [List.getElem?_take] at place
    split at place
    next later =>
      refine unasked before.length x
        ⟨later, ⟨asks, place, executes⟩, ⟨second, reached, handled⟩, ?_⟩
      rw [between, split, List.drop_append, List.drop_of_length_le (Nat.le_succ _)]
      simpa using silent
    next => contradiction
  · rw [← take_history] at silent
    obtain ⟨earlier, member, loud⟩ := initial (by simp [awaited])
    exact loud (silent earlier member)

/-- Waiting for a key in a run of the loop, on any machine. An instruction that asks for a key leaves
the machine as it is but for the program counter, the register it waits for, and the deadline of
the cycle. Until something is heard, whatever is done, nothing changes but the timers, which go on.
If it is a key, it goes to that register and to no other, and the next cycle is one clock period
ahead. A key that answers no instruction changes nothing, unless the machine was waiting from the
start and hears it first. No key answers two instructions, no instruction is answered by two keys,
and between two instructions that ask for a key the first is answered. -/
theorem run_awaits (m : Machine) (channel : Channel) (incidents : List Incident) :
    let past := history incidents { machine := m, channel }
    (∀ i first x, past[i]? = some first → first.executes? = some (.awaitKey x) →
      let found := first.loop.machine
      let waiting := first.next.machine
      waiting = { found with
        agenda := found.agenda.cancel .cycle
        cpu := { found.cpu with pc := found.cpu.pc + 2, awaiting := some x }
        status := .awaitingKey x } ∧
      ∀ j moment, past[j]? = some moment → i < j →
        (∀ earlier ∈ between past i j, earlier.Silent) →
        let met := moment.loop.machine
        met = { waiting with agenda := met.agenda, delay := met.delay, sound := met.sound } ∧
        met.agenda.deadline .cycle = none ∧
        met.delay.value.toNat = waiting.delay.value.toNat - delays (between past i j) ∧
        met.sound.value.toNat = waiting.sound.value.toNat - sounds (between past i j) ∧
        (found.Timed → met.Timed) ∧
        (∀ keys now, Machine.step keys now met = .ok () met) ∧
        ∀ keys now key, moment.incident = .move keys now → moment.handled? = some (.keyDown key) →
          moment.next.machine = { met with
            agenda := met.agenda.schedule .cycle (now + met.settings.clockPeriod)
            cpu := { met.cpu.setRegister x key.code with awaiting := none }
            status := .running }) ∧
    (∀ j moment key, past[j]? = some moment → moment.handled? = some (.keyDown key) →
      (∀ i x, ¬ Answers past i j x key) →
      (m.cpu.awaiting ≠ none → ∃ earlier ∈ past.take j, ¬ earlier.Silent) →
      moment.next.machine = moment.loop.machine) ∧
    (∀ i j n x y key other, Answers past i n x key → Answers past j n y other → i = j) ∧
    (∀ i j n x y key other, Answers past i j x key → Answers past i n y other → j = n) ∧
    ∀ i j first second x y, past[i]? = some first → first.executes? = some (.awaitKey x) →
      past[j]? = some second → second.executes? = some (.awaitKey y) → i < j →
      ∃ n key, n < j ∧ Answers past i n x key := by
  intro past
  refine ⟨?_, ?_, fun _ _ _ _ _ _ _ => Answers.asks_unique rfl,
    fun _ _ _ _ _ _ _ => Answers.brings_unique, fun _ _ _ _ _ _ => answered_between⟩
  · intro i first x found asks
    refine ⟨Moment.next_of_awaitKey asks, ?_⟩
    intro j moment reached later silent
    obtain ⟨awaits, idled, timed⟩ := awaits_between found asks reached later silent
    refine ⟨idled.same, awaits.waiting.cycle, idled.delay, idled.sound, timed, awaits.waiting.step, ?_⟩
    intro keys now key incident handled
    rw [Moment.next_of_handled incident handled]
    exact awaits.waiting.receive now key
  · intro j moment key reached handled unasked initial
    have free : moment.loop.machine.cpu.awaiting = none := by
      refine Option.eq_none_iff_forall_not_mem.mpr ?_
      intro x
      exact awaiting_of_unasked reached handled unasked initial
    obtain ⟨keys, now, incident⟩ := Moment.incident_of_handled handled
    rw [Moment.next_of_handled incident handled]
    simp only [Machine.receive, Machine.giveKey, free]

/-- About to ask for a key, with a delay timer that has three ticks to go. -/
def expecting : Machine :=
  { Machine.new { clockPeriod := 10 } (Vector.replicate 8 0) with
    agenda := { cycle := some 0, delay := some 5 }
    delay := ⟨3⟩
    cpu := { pc := 0, memory := .patch ⟨Vector.replicate 4096 0⟩ 0 [0xF5, 0x0A] } }

/-- A key that comes too early, a tick while the machine waits, and the key that ends the wait. -/
def twoKeys : List Incident :=
  .send (.keyDown 8) :: .move (fun _ => false) 0 :: turns [0, 5] ++
    [.send (.keyDown 7), .move (fun _ => false) 9]

theorem run_awaits_twoKeys :
    let early : Moment := ⟨follow (twoKeys.take 1) { machine := expecting }, .move (fun _ => false) 0⟩
    let asks : Moment := ⟨follow (twoKeys.take 4) { machine := expecting }, .move (fun _ => false) 0⟩
    let hears : Moment := ⟨follow (twoKeys.take 9) { machine := expecting }, .move (fun _ => false) 9⟩
    early.handled? = some (.keyDown 8) ∧ early.next.machine = early.loop.machine ∧
      asks.executes? = some (.awaitKey 5) ∧
      hears.loop.machine.delay.value.toNat = asks.next.machine.delay.value.toNat - 1 ∧
      hears.next.machine = { hears.loop.machine with
        agenda := hears.loop.machine.agenda.schedule .cycle
          (9 + hears.loop.machine.settings.clockPeriod)
        cpu := { hears.loop.machine.cpu.setRegister 5 (Key.code 7) with awaiting := none }
        status := .running } := by
  intro early asks hears
  obtain ⟨dropped, executes, silent, ticks, handled⟩ :
      early.handled? = some (.keyDown 8) ∧ asks.executes? = some (.awaitKey 5) ∧
      (∀ moment ∈ between (history twoKeys { machine := expecting }) 4 9,
        moment.handled? = none ∧ moment.hearsHangUp = false) ∧
      delays (between (history twoKeys { machine := expecting }) 4 9) = 1 ∧
      hears.handled? = some (.keyDown 7) := by
    decide +kernel
  obtain ⟨waits, unasked, -⟩ := run_awaits expecting {} twoKeys
  have unanswered (i : Nat) (x : Register) :
      ¬ Answers (history twoKeys { machine := expecting }) i 1 x 8 := by
    rintro ⟨before, ⟨moment, found, asked⟩, -, -⟩
    obtain rfl : i = 0 := by omega
    obtain rfl := Option.some.inj found
    simp [Moment.executes?, Moment.step?] at asked
  have unchanged := unasked 1 early 8 rfl dropped unanswered (fun awaited => absurd rfl awaited)
  obtain ⟨-, -, delay, -, -, -, answer⟩ := (waits 4 asks 5 rfl executes).2 9 hears rfl (by decide)
    fun moment member => ⟨(silent moment member).1, (silent moment member).2⟩
  rw [ticks] at delay
  exact ⟨dropped, unchanged, executes, delay, answer _ 9 7 rfl handled⟩

end Loop
end ChipEight
