import ChipEight.Proofs.Deadlines

/-! Tasks that are due at the same instant. Each of the two timers has its own count and its own
deadline, and a tick touches nothing else (`Machine.withTimer`). So the ticks of both commute, and a
tick commutes with a cycle whatever comes of that, unless its instruction looks at the very timer. -/
namespace ChipEight

namespace Countdown

theorem tick_eq_self {count : Countdown} (stands : count.value = 0) : count.tick.1 = count := by
  rw [tick, if_pos stands, ← stands]

theorem tick_eq_zero_iff {count : Countdown} : count.tick.1.value = 0 ↔ count.value.toNat ≤ 1 := by
  rw [← UInt8.toNat_inj, toNat_tick]
  exact Nat.sub_eq_zero_iff_le

end Countdown

namespace Machine

def withTimer (m : Machine) (timer : Timer) (count : Countdown) (deadline : Option Instant) :
    Machine :=
  match timer with
  | .delay => { m with delay := count, agenda := m.agenda.put deadline .delay }
  | .sound => { m with sound := count, agenda := m.agenda.put deadline .sound }

/-- The machine after a tick of a timer that was due at `due`. -/
def ticked (m : Machine) (timer : Timer) (due : Instant) : Machine :=
  m.withTimer timer (m.timer timer).tick.1
    (if (m.timer timer).tick.2 then some (due + m.settings.timerPeriod) else none)

variable {m : Machine} {timer : Timer} {count : Countdown} {deadline : Option Instant}
  {instruction : Instruction}

theorem perform_timer (keys : Key → Bool) (now : Instant) (m : Machine) (timer : Timer)
    (due : Instant) : m.perform keys now timer.task due = m.ticked timer due := by
  have armed (agenda : Agenda) (task : Task) (again : Bool) (instant : Instant) :
      (if again then (agenda.cancel task).schedule task instant else agenda.cancel task) =
        agenda.put (if again then some instant else none) task := by
    cases again <;> cases task <;> rfl
  cases timer with
  | delay =>
    simp only [perform, Timer.task, tickDelay, armed]
    rfl
  | sound =>
    simp only [perform, Timer.task, tickSound, armed]
    rfl

theorem withTimer_comm (m : Machine) (count other : Countdown) (deadline later : Option Instant) :
    (m.withTimer .delay count deadline).withTimer .sound other later =
      (m.withTimer .sound other later).withTimer .delay count deadline :=
  rfl

@[simp] theorem cpu_withTimer : (m.withTimer timer count deadline).cpu = m.cpu := by
  cases timer <;> rfl

@[simp] theorem cpu_ticked (due : Instant) : (m.ticked timer due).cpu = m.cpu := cpu_withTimer

theorem halt_withTimer (fault : Fault) : (m.withTimer timer count deadline).halt fault = m.halt fault := by
  cases timer <;> rfl

/-- What ends in a fault stands still: there is nothing left to tick. -/
theorem ticked_halt (fault : Fault) (due : Instant) : (m.halt fault).ticked timer due = m.halt fault := by
  cases timer <;> rfl

@[simp] theorem timer_withTimer : (m.withTimer timer count deadline).timer timer = count := by
  cases timer <;> rfl

theorem moveOn_withTimer :
    (m.withTimer timer count deadline).moveOn = m.moveOn.withTimer timer count deadline := by
  cases timer <;> rfl

theorem goOn_withTimer (due : Instant) :
    (m.withTimer timer count deadline).goOn due =
      (m.goOn due).withTimer timer count deadline := by
  simp only [goOn, cpu_withTimer]
  cases m.cpu.awaiting <;> cases timer <;> rfl

/-- An instruction does not notice that a timer was replaced if it does not start it, neither as it
was nor as it is, and reads the same count. -/
theorem after_withTimer (keys : Key → Bool) (now : Instant)
    (unread : (∃ x, instruction = .readDelay x) → timer = .delay → count = m.delay)
    (before : ¬ m.Starts timer instruction)
    (replaced : ¬ (m.withTimer timer count deadline).Starts timer instruction) :
    (m.withTimer timer count deadline).after keys now instruction =
      (m.after keys now instruction).withTimer timer count deadline := by
  cases instruction with
  | readDelay x =>
    cases timer with
    | delay =>
      obtain rfl := unread ⟨x, rfl⟩ rfl
      rfl
    | sound => rfl
  | setDelay x =>
    cases timer with
    | delay =>
      have ignored : m.delay.set (m.cpu.register x) = (m.delay, false) := set_ignored before
      have again : count.set (m.cpu.register x) = (count, false) := set_ignored replaced
      simp [after, withTimer, ignored, again]
    | sound =>
      by_cases starts : (m.delay.set (m.cpu.register x)).2
      · simp only [after, withTimer, starts, ↓reduceIte]
        rfl
      · simp only [after, withTimer, starts, ↓reduceIte, Bool.false_eq_true]
  | setSound x =>
    cases timer with
    | delay =>
      by_cases starts : (m.sound.set (m.cpu.register x)).2
      · simp only [after, withTimer, starts, ↓reduceIte]
        rfl
      · simp only [after, withTimer, starts, ↓reduceIte, Bool.false_eq_true]
    | sound =>
      have ignored : m.sound.set (m.cpu.register x) = (m.sound, false) := set_ignored before
      have again : count.set (m.cpu.register x) = (count, false) := set_ignored replaced
      simp [after, withTimer, ignored, again]
  | _ => cases timer <;> rfl

/-- It matters whether the instruction or a tick of the timer comes first: the instruction reads the
timer while that runs, or it sets the timer going, before the tick or after it. -/
def Collides (m : Machine) (timer : Timer) (instruction : Instruction) : Prop :=
  (timer = .delay ∧ m.delay.value ≠ 0 ∧ ∃ x, instruction = .readDelay x) ∨
  ((m.timer timer).value.toNat ≤ 1 ∧
    ∃ x, instruction = timer.setting x ∧ m.cpu.register x ≠ 0)

theorem Starts.collides (starts : m.Starts timer instruction) : m.Collides timer instruction := by
  obtain ⟨x, sets, stands, positive⟩ := starts
  exact .inr ⟨by simp [stands], x, sets, positive⟩

theorem after_ticked (keys : Key → Bool) (now due : Instant)
    (apart : ¬ m.Collides timer instruction) :
    (m.ticked timer due).after keys now instruction =
      (m.after keys now instruction).withTimer timer (m.timer timer).tick.1
        (if (m.timer timer).tick.2 then some (due + m.settings.timerPeriod) else none) := by
  refine after_withTimer keys now ?_ ?_ ?_
  · rintro reads rfl
    by_cases stands : m.delay.value = 0
    · exact Countdown.tick_eq_self stands
    · exact absurd (.inl ⟨rfl, stands, reads⟩) apart
  · exact fun starts => apart starts.collides
  · rintro ⟨x, sets, stands, positive⟩
    rw [timer_withTimer, Countdown.tick_eq_zero_iff] at stands
    rw [cpu_withTimer] at positive
    exact apart (.inr ⟨stands, x, sets, positive⟩)

theorem cancel_ticked (due : Instant) :
    { m.ticked timer due with agenda := (m.ticked timer due).agenda.cancel .cycle } =
      { m with agenda := m.agenda.cancel .cycle }.ticked timer due := by
  cases timer <;> rfl

theorem ticked_of_same {next : Machine} (count : next.timer timer = m.timer timer)
    (settings : next.settings = m.settings) (due : Instant) :
    next.ticked timer due =
      next.withTimer timer (m.timer timer).tick.1
        (if (m.timer timer).tick.2 then some (due + m.settings.timerPeriod) else none) := by
  rw [ticked, count, settings]

/-- A tick and a cycle that does not collide with it can change places, whatever the cycle ends in. -/
theorem perform_ticked (keys : Key → Bool) (now due later : Instant)
    (apart : ∀ instruction, m.carriesOut? keys now = some instruction →
      ¬ m.Collides timer instruction) :
    (m.perform keys now .cycle due).ticked timer later =
      (m.ticked timer later).perform keys now .cycle due := by
  cases free : m.cpu.awaiting with
  | some x =>
    rw [perform_cycle_awaiting free, perform_cycle_awaiting ((cpu_ticked later).symm ▸ free)]
    cases timer <;> rfl
  | none =>
    have ticks : (m.ticked timer later).cpu.awaiting = none := by rw [cpu_ticked, free]
    cases current : m.cpu.current with
    | error fault =>
      have faults : (m.ticked timer later).cpu.current = .error fault := by rw [cpu_ticked, current]
      rw [perform_cycle_error free current, perform_cycle_error ticks faults, ticked_halt, ticked,
        halt_withTimer]
    | ok instruction =>
      have carries : (m.ticked timer later).cpu.current = .ok instruction := by
        rw [cpu_ticked, current]
      have apart := apart instruction (carriesOut?_eq_some_iff.mpr ⟨free, current⟩)
      have kept := (timer_perform_cycle keys now due free current fun starts =>
        apart starts.collides).1
      have apart' : ¬ ({ m with agenda := m.agenda.cancel .cycle } : Machine).Collides timer
          instruction := by
        cases timer <;> exact apart
      rw [ticked_of_same kept (settings_perform ..), perform_cycle_ok free current,
        perform_cycle_ok ticks carries, cancel_ticked, after_ticked keys now later apart',
        moveOn_withTimer, goOn_withTimer]
      cases timer <;> rfl

theorem register_perform_readDelay {x : Register} (free : m.cpu.awaiting = none)
    (current : m.cpu.current = .ok (.readDelay x)) (keys : Key → Bool) (now due : Instant) :
    (m.perform keys now .cycle due).cpu.register x = m.delay.value := by
  rw [perform_cycle_ok free current, cpu_goOn]
  exact (Cpu.register_setRegister m.cpu x x _).trans (if_pos rfl)

/-- The register tells whether the timer was read before the tick or after it. -/
theorem perform_ticked_ne_of_reads (keys : Key → Bool) (now due later : Instant) {x : Register}
    (free : m.cpu.awaiting = none) (current : m.cpu.current = .ok (.readDelay x))
    (running : m.delay.value ≠ 0) :
    (m.perform keys now .cycle due).ticked .delay later ≠
      (m.ticked .delay later).perform keys now .cycle due := by
  intro same
  have read := congrArg (·.cpu.register x) same
  have after : ((m.ticked .delay later).perform keys now .cycle due).cpu.register x =
      m.delay.tick.1.value :=
    register_perform_readDelay ((cpu_ticked later).symm ▸ free) ((cpu_ticked later).symm ▸ current) ..
  rw [cpu_ticked, register_perform_readDelay free current, after] at read
  have spent : m.delay.value.toNat = m.delay.value.toNat - 1 := by
    rw [← Countdown.toNat_tick, ← read]
  exact running (UInt8.toNat_inj.mp (show _ = 0 by omega))

/-- A timer that is set after the tick holds the register, and else less than that. -/
theorem perform_ticked_ne_of_sets (keys : Key → Bool) (now due later : Instant) {x : Register}
    (free : m.cpu.awaiting = none) (current : m.cpu.current = .ok (timer.setting x))
    (low : (m.timer timer).value.toNat ≤ 1) (positive : m.cpu.register x ≠ 0) :
    (m.perform keys now .cycle due).ticked timer later ≠
      (m.ticked timer later).perform keys now .cycle due := by
  intro same
  have count := congrArg (·.timer timer) same
  have idle : ((m.ticked timer later).timer timer).value = 0 := by
    rw [ticked, timer_withTimer, Countdown.tick_eq_zero_iff]
    exact low
  have after : ((m.ticked timer later).perform keys now .cycle due).timer timer =
      ⟨(m.ticked timer later).cpu.register x⟩ :=
    (timer_perform_setting keys now due ((cpu_ticked later).symm ▸ free)
      ((cpu_ticked later).symm ▸ current) idle ((cpu_ticked later).symm ▸ positive)).1
  rw [ticked, timer_withTimer, after, cpu_ticked] at count
  have lowered : ((m.perform keys now .cycle due).timer timer).value.toNat - 1 =
      (m.cpu.register x).toNat := by
    rw [← Countdown.toNat_tick, count]
  refine positive (UInt8.toNat_inj.mp (show _ = 0 from ?_))
  by_cases stands : (m.timer timer).value = 0
  · have started : ((m.perform keys now .cycle due).timer timer).value.toNat =
        (m.cpu.register x).toNat := by
      rw [(timer_perform_setting keys now due free current stands positive).1]
    omega
  · have unset : ¬ m.Starts timer (timer.setting x) := by
      rintro ⟨_, _, idle, _⟩
      exact stands idle
    rw [(timer_perform_cycle keys now due free current unset).1] at lowered
    omega

theorem perform_ticked_iff (keys : Key → Bool) (now due later : Instant) (m : Machine)
    (timer : Timer) :
    (m.perform keys now .cycle due).ticked timer later =
        (m.ticked timer later).perform keys now .cycle due ↔
      ∀ instruction, m.carriesOut? keys now = some instruction → ¬ m.Collides timer instruction := by
  refine ⟨?_, perform_ticked keys now due later⟩
  intro same instruction carries collides
  obtain ⟨free, current⟩ := carriesOut?_eq_some_iff.mp carries
  rcases collides with ⟨rfl, running, x, rfl⟩ | ⟨low, x, rfl, positive⟩
  · exact perform_ticked_ne_of_reads keys now due later free current running same
  · exact perform_ticked_ne_of_sets keys now due later free current low positive same

/-- Tasks that are due together. A tick of the delay timer changes places with any cycle that does
not carry out an instruction that reads or sets this timer, a tick of the sound timer with any cycle
that does not carry out one that sets that timer, and the two ticks with each other. The cycle may
also fault and end the machine, begin to wait for a key, or find it waiting. -/
theorem tasks_commute (keys held : Key → Bool) (now later : Instant) (m : Machine)
    (first second : Instant) :
    ((∀ x, m.carriesOut? keys now ≠ some (.readDelay x) ∧
        m.carriesOut? keys now ≠ some (.setDelay x)) →
      (m.perform keys now .cycle first).perform held later .delay second =
        (m.perform held later .delay second).perform keys now .cycle first) ∧
    ((∀ x, m.carriesOut? keys now ≠ some (.setSound x)) →
      (m.perform keys now .cycle first).perform held later .sound second =
        (m.perform held later .sound second).perform keys now .cycle first) ∧
    (m.perform keys now .delay first).perform held later .sound second =
      (m.perform held later .sound second).perform keys now .delay first := by
  have delay (keys : Key → Bool) (now : Instant) (m : Machine) (due : Instant) :
      m.perform keys now .delay due = m.ticked .delay due := perform_timer keys now m .delay due
  have sound (keys : Key → Bool) (now : Instant) (m : Machine) (due : Instant) :
      m.perform keys now .sound due = m.ticked .sound due := perform_timer keys now m .sound due
  refine ⟨fun apart => ?_, fun apart => ?_, ?_⟩
  · rw [delay, delay]
    refine perform_ticked keys now first second ?_
    rintro instruction carries (⟨-, -, x, rfl⟩ | ⟨-, x, rfl, -⟩)
    · exact (apart x).1 carries
    · exact (apart x).2 carries
  · rw [sound, sound]
    refine perform_ticked keys now first second ?_
    rintro instruction carries (⟨other, -, -⟩ | ⟨-, x, rfl, -⟩)
    · contradiction
    · exact apart x carries
  · rw [delay, delay, sound, sound]
    exact withTimer_comm ..

/-- About to wait for a key with both timers running, the delay timer at its last tick. -/
def expectant : Machine :=
  { new {} (Vector.replicate 8 0) with
    delay := ⟨1⟩
    sound := ⟨2⟩
    cpu := { memory := Memory.patch ⟨Vector.replicate 4096 0⟩ 0x200 [0xF1, 0x0A] } }

theorem tasks_commute_expectant :
    let keys : Key → Bool := fun _ => false
    expectant.carriesOut? keys 7 = some (.awaitKey 1) ∧
      (expectant.perform keys 7 .cycle 5).perform keys 7 .delay 5 =
        (expectant.perform keys 7 .delay 5).perform keys 7 .cycle 5 ∧
      (expectant.perform keys 7 .cycle 5).perform keys 7 .sound 5 =
        (expectant.perform keys 7 .sound 5).perform keys 7 .cycle 5 := by
  intro keys
  have waits : expectant.carriesOut? keys 7 = some (.awaitKey 1) := by decide +kernel
  obtain ⟨delay, sound, -⟩ := tasks_commute keys keys 7 7 expectant 5 5
  exact ⟨waits, delay (by simp [waits]), sound (by simp [waits])⟩

end Machine
end ChipEight
