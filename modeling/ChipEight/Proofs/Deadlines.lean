import ChipEight.Proofs.KeyWait

/-! What becomes of timers and deadlines. A task keeps its deadline until it is carried out; it may
then be armed again, one period after it was due. Apart from that, the key that was waited for arms
the cycle, and an instruction that sets an idle timer arms the tick of that timer, both one period
after the time at which this is done. What ends the machine disarms everything. -/
namespace ChipEight

inductive Timer
  | delay
  | sound
deriving DecidableEq

namespace Timer

def task : Timer → Task
  | delay => .delay
  | sound => .sound

def setting : Timer → Register → Instruction
  | delay => .setDelay
  | sound => .setSound

theorem task_ne_cycle (timer : Timer) : timer.task ≠ .cycle := by
  cases timer <;> simp [task]

end Timer

namespace Machine

def timer (m : Machine) : Timer → Countdown
  | .delay => m.delay
  | .sound => m.sound

/-- The instruction finds the timer idle and sets it going. -/
def Starts (m : Machine) (timer : Timer) (instruction : Instruction) : Prop :=
  ∃ x, instruction = timer.setting x ∧ (m.timer timer).value = 0 ∧ m.cpu.register x ≠ 0

theorem settings_after (keys : Key → Bool) (now : Instant) (m : Machine)
    (instruction : Instruction) : (m.after keys now instruction).settings = m.settings := by
  cases instruction <;> rfl

theorem settings_goOn (m : Machine) (due : Instant) : (m.goOn due).settings = m.settings := by
  unfold goOn
  split <;> rfl

theorem settings_perform (keys : Key → Bool) (now : Instant) (m : Machine) (task : Task)
    (due : Instant) : (m.perform keys now task due).settings = m.settings := by
  cases task with
  | delay | sound => rfl
  | cycle =>
    simp only [perform, cycle_eq]
    split
    · rfl
    · split
      · exact (settings_goOn ..).trans (settings_after ..)
      · rfl

theorem settings_stop (m : Machine) : m.stop.settings = m.settings := by
  unfold stop
  split <;> rfl

theorem settings_receive (now : Instant) (m : Machine) (signal : Signal) :
    (m.receive now signal).settings = m.settings := by
  cases signal with
  | stop => exact m.settings_stop
  | keyDown key =>
    unfold receive giveKey
    cases m.cpu.awaiting <;> rfl

/-! ## Timers -/

theorem set_ignored {m : Machine} {timer : Timer} {x : Register}
    (unset : ¬ m.Starts timer (timer.setting x)) :
    (m.timer timer).set (m.cpu.register x) = (m.timer timer, false) := by
  rw [Countdown.set_eq, if_neg]
  rintro ⟨idle, positive⟩
  exact unset ⟨x, rfl, idle, positive⟩

theorem timer_after (keys : Key → Bool) (now : Instant) {m : Machine} {timer : Timer}
    {instruction : Instruction} (unset : ¬ m.Starts timer instruction) :
    (m.after keys now instruction).timer timer = m.timer timer ∧
      (m.after keys now instruction).agenda.deadline timer.task =
        m.agenda.deadline timer.task := by
  cases instruction with
  | setDelay x =>
    cases timer with
    | delay => simp [after, show m.delay.set _ = _ from set_ignored unset, timer]
    | sound => simp [after, Agenda.deadline_ite_schedule, timer, Timer.task]
  | setSound x =>
    cases timer with
    | delay => simp [after, Agenda.deadline_ite_schedule, timer, Timer.task]
    | sound => simp [after, show m.sound.set _ = _ from set_ignored unset, timer]
  | _ => cases timer <;> exact ⟨rfl, rfl⟩

theorem timer_after_setting (keys : Key → Bool) (now : Instant) {m : Machine} {timer : Timer}
    {x : Register} (idle : (m.timer timer).value = 0) (positive : m.cpu.register x ≠ 0) :
    (m.after keys now (timer.setting x)).timer timer = ⟨m.cpu.register x⟩ ∧
      (m.after keys now (timer.setting x)).agenda.deadline timer.task =
        some (now + m.settings.timerPeriod) := by
  have set : (m.timer timer).set (m.cpu.register x) = (⟨m.cpu.register x⟩, true) := by
    rw [Countdown.set_eq, if_pos ⟨idle, positive⟩]
  cases timer with
  | delay => simp [after, Timer.setting, Timer.task, timer, show m.delay.set _ = _ from set]
  | sound => simp [after, Timer.setting, Timer.task, timer, show m.sound.set _ = _ from set]

theorem timer_goOn (m : Machine) (due : Instant) (timer : Timer) :
    (m.goOn due).timer timer = m.timer timer ∧
      (m.goOn due).agenda.deadline timer.task = m.agenda.deadline timer.task := by
  unfold goOn
  split
  · cases timer <;> exact ⟨rfl, rfl⟩
  · refine ⟨by cases timer <;> rfl, ?_⟩
    rw [Agenda.deadline_schedule, if_neg timer.task_ne_cycle]

theorem timer_quiesce (m : Machine) (status : Status) (timer : Timer) :
    ({ m.quiesce with status } : Machine).timer timer = ⟨0⟩ := by
  cases timer <;> rfl

theorem deadline_quiesce (m : Machine) (status : Status) (task : Task) :
    ({ m.quiesce with status } : Machine).agenda.deadline task = none := by
  simp [quiesce]

theorem stop_eq_quiesce (m : Machine) : ∃ status, m.stop = { m.quiesce with status } := by
  unfold stop
  split
  · exact ⟨m.status, rfl⟩
  · exact ⟨.stopped, rfl⟩

theorem timer_perform (keys : Key → Bool) (now : Instant) (m : Machine) (timer : Timer)
    (due : Instant) :
    (m.perform keys now timer.task due).timer timer = (m.timer timer).tick.1 ∧
      (m.perform keys now timer.task due).agenda.deadline timer.task =
        if (m.timer timer).tick.2 then some (due + m.settings.timerPeriod) else none := by
  cases timer with
  | delay => exact ⟨rfl, by simp [perform, Timer.task, tickDelay, Agenda.deadline_ite_schedule]; rfl⟩
  | sound => exact ⟨rfl, by simp [perform, Timer.task, tickSound, Agenda.deadline_ite_schedule]; rfl⟩

theorem timer_perform_other (keys : Key → Bool) (now : Instant) (m : Machine) {timer : Timer}
    {task : Task} (timed : task ≠ .cycle) (other : task ≠ timer.task) (due : Instant) :
    (m.perform keys now task due).timer timer = m.timer timer ∧
      (m.perform keys now task due).agenda.deadline timer.task =
        m.agenda.deadline timer.task := by
  cases task with
  | cycle => contradiction
  | delay =>
    cases timer with
    | delay => exact absurd rfl other
    | sound => simp [perform, Timer.task, tickDelay, timer, Agenda.deadline_ite_schedule]
  | sound =>
    cases timer with
    | delay => simp [perform, Timer.task, tickSound, timer, Agenda.deadline_ite_schedule]
    | sound => exact absurd rfl other

theorem receive_keyDown_timer (now : Instant) (m : Machine) (key : Key) (timer : Timer) :
    (m.receive now (.keyDown key)).timer timer = m.timer timer ∧
      (m.receive now (.keyDown key)).agenda.deadline timer.task =
        m.agenda.deadline timer.task := by
  unfold receive giveKey
  cases m.cpu.awaiting with
  | none => exact ⟨rfl, rfl⟩
  | some x =>
    refine ⟨by cases timer <;> rfl, ?_⟩
    rw [Agenda.deadline_schedule, if_neg timer.task_ne_cycle]

/-- A cycle leaves a timer alone that its instruction does not start. -/
theorem timer_perform_cycle (keys : Key → Bool) (now due : Instant) {m : Machine} {timer : Timer}
    {instruction : Instruction} (free : m.cpu.awaiting = none)
    (current : m.cpu.current = .ok instruction) (unset : ¬ m.Starts timer instruction) :
    (m.perform keys now .cycle due).timer timer = m.timer timer ∧
      (m.perform keys now .cycle due).agenda.deadline timer.task =
        m.agenda.deadline timer.task := by
  have kept : ¬ ({ m with agenda := m.agenda.cancel .cycle } : Machine).Starts timer instruction := by
    cases timer <;> exact unset
  obtain ⟨count, deadline⟩ := timer_after keys now kept
  obtain ⟨again, armed⟩ := timer_goOn
    ({ m with agenda := m.agenda.cancel .cycle }.after keys now instruction).moveOn due timer
  rw [perform_cycle_ok free current]
  refine ⟨again.trans ?_, armed.trans (deadline.trans ?_)⟩
  · cases timer <;> exact count
  · simp [timer.task_ne_cycle]

theorem timer_perform_setting (keys : Key → Bool) (now due : Instant) {m : Machine} {timer : Timer}
    {x : Register} (free : m.cpu.awaiting = none) (current : m.cpu.current = .ok (timer.setting x))
    (idle : (m.timer timer).value = 0) (positive : m.cpu.register x ≠ 0) :
    (m.perform keys now .cycle due).timer timer = ⟨m.cpu.register x⟩ ∧
      (m.perform keys now .cycle due).agenda.deadline timer.task =
        some (now + m.settings.timerPeriod) := by
  have idle' : (({ m with agenda := m.agenda.cancel .cycle } : Machine).timer timer).value = 0 := by
    cases timer <;> exact idle
  obtain ⟨count, deadline⟩ := timer_after_setting keys now idle' positive
  obtain ⟨again, armed⟩ := timer_goOn
    ({ m with agenda := m.agenda.cancel .cycle }.after keys now (timer.setting x)).moveOn due timer
  rw [perform_cycle_ok free current]
  refine ⟨again.trans ?_, armed.trans deadline⟩
  cases timer <;> exact count

/-! ## The cycle -/

theorem cycle_goOn (m : Machine) (due : Instant) :
    (m.goOn due).agenda.deadline .cycle =
      if m.cpu.awaiting = none then some (due + m.settings.clockPeriod)
      else m.agenda.deadline .cycle := by
  unfold goOn
  cases m.cpu.awaiting <;> simp

theorem cycle_perform_timer (keys : Key → Bool) (now : Instant) (m : Machine) {task : Task}
    (timed : task ≠ .cycle) (due : Instant) :
    (m.perform keys now task due).agenda.deadline .cycle = m.agenda.deadline .cycle :=
  (m.perform_idled keys now timed due).2

end Machine

namespace Moment

theorem next_of_fired {moment : Moment} {keys : Key → Bool} {now due : Instant} {task : Task}
    (incident : moment.incident = .move keys now) (fired : moment.fired? = some (task, due)) :
    moment.next.machine = moment.loop.machine.perform keys now task due := by
  cases moment.bears with
  | nothing _ _ idle | signal _ _ _ idle | hangUp _ _ idle => simp [idle] at fired
  | task incident' _ _ _ fired' performed =>
    obtain ⟨rfl, rfl⟩ : _ = keys ∧ _ = now := by simpa [incident'] using incident
    obtain ⟨rfl, rfl⟩ : _ = task ∧ _ = due := by simpa [fired'] using fired
    exact performed

theorem next_of_executes {moment : Moment} {instruction : Instruction}
    (executes : moment.executes? = some instruction) :
    ∃ keys now due, moment.incident = .move keys now ∧ moment.fired? = some (.cycle, due) ∧
      moment.loop.machine.cpu.awaiting = none ∧
      moment.loop.machine.cpu.current = .ok instruction ∧
      moment.next.machine =
        ({ moment.loop.machine with agenda := moment.loop.machine.agenda.cancel .cycle }.after
          keys now instruction).moveOn.goOn due := by
  obtain ⟨keys, now, due, incident, fired, free, current⟩ := executes?_eq_some_iff.mp executes
  refine ⟨keys, now, due, incident, fired, free, current, ?_⟩
  rw [next_of_fired incident fired, Machine.perform_cycle_ok free current]

theorem executes?_eq_none_of_awaiting {moment : Moment} {x : Register}
    (awaited : moment.loop.machine.cpu.awaiting = some x) : moment.executes? = none := by
  refine Option.eq_none_iff_forall_not_mem.mpr ?_
  intro instruction executes
  obtain ⟨_, _, _, _, _, free, _⟩ := executes?_eq_some_iff.mp executes
  simp [awaited] at free

theorem executes?_eq_none_of_error {moment : Moment} {fault : Fault}
    (current : moment.loop.machine.cpu.current = .error fault) : moment.executes? = none := by
  refine Option.eq_none_iff_forall_not_mem.mpr ?_
  intro instruction executes
  obtain ⟨_, _, _, _, _, _, carried⟩ := executes?_eq_some_iff.mp executes
  simp [current] at carried

theorem executes?_eq_none_of_timer {moment : Moment} {task : Task} {due : Instant}
    (fired : moment.fired? = some (task, due)) (timed : task ≠ .cycle) :
    moment.executes? = none := by
  refine Option.eq_none_iff_forall_not_mem.mpr ?_
  intro instruction executes
  obtain ⟨_, _, _, _, cycle, _⟩ := executes?_eq_some_iff.mp executes
  simp [fired, timed] at cycle

/-- All the courses that a moment can take, as far as the machine is concerned. -/
inductive Course (moment : Moment) : Prop
  | nothing (unhandled : moment.handled? = none) (unfired : moment.fired? = none)
    (same : moment.next.machine = moment.loop.machine)
  | hears {key : Key} {keys : Key → Bool} {now : Instant}
    (incident : moment.incident = .move keys now)
    (handled : moment.handled? = some (.keyDown key)) (unfired : moment.fired? = none)
    (received : moment.next.machine = moment.loop.machine.receive now (.keyDown key))
  | stops (blocked : ¬ moment.Passes) (unpressed : ∀ key, moment.handled? ≠ some (.keyDown key))
    (unfired : moment.fired? = none) (stopped : moment.next.machine = moment.loop.machine.stop)
  | ticks {task : Task} {due : Instant} {keys : Key → Bool} {now : Instant} (timed : task ≠ .cycle)
    (unhandled : moment.handled? = none) (fired : moment.fired? = some (task, due))
    (performed : moment.next.machine = moment.loop.machine.perform keys now task due)
  | idles {x : Register} {due : Instant} (awaited : moment.loop.machine.cpu.awaiting = some x)
    (unhandled : moment.handled? = none) (fired : moment.fired? = some (.cycle, due))
    (waits : moment.next.machine = { moment.loop.machine with
      agenda := moment.loop.machine.agenda.cancel .cycle, status := .awaitingKey x })
  | halts {fault : Fault} {due : Instant} (blocked : ¬ moment.Passes)
    (free : moment.loop.machine.cpu.awaiting = none)
    (current : moment.loop.machine.cpu.current = .error fault)
    (unhandled : moment.handled? = none) (fired : moment.fired? = some (.cycle, due))
    (halted : moment.next.machine = moment.loop.machine.halt fault)
  | executes {instruction : Instruction} (executes : moment.executes? = some instruction)

theorem course (moment : Moment) : moment.Course := by
  cases moment.bears with
  | nothing unhandled _ unfired same => exact .nothing unhandled unfired same
  | hangUp unhandled heard unfired stopped =>
    exact .stops (not_passes_of_hangUp heard) (by simp [unhandled]) unfired stopped
  | @signal signal _ _ incident handled _ unfired received =>
    cases signal with
    | keyDown key => exact .hears incident handled unfired received
    | stop =>
      exact .stops (fun passes => passes.unstopped handled) (by simp [handled]) unfired received
  | @task task due keys now incident _ unhandled _ fired performed =>
    by_cases timed : task = .cycle
    · subst timed
      cases awaited : moment.loop.machine.cpu.awaiting with
      | some x =>
        exact .idles awaited unhandled fired
          (performed.trans (Machine.perform_cycle_awaiting awaited ..))
      | none =>
        cases current : moment.loop.machine.cpu.current with
        | ok instruction =>
          exact .executes
            (executes?_eq_some_iff.mpr ⟨keys, now, due, incident, fired, awaited, current⟩)
        | error fault =>
          have faulted : moment.fault? = some fault :=
            fault?_eq_some_iff.mpr ⟨keys, now, due, incident, fired, awaited, current⟩
          exact .halts (not_passes_of_fault faulted) awaited current unhandled fired
            (performed.trans (Machine.perform_cycle_error awaited current ..))
    · exact .ticks timed unhandled fired performed

/-- An instruction is carried out that sets the timer going. -/
def Sets (moment : Moment) (timer : Timer) : Prop :=
  ∃ instruction, moment.executes? = some instruction ∧
    moment.loop.machine.Starts timer instruction

theorem not_sets {moment : Moment} (idle : moment.executes? = none) (timer : Timer) :
    ¬ moment.Sets timer := by
  rintro ⟨instruction, executes, -⟩
  simp [idle] at executes

/-- What a moment can do to a timer and its deadline. -/
inductive TimerStep (moment : Moment) (timer : Timer) : Prop
  | keeps (unfired : ∀ due, moment.fired? ≠ some (timer.task, due))
    (unset : ¬ moment.Sets timer)
    (count : moment.next.machine.timer timer = moment.loop.machine.timer timer)
    (deadline : moment.next.machine.agenda.deadline timer.task =
      moment.loop.machine.agenda.deadline timer.task)
  | starts {x : Register} {keys : Key → Bool} {now : Instant}
    (incident : moment.incident = .move keys now)
    (executes : moment.executes? = some (timer.setting x))
    (idle : (moment.loop.machine.timer timer).value = 0)
    (positive : moment.loop.machine.cpu.register x ≠ 0)
    (count : moment.next.machine.timer timer = ⟨moment.loop.machine.cpu.register x⟩)
    (deadline : moment.next.machine.agenda.deadline timer.task =
      some (now + moment.loop.machine.settings.timerPeriod))
  | ticks {due : Instant} (fired : moment.fired? = some (timer.task, due))
    (count : moment.next.machine.timer timer = (moment.loop.machine.timer timer).tick.1)
    (deadline : moment.next.machine.agenda.deadline timer.task =
      if (moment.loop.machine.timer timer).tick.2 then
        some (due + moment.loop.machine.settings.timerPeriod)
      else none)
  | ends (blocked : ¬ moment.Passes)
    (count : (moment.next.machine.timer timer).value = 0)
    (deadline : moment.next.machine.agenda.deadline timer.task = none)

theorem timer_of_ignored {moment : Moment} {timer : Timer} {instruction : Instruction}
    (executes : moment.executes? = some instruction)
    (ignored : ¬ moment.loop.machine.Starts timer instruction) :
    moment.next.machine.timer timer = moment.loop.machine.timer timer ∧
      moment.next.machine.agenda.deadline timer.task =
        moment.loop.machine.agenda.deadline timer.task := by
  obtain ⟨keys, now, due, incident, fired, free, current, -⟩ := next_of_executes executes
  rw [next_of_fired incident fired]
  exact Machine.timer_perform_cycle keys now due free current ignored

theorem timerStep (moment : Moment) (timer : Timer) : moment.TimerStep timer := by
  have ended {status : Status} (blocked : ¬ moment.Passes)
      (same : moment.next.machine =
        { moment.loop.machine.quiesce with status }) : moment.TimerStep timer := by
    refine .ends blocked ?_ ?_
    · rw [same, Machine.timer_quiesce]
    · rw [same, Machine.deadline_quiesce]
  cases moment.course with
  | nothing _ unfired same =>
    exact .keeps (by simp [unfired]) (not_sets (executes?_eq_none unfired) timer)
      (by rw [same]) (by rw [same])
  | @hears key _ now _ _ unfired received =>
    obtain ⟨count, deadline⟩ := moment.loop.machine.receive_keyDown_timer now key timer
    rw [← received] at count deadline
    exact .keeps (by simp [unfired]) (not_sets (executes?_eq_none unfired) timer) count deadline
  | stops blocked _ _ stopped =>
    obtain ⟨status, quiesced⟩ := moment.loop.machine.stop_eq_quiesce
    exact ended blocked (stopped.trans quiesced)
  | halts blocked _ _ _ _ halted => exact ended blocked halted
  | @ticks task due keys now timed _ fired performed =>
    by_cases own : task = timer.task
    · subst own
      obtain ⟨count, deadline⟩ := moment.loop.machine.timer_perform keys now timer due
      rw [← performed] at count deadline
      exact .ticks fired count deadline
    · obtain ⟨count, deadline⟩ := moment.loop.machine.timer_perform_other keys now timed own due
      rw [← performed] at count deadline
      exact .keeps (by simp [fired, own]) (not_sets (executes?_eq_none_of_timer fired timed) timer)
        count deadline
  | idles awaited _ fired waits =>
    refine .keeps (by simp [fired, timer.task_ne_cycle.symm])
      (not_sets (executes?_eq_none_of_awaiting awaited) timer) ?_ ?_
    · rw [waits]
      cases timer <;> rfl
    · rw [waits, Agenda.deadline_cancel, if_neg timer.task_ne_cycle]
  | @executes instruction executes =>
    obtain ⟨keys, now, due, incident, fired, free, current, -⟩ := next_of_executes executes
    by_cases starts : moment.loop.machine.Starts timer instruction
    · obtain ⟨x, rfl, zero, positive⟩ := starts
      obtain ⟨count, deadline⟩ :=
        Machine.timer_perform_setting keys now due free current zero positive
      rw [← next_of_fired incident fired] at count deadline
      exact .starts incident executes zero positive count deadline
    · obtain ⟨count, deadline⟩ := timer_of_ignored executes starts
      refine .keeps (by simp [fired, timer.task_ne_cycle.symm]) ?_ count deadline
      rintro ⟨other, same, sets⟩
      obtain rfl := Option.some.inj (executes.symm.trans same)
      exact starts sets

/-- What a moment can do to the deadline of the cycle. -/
inductive CycleStep (moment : Moment) : Prop
  | keeps (unfired : ∀ due, moment.fired? ≠ some (.cycle, due))
    (deadline : moment.next.machine.agenda.deadline .cycle =
      moment.loop.machine.agenda.deadline .cycle)
  | resumes {keys : Key → Bool} {now : Instant} (incident : moment.incident = .move keys now)
    (awaited : moment.loop.machine.cpu.awaiting ≠ none)
    (unfired : ∀ due, moment.fired? ≠ some (.cycle, due))
    (deadline : moment.next.machine.agenda.deadline .cycle =
      some (now + moment.loop.machine.settings.clockPeriod))
  | repeats {due : Instant} (fired : moment.fired? = some (.cycle, due))
    (deadline : moment.next.machine.agenda.deadline .cycle =
      some (due + moment.loop.machine.settings.clockPeriod))
  | waits {due : Instant} (fired : moment.fired? = some (.cycle, due))
    (awaits : moment.next.machine.cpu.awaiting ≠ none)
    (deadline : moment.next.machine.agenda.deadline .cycle = none)
  | ends (blocked : ¬ moment.Passes)
    (deadline : moment.next.machine.agenda.deadline .cycle = none)

theorem cycleStep (moment : Moment) : moment.CycleStep := by
  cases moment.course with
  | nothing _ unfired same => exact .keeps (by simp [unfired]) (by rw [same])
  | hears incident _ unfired received =>
    cases awaited : moment.loop.machine.cpu.awaiting with
    | none =>
      refine .keeps (by simp [unfired]) ?_
      simp only [received, Machine.receive, Machine.giveKey, awaited]
    | some x =>
      refine .resumes incident (by simp [awaited]) (by simp [unfired]) ?_
      simp only [received, Machine.receive, Machine.giveKey, awaited, Agenda.deadline_schedule,
        ↓reduceIte]
  | stops blocked _ _ stopped =>
    obtain ⟨status, quiesced⟩ := moment.loop.machine.stop_eq_quiesce
    refine .ends blocked ?_
    rw [stopped.trans quiesced, Machine.deadline_quiesce]
  | halts blocked _ _ _ _ halted =>
    refine .ends blocked ?_
    rw [halted]
    exact Machine.deadline_quiesce ..
  | ticks timed _ fired performed =>
    refine .keeps (by simp [fired, timed]) ?_
    rw [performed, Machine.cycle_perform_timer _ _ _ timed]
  | idles awaited _ fired waits => exact .waits fired (by simp [waits, awaited]) (by simp [waits])
  | @executes instruction executes =>
    obtain ⟨keys, now, due, -, fired, -, -, next⟩ := next_of_executes executes
    have deadline := congrArg (·.agenda.deadline .cycle) next
    simp only [Machine.cycle_goOn] at deadline
    split at deadline
    next =>
      refine .repeats fired (deadline.trans ?_)
      exact congrArg (fun settings : Settings => some (due + settings.clockPeriod))
        (Machine.settings_after ..)
    next waiting =>
      refine .waits fired ?_ (deadline.trans ?_)
      · rw [next, Machine.cpu_goOn]
        exact waiting
      · exact (Machine.after_cycle ..).trans (by simp)

theorem settings_next (moment : Moment) :
    moment.next.machine.settings = moment.loop.machine.settings := by
  cases moment.bears with
  | nothing _ _ _ same => rw [same]
  | signal _ _ _ _ received => rw [received, Machine.settings_receive]
  | hangUp _ _ _ stopped => rw [stopped, Machine.settings_stop]
  | task _ _ _ _ _ performed => rw [performed, Machine.settings_perform]

end Moment

theorem Loop.settings_follow (incidents : List Incident) (loop : Loop) :
    (Loop.follow incidents loop).machine.settings = loop.machine.settings := by
  induction incidents generalizing loop with
  | nil => rfl
  | cons incident rest ih => exact (ih _).trans (Moment.settings_next ⟨loop, incident⟩)

/-- How often a task is carried out in these moments. -/
def firings (task : Task) (moments : List Moment) : Nat := moments.countP (Moment.fires task)

theorem firings_cons (task : Task) (moment : Moment) (rest : List Moment) :
    firings task (moment :: rest) =
      (if moment.fires task then 1 else 0) + firings task rest := by
  rw [firings, List.countP_cons, Nat.add_comm]
  rfl

namespace Moment

theorem fires_eq_true {moment : Moment} {task : Task} {due : Instant}
    (fired : moment.fired? = some (task, due)) : moment.fires task = true := by
  simp [fires, fired]

theorem fires_eq_false {moment : Moment} {task : Task}
    (unfired : ∀ due, moment.fired? ≠ some (task, due)) : moment.fires task = false := by
  unfold fires
  cases fired : moment.fired? with
  | none => rfl
  | some firing =>
    obtain ⟨other, due⟩ := firing
    have different : other ≠ task := by
      rintro rfl
      exact unfired due fired
    simpa using different

theorem next?_of_fired {moment : Moment} {task : Task} {due : Instant}
    (prompt : moment.loop.Prompt) (fired : moment.fired? = some (task, due)) :
    moment.loop.machine.agenda.next? = some (task, due) := by
  cases moment.bears with
  | nothing _ _ idle | signal _ _ _ idle | hangUp _ _ idle => simp [idle] at fired
  | task _ phase _ _ fired' =>
    obtain ⟨rfl, rfl⟩ : _ = task ∧ _ = due := by simpa [fired'] using fired
    exact prompt _ _ (.inr phase)

end Moment
end ChipEight
