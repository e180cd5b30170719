import ChipEight.CommandLine
import ChipEight.Proofs.Deadlines

/-! How fast the clock may be. Up to one cycle a nanosecond, a cycle is due after the one before it,
so a timer that is armed ticks after no more cycles than there are nanoseconds until then. A clock
rate beyond that comes to a period of zero. A cycle is then due at the same instant as the one before
it, and, as cycles go first, no timer ticks any more. -/
namespace ChipEight

theorem Arguments.clockPeriod_pos_iff (arguments : Arguments) :
    0 < arguments.settings.clockPeriod ↔ arguments.clockHz.toNat ≤ 1000000000 := by
  rw [settings, Nat.div_pos_iff]
  omega

namespace Machine

/-! ## What every operation keeps -/

theorem left_step_timed (keys : Key → Bool) (now : Instant) {m : Machine} (timed : m.Timed) :
    (left (step keys now m)).Timed := by
  rw [step_eq]
  cases m.cpu.awaiting with
  | some x => exact timed
  | none =>
    cases m.cpu.current with
    | error fault => exact timed
    | ok instruction =>
      have carried := after_timed keys now instruction timed
      exact ⟨carried.delay, carried.sound⟩

theorem settings_left_step (keys : Key → Bool) (now : Instant) (m : Machine) :
    (left (step keys now m)).settings = m.settings := by
  rw [step_eq]
  cases m.cpu.awaiting with
  | some x => rfl
  | none =>
    cases m.cpu.current with
    | error fault => rfl
    | ok instruction => exact settings_after ..

theorem start_timed (now : Instant) {m : Machine} (timed : m.Timed) : (m.start now).Timed :=
  ⟨by simpa [start] using timed.delay, by simpa [start] using timed.sound⟩

/-- Of one set of settings, with each timer armed exactly while it has not run out. -/
structure Kept (settings : Settings) (m : Machine) : Prop where
  settings : m.settings = settings
  timed : m.Timed

theorem Kept.load {settings : Settings} {m : Machine} (kept : m.Kept settings)
    (program : List UInt8) : (left (load program m)).Kept settings := by
  rw [left_load]
  split
  · exact ⟨kept.settings, kept.timed.delay, kept.timed.sound⟩
  · exact kept

theorem Kept.operate {settings : Settings} {m : Machine} (kept : m.Kept settings)
    (occasion : Occasion) : (m.operate occasion).Kept settings := by
  obtain ⟨keys, now, operation⟩ := occasion
  cases operation with
  | load program => exact kept.load program
  | loadFrom reads =>
    simp only [Machine.operate, left_loadFrom]
    cases reads.gather with
    | ok pieces => exact kept.load pieces.flatten
    | error cause => exact kept
  | start => exact ⟨kept.settings, start_timed now kept.timed⟩
  | step => exact ⟨(settings_left_step ..).trans kept.settings, left_step_timed keys now kept.timed⟩
  | giveKey key =>
    simp only [Machine.operate, giveKey]
    split
    · exact ⟨kept.settings, kept.timed.delay, kept.timed.sound⟩
    · exact kept
  | perform task due =>
    exact ⟨(settings_perform ..).trans kept.settings, perform_timed keys now task due kept.timed⟩
  | receive signal =>
    exact ⟨(settings_receive ..).trans kept.settings, receive_timed now signal kept.timed⟩

theorem run_kept (settings : Settings) (entropy : StreamKey) (occasions : List Occasion) :
    (run occasions (new settings entropy)).Kept settings :=
  run_invariant (fun _ occasion kept => kept.operate occasion) occasions _
    ⟨rfl, by simp [Countdown.Chained, new, Agenda.deadline], by simp [Countdown.Chained, new, Agenda.deadline]⟩

/-! ## The cycles before a tick -/

/-- The tasks that are carried out if again and again the next one is, with these keys held and at
these times. -/
def firedBy : List ((Key → Bool) × Instant) → Machine → List Task
  | [], _ => []
  | (keys, now) :: rest, m =>
    (m.agenda.next?.map Prod.fst).toList ++ firedBy rest (m.handle (.fire keys now))

theorem firedBy_of_idle {m : Machine} (idle : m.agenda.next? = none)
    (rounds : List ((Key → Bool) × Instant)) : firedBy rounds m = [] := by
  induction rounds with
  | nil => rfl
  | cons round rest ih =>
    have still : m.handle (.fire round.1 round.2) = m := by simp only [handle, idle]
    rw [firedBy, still, ih, idle]
    rfl

theorem firedBy_of_next? {m : Machine} {task : Task} {due : Instant}
    (next : m.agenda.next? = some (task, due)) (keys : Key → Bool) (now : Instant)
    (rest : List ((Key → Bool) × Instant)) :
    firedBy ((keys, now) :: rest) m = task :: firedBy rest (m.perform keys now task due) := by
  simp only [firedBy, handle, next]
  rfl

/-- After a cycle nothing is armed any more, or each timer that was armed is armed as before, and the
next cycle for one clock period after this one, if at all. -/
theorem perform_cycle_timed (keys : Key → Bool) (now due : Instant) {m : Machine} (timed : m.Timed)
    {timer : Timer} {limit : Instant} (armed : m.agenda.deadline timer.task = some limit) :
    (m.perform keys now .cycle due).agenda.next? = none ∨
      (m.perform keys now .cycle due).agenda.deadline timer.task = some limit ∧
      ∀ next, (m.perform keys now .cycle due).agenda.deadline .cycle = some next →
        next = due + m.settings.clockPeriod := by
  cases awaited : m.cpu.awaiting with
  | some x =>
    rw [perform_cycle_awaiting awaited]
    exact .inr ⟨by simpa [timer.task_ne_cycle] using armed, by simp⟩
  | none =>
    cases current : m.cpu.current with
    | error fault =>
      rw [perform_cycle_error awaited current, Agenda.next?_eq_none_iff]
      exact .inl fun task => deadline_quiesce ..
    | ok instruction =>
      -- A timer that is armed has not run out, so no instruction sets it.
      have busy : (m.timer timer).value ≠ 0 := by
        cases timer with
        | delay => exact timed.delay.mp (Option.isSome_of_eq_some armed)
        | sound => exact timed.sound.mp (Option.isSome_of_eq_some armed)
      have unset : ¬ m.Starts timer instruction := by
        rintro ⟨x, -, idle, -⟩
        exact busy idle
      refine .inr ⟨?_, ?_⟩
      · rw [(timer_perform_cycle keys now due awaited current unset).2, armed]
      · intro next again
        rw [perform_cycle_ok awaited current, cycle_goOn] at again
        split at again
        · rw [← Option.some.inj again]
          exact congrArg (due + ·.clockPeriod) (settings_after ..)
        · have spent := (after_cycle keys now { m with agenda := m.agenda.cancel .cycle }
            instruction).symm.trans again
          simp at spent

/-- How many cycles a clock that ticks can fit in before something that is due at `limit`. -/
def cyclesUntil (m : Machine) (limit : Instant) : Nat :=
  match m.agenda.deadline .cycle with
  | some due => limit + 1 - due
  | none => 0

theorem count_firedBy_le {m : Machine} (timed : m.Timed) (ticks : 0 < m.settings.clockPeriod)
    {timer : Timer} {limit : Instant} (armed : m.agenda.deadline timer.task = some limit)
    (rounds : List ((Key → Bool) × Instant)) :
    ((firedBy rounds m).takeWhile (· ≠ timer.task)).count .cycle ≤ m.cyclesUntil limit := by
  induction rounds generalizing m with
  | nil => simp [firedBy]
  | cons round rest ih =>
    obtain ⟨keys, now⟩ := round
    obtain ⟨⟨task, due⟩, next⟩ : ∃ first, m.agenda.next? = some first := by
      refine Option.ne_none_iff_exists'.mp ?_
      intro idle
      simp [Agenda.next?_eq_none_iff.mp idle] at armed
    rw [firedBy_of_next? next]
    by_cases own : task = timer.task
    · simp [own]
    have ticks' : 0 < (m.perform keys now task due).settings.clockPeriod := by
      rw [settings_perform]
      exact ticks
    have timed' := perform_timed keys now task due timed
    rw [List.takeWhile_cons_of_pos (by simp [own])]
    by_cases cycled : task = .cycle
    -- A cycle moves its deadline on, and so uses up at least one of the instants counted.
    · subst cycled
      have reached := Nat.sub_pos_of_lt (Nat.lt_succ_of_le (Agenda.le_of_next? next armed))
      simp only [List.count_cons_self, cyclesUntil, Agenda.deadline_of_next? next]
      rcases perform_cycle_timed keys now due timed armed with idle | ⟨kept, later⟩
      · simp only [firedBy_of_idle idle, List.takeWhile_nil, List.count_nil]
        omega
      · have few := ih timed' ticks' kept
        rw [cyclesUntil] at few
        split at few
        next again rearmed =>
          obtain rfl := later again rearmed
          omega
        next => omega
    · obtain ⟨-, kept⟩ := m.timer_perform_other keys now cycled own due
      have few := ih timed' ticks' (kept.trans armed)
      rw [cyclesUntil, m.cycle_perform_timer keys now cycled] at few
      rw [List.count_cons_of_ne cycled]
      exact few

/-- The next cycle comes strictly later than the last one; so a timer ticks after no more cycles than
there are instants from the cycle that is armed to the tick. -/
structure KeepsPace (m : Machine) : Prop where
  later (keys : Key → Bool) (now due : Instant) (instruction : Instruction) :
    m.carriesOut? keys now = some instruction →
    (m.perform keys now .cycle due).cpu.awaiting = none →
    ∃ next, (m.perform keys now .cycle due).agenda.deadline .cycle = some next ∧ due < next
  bounded (timer : Timer) (due limit : Instant) :
    m.agenda.deadline .cycle = some due → m.agenda.deadline timer.task = some limit → due ≤ limit →
    ∀ rounds, ((firedBy rounds m).takeWhile (· ≠ timer.task)).count .cycle ≤ limit - due + 1

/-- The clock starves no timer, whatever has been done to a machine that is set up from a command
line, as long as the clock rate is at most one cycle a nanosecond. -/
theorem run_keepsPace : ∀ (args : List String) (arguments : Arguments),
    CommandLine.parse args = .ok arguments → arguments.clockHz.toNat ≤ 1000000000 →
    ∀ (entropy : StreamKey) (occasions : List Occasion),
      (run occasions (new arguments.settings entropy)).KeepsPace := by
  intro args arguments _ slow entropy occasions
  obtain ⟨settings, timed⟩ := run_kept arguments.settings entropy occasions
  have ticks : 0 < (run occasions (new arguments.settings entropy)).settings.clockPeriod := by
    rw [settings]
    exact arguments.clockPeriod_pos_iff.mpr slow
  constructor
  · intro keys now due instruction carries free
    obtain ⟨unasked, current⟩ := carriesOut?_eq_some_iff.mp carries
    refine ⟨due + (run occasions (new arguments.settings entropy)).settings.clockPeriod, ?_,
      Nat.lt_add_of_pos_right ticks⟩
    rw [perform_cycle_ok unasked current] at free ⊢
    rw [cpu_goOn] at free
    rw [cycle_goOn, if_pos free]
    exact congrArg (fun settings : Settings => some (due + settings.clockPeriod)) (settings_after ..)
  · intro timer due limit cycle armed ahead rounds
    have few := count_firedBy_le timed ticks armed rounds
    simp only [cyclesUntil, cycle] at few
    omega

/-- Has set the delay timer to one, and runs in a circle. -/
def circling (arguments : Arguments) : Machine :=
  let keys := fun _ => false
  run
    [⟨keys, 0, .load [0x60, 0x01, 0xF0, 0x15, 0x12, 0x04]⟩, ⟨keys, 0, .start⟩,
      ⟨keys, 0, .perform .cycle 0⟩, ⟨keys, 0, .perform .cycle arguments.settings.clockPeriod⟩]
    (new arguments.settings (Vector.replicate 8 0))

/-- One cycle a nanosecond. -/
def fastest : Arguments := { rom := "rom", clockHz := 1000000000 }

/-- Two cycles a nanosecond, so that the period comes to zero. -/
def tooFast : Arguments := { rom := "rom", clockHz := 2000000000 }

theorem run_keepsPace_fastest :
    CommandLine.parse ["rom", "--clock-hz", "1000000000"] = .ok fastest ∧
      ∀ rounds, ((firedBy rounds (circling fastest)).takeWhile (· ≠ .delay)).count .cycle ≤
        16666665 := by
  have parsed : CommandLine.parse ["rom", "--clock-hz", "1000000000"] = .ok fastest := by
    decide +kernel
  have agenda : (circling fastest).agenda = { cycle := some 2, delay := some 16666666 } := by
    decide +kernel
  have paces : (circling fastest).KeepsPace := by
    rw [circling]
    exact run_keepsPace _ fastest parsed (by decide) _ _
  -- From here on it does not matter which machine this is.
  generalize circling fastest = m at agenda paces ⊢
  refine ⟨parsed, ?_⟩
  intro rounds
  exact paces.bounded .delay 2 16666666 (congrArg Agenda.cycle agenda)
    (congrArg Agenda.delay agenda) (by decide) rounds

/-- A jump to itself changes nothing, not even the deadline if the clock stands still. -/
theorem perform_circle {m : Machine} {addr : Address} {due : Instant} (keys : Key → Bool)
    (now : Instant) (free : m.cpu.awaiting = none) (current : m.cpu.current = .ok (.jump addr))
    (there : UInt16.ofNat addr.val = m.cpu.pc) (stands : m.settings.clockPeriod = 0)
    (armed : m.agenda.cycle = some due) : m.perform keys now .cycle due = m := by
  have again : (m.agenda.cancel .cycle).schedule .cycle due = m.agenda := by
    simp only [Agenda.schedule, Agenda.cancel, Agenda.put, ← armed]
  have back : ({ m with agenda := m.agenda.cancel .cycle }.after keys now (.jump addr)).moveOn =
      { m with agenda := m.agenda.cancel .cycle } := by
    simp [after, moveOn, Cpu.advance, there]
  rw [perform_cycle_ok free current, back, goOn]
  simp only [free, stands, Nat.add_zero, again]

theorem not_keepsPace {m : Machine} {keys : Key → Bool} {now due : Instant}
    {instruction : Instruction} (free : m.cpu.awaiting = none)
    (current : m.cpu.current = .ok instruction) (armed : m.agenda.cycle = some due)
    (same : m.perform keys now .cycle due = m) : ¬ m.KeepsPace := by
  intro paces
  obtain ⟨next, rearmed, less⟩ := paces.later keys now due instruction
    (carriesOut?_eq_some_iff.mpr ⟨free, current⟩) (by rw [same]; exact free)
  rw [same] at rearmed
  obtain rfl := Option.some.inj (armed.symm.trans rearmed)
  exact Nat.lt_irrefl _ less

/-- At a rate beyond one cycle a nanosecond the delay timer is armed, and only cycles are carried
out, all at the same instant. -/
theorem circling_starves :
    CommandLine.parse ["rom", "--clock-hz", "2000000000"] = .ok tooFast ∧
      (circling tooFast).agenda = { cycle := some 0, delay := some 16666666 } ∧
      (∀ n, firedBy (List.replicate n (fun _ => false, 0)) (circling tooFast) =
        List.replicate n .cycle) ∧
      ¬ (circling tooFast).KeepsPace := by
  obtain ⟨agenda, free, current, there, stands⟩ :
      (circling tooFast).agenda = { cycle := some 0, delay := some 16666666 } ∧
      (circling tooFast).cpu.awaiting = none ∧
      (circling tooFast).cpu.current = .ok (.jump 0x204) ∧
      UInt16.ofNat (0x204 : Address).val = (circling tooFast).cpu.pc ∧
      (circling tooFast).settings.clockPeriod = 0 := by
    decide +kernel
  generalize circling tooFast = m at agenda free current there stands ⊢
  have armed : m.agenda.cycle = some 0 := congrArg Agenda.cycle agenda
  have same := perform_circle (fun _ => false) 0 free current there stands armed
  have next : m.agenda.next? = some (.cycle, 0) := by
    rw [agenda]
    rfl
  refine ⟨by decide +kernel, agenda, ?_, not_keepsPace free current armed same⟩
  intro n
  induction n with
  | zero => rfl
  | succ n ih => rw [List.replicate_succ, firedBy_of_next? next, same, ih, List.replicate_succ]

end Machine
end ChipEight
