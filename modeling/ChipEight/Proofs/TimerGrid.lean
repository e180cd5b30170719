import ChipEight.Proofs.Deadlines

/-! A timer that runs. From the time at which it is set its ticks lie on a grid of one timer period,
as many as the value it is set to, however late they are carried out and whatever else is done. To
set it again has no effect before the last of them, and after that it stands at zero with no tick
armed. -/
namespace ChipEight

namespace Machine

/-- Set to `count` at the time `start`, the timer has ticked `n` times. -/
structure CountsDown (m : Machine) (timer : Timer) (count start n : Nat) : Prop where
  bound : n ≤ count
  value : (m.timer timer).value.toNat = count - n
  deadline : m.agenda.deadline timer.task =
    if n < count then some (start + (n + 1) * m.settings.timerPeriod) else none

theorem CountsDown.not_starts {m : Machine} {timer : Timer} {count start n : Nat}
    (counts : m.CountsDown timer count start n) (early : n < count) (instruction : Instruction) :
    ¬ m.Starts timer instruction := by
  rintro ⟨x, -, idle, -⟩
  have value := counts.value
  rw [idle] at value
  simp at value
  omega

theorem CountsDown.due {m : Machine} {timer : Timer} {count start n due : Nat}
    (counts : m.CountsDown timer count start n)
    (armed : m.agenda.deadline timer.task = some due) :
    n < count ∧ due = start + (n + 1) * m.settings.timerPeriod := by
  rw [counts.deadline] at armed
  split at armed
  next early => exact ⟨early, (Option.some.inj armed).symm⟩
  next => contradiction

end Machine

theorem Countdown.snd_tick (timer : Countdown) :
    timer.tick.2 = true ↔ 1 < timer.value.toNat := by
  have active : timer.tick.2 = (timer.tick.1.value != 0) := rfl
  rw [active, bne_iff_ne, ne_eq, ← UInt8.toNat_inj, toNat_tick]
  simp
  omega

namespace Moment

variable {moment : Moment} {timer : Timer} {count start n : Nat}

theorem countsDown_of_setting {x : Register} {keys : Key → Bool} {now : Instant}
    (incident : moment.incident = .move keys now)
    (executes : moment.executes? = some (timer.setting x))
    (idle : (moment.loop.machine.timer timer).value = 0)
    (positive : moment.loop.machine.cpu.register x ≠ 0) :
    moment.next.machine.CountsDown timer (moment.loop.machine.cpu.register x).toNat now 0 := by
  have nonzero : 0 < (moment.loop.machine.cpu.register x).toNat :=
    Nat.pos_of_ne_zero fun zero => positive (UInt8.toNat_inj.mp zero)
  obtain ⟨_, now', due, incident', fired, free, current, -⟩ := next_of_executes executes
  obtain ⟨rfl, rfl⟩ : keys = _ ∧ now = now' := by simpa [incident] using incident'
  obtain ⟨counts, deadline⟩ :=
    Machine.timer_perform_setting keys now due free current idle positive
  rw [← next_of_fired incident fired] at counts deadline
  refine ⟨Nat.zero_le _, by rw [counts, Nat.sub_zero], ?_⟩
  rw [deadline, if_pos nonzero, settings_next, Nat.zero_add, Nat.one_mul]

/-- The next tick of a timer is the next point of the grid. -/
theorem countsDown_fired (counts : moment.loop.machine.CountsDown timer count start n)
    (prompt : moment.loop.Prompt) {due : Instant} (fired : moment.fired? = some (timer.task, due)) :
    n < count ∧ due = start + (n + 1) * moment.loop.machine.settings.timerPeriod :=
  counts.due (Agenda.deadline_of_next? (next?_of_fired prompt fired))

/-- What does not end the machine and does not set the timer takes it at most one tick further. -/
theorem countsDown_next (counts : moment.loop.machine.CountsDown timer count start n)
    (prompt : moment.loop.Prompt) (passes : moment.Passes) (unset : ¬ moment.Sets timer) :
    moment.next.machine.CountsDown timer count start
      (n + if moment.fires timer.task then 1 else 0) := by
  cases moment.timerStep timer with
  | keeps unfired _ same deadline =>
    rw [fires_eq_false unfired]
    refine ⟨counts.bound, by rw [same]; exact counts.value, ?_⟩
    rw [deadline, settings_next]
    exact counts.deadline
  | starts _ executes idle positive =>
    exact absurd ⟨_, executes, _, rfl, idle, positive⟩ unset
  | @ticks due fired tick deadline =>
    obtain ⟨early, grid⟩ := countsDown_fired counts prompt fired
    have value := counts.value
    have again : (moment.loop.machine.timer timer).tick.2 = true ↔ n + 1 < count := by
      rw [Countdown.snd_tick]
      omega
    rw [fires_eq_true fired]
    refine ⟨early, ?_, ?_⟩
    · rw [tick, Countdown.toNat_tick, value, Nat.sub_sub]
      rfl
    · rw [deadline, settings_next, grid]
      simp only [again, ↓reduceIte, Nat.add_assoc, Nat.succ_mul]
  | ends blocked => exact absurd passes blocked

theorem passes_of_ticked {due : Instant} (fired : moment.fired? = some (timer.task, due)) :
    moment.Passes ∧ ¬ moment.Sets timer := by
  have other : ∀ due, moment.fired? ≠ some (.cycle, due) := by
    simp [fired, timer.task_ne_cycle]
  refine ⟨?_, ?_⟩
  · cases moment.bears with
    | nothing _ _ idle | signal _ _ _ idle | hangUp _ _ idle => simp [idle] at fired
    | task _ _ unhandled unheard => exact ⟨fault?_eq_none other, by simp [unhandled], unheard⟩
  · exact not_sets (executes?_eq_none_of_timer fired timer.task_ne_cycle) timer

theorem register_of_readDelay {y : Register} (reads : moment.executes? = some (.readDelay y)) :
    moment.next.machine.cpu.register y = moment.loop.machine.delay.value := by
  obtain ⟨keys, now, due, -, -, -, -, next⟩ := next_of_executes reads
  rw [next, Machine.cpu_goOn]
  exact (Cpu.register_setRegister ..).trans (if_pos rfl)

end Moment

namespace Loop

variable {loop : Loop} {timer : Timer} {count start n : Nat}

theorem unset_of_early (counts : loop.machine.CountsDown timer count start n)
    (prompt : loop.Prompt) (incidents : List Incident)
    (passes : ∀ moment ∈ history incidents loop, moment.Passes)
    (early : n + firings timer.task (history incidents loop) < count) :
    ∀ moment ∈ history incidents loop, ¬ moment.Sets timer := by
  induction incidents generalizing loop n with
  | nil => simp [history]
  | cons incident rest ih =>
    rw [history, firings_cons] at early
    obtain ⟨first, later⟩ := List.forall_mem_cons.mp passes
    have unset : ¬ Moment.Sets ⟨loop, incident⟩ timer := by
      rintro ⟨instruction, -, starts⟩
      exact counts.not_starts (by omega) instruction starts
    refine List.forall_mem_cons.mpr ⟨unset, ?_⟩
    refine ih (Moment.countsDown_next counts prompt first unset) (prompt.meet incident) later ?_
    omega

theorem countsDown_follow (counts : loop.machine.CountsDown timer count start n)
    (prompt : loop.Prompt) (incidents : List Incident)
    (passes : ∀ moment ∈ history incidents loop, moment.Passes)
    (unset : ∀ moment ∈ history incidents loop, ¬ moment.Sets timer) :
    (follow incidents loop).machine.CountsDown timer count start
      (n + firings timer.task (history incidents loop)) := by
  induction incidents generalizing loop n with
  | nil => exact counts
  | cons incident rest ih =>
    obtain ⟨first, later⟩ := List.forall_mem_cons.mp passes
    obtain ⟨unsetFirst, unsetLater⟩ := List.forall_mem_cons.mp unset
    have next := Moment.countsDown_next counts prompt first unsetFirst
    have counted := ih next (prompt.meet incident) later unsetLater
    rw [history, firings_cons, ← Nat.add_assoc]
    exact counted

/-- A timer in a run of the loop, on any machine. An instruction finds it idle and sets it to
`count` at the time `now`. From then on until the machine is ended, and after `n` ticks, however
late these came: as long as `n < count`, nothing has set the timer anew. Unless it has been set
anew, there have been no more than `count` ticks, the timer stands at `count - n`, and the next tick
is armed for the next point of the grid just while one is left. It is carried out with that
deadline, an instruction that would set the timer has no effect on it as long as a tick is left, and
what reads the delay timer reads `count - n`. -/
theorem run_countsDown (m : Machine) (channel : Channel) (incidents : List Incident) :
    let past := history incidents { machine := m, channel }
    ∀ timer i first x keys now, past[i]? = some first → first.incident = .move keys now →
      first.executes? = some (timer.setting x) → (first.loop.machine.timer timer).value = 0 →
      first.loop.machine.cpu.register x ≠ 0 →
      let count := (first.loop.machine.cpu.register x).toNat
      let grid (j : Nat) : Instant := now + j * m.settings.timerPeriod
      ∀ j moment, past[j]? = some moment → i < j →
        (∀ earlier ∈ between past i j, earlier.Passes) →
        let n := firings timer.task (between past i j)
        (n < count → ∀ earlier ∈ between past i j, ¬ earlier.Sets timer) ∧
        ((∀ earlier ∈ between past i j, ¬ earlier.Sets timer) →
          n ≤ count ∧
          (moment.loop.machine.timer timer).value.toNat = count - n ∧
          moment.loop.machine.agenda.deadline timer.task =
            (if n < count then some (grid (n + 1)) else none) ∧
          (∀ due, moment.fired? = some (timer.task, due) →
            n < count ∧ due = grid (n + 1) ∧
            (moment.next.machine.timer timer).value.toNat = count - (n + 1) ∧
            moment.next.machine.agenda.deadline timer.task =
              if n + 1 < count then some (grid (n + 2)) else none) ∧
          (∀ y, moment.executes? = some (timer.setting y) → n < count →
            moment.next.machine.timer timer = moment.loop.machine.timer timer ∧
            moment.next.machine.agenda.deadline timer.task =
              moment.loop.machine.agenda.deadline timer.task) ∧
          (∀ y, timer = .delay → moment.executes? = some (.readDelay y) →
            (moment.next.machine.cpu.register y).toNat = count - n)) := by
  intro past timer i first x keys now found incident executes idle positive count grid j moment
    reached later passes n
  -- What lies between is a run of its own, which begins with the timer just set.
  obtain ⟨middle, path, same⟩ := follow_between found reached later
  have prompt : first.next.Prompt := by
    rw [(getElem?_history found).2]
    exact (Prompt.of_draining rfl).follow _
  have begun := Moment.countsDown_of_setting incident executes idle positive
  have settings : moment.loop.machine.settings = m.settings := by
    rw [(getElem?_history reached).1, settings_follow]
  rw [← same] at passes
  refine ⟨?_, ?_⟩
  · intro early
    rw [← same]
    exact unset_of_early begun prompt middle passes (by rw [same, Nat.zero_add]; exact early)
  · intro unset
    rw [← same] at unset
    have counts := countsDown_follow begun prompt middle passes unset
    rw [same, path, Nat.zero_add] at counts
    have deadline := counts.deadline
    rw [settings] at deadline
    refine ⟨counts.bound, counts.value, deadline, ?_, ?_, ?_⟩
    · intro due fired
      obtain ⟨early, due_eq⟩ := Moment.countsDown_fired counts (path ▸ prompt.follow middle) fired
      obtain ⟨goesOn, untouched⟩ := Moment.passes_of_ticked fired
      have next := Moment.countsDown_next counts (path ▸ prompt.follow middle) goesOn untouched
      rw [Moment.fires_eq_true fired] at next
      have armed := next.deadline
      rw [Moment.settings_next, settings] at armed
      rw [settings] at due_eq
      exact ⟨early, due_eq, next.value, armed⟩
    · intro y sets early
      exact Moment.timer_of_ignored sets (counts.not_starts early _)
    · rintro y rfl reads
      rw [Moment.register_of_readDelay reads]
      exact counts.value

/-- Sets the delay timer to two and reads it, then runs in a circle. The clock is faster than the
timer. -/
def twoTicks : Machine :=
  { Machine.new { clockPeriod := 10, timerPeriod := 15 } (Vector.replicate 8 0) with
    agenda := { cycle := some 0 }
    cpu :=
      { pc := 0
        memory := .patch ⟨Vector.replicate 4096 0⟩ 0
          [0x60, 0x02, 0xF0, 0x15, 0xF1, 0x07, 0x10, 0x04] } }

/-- In the fourth turn and in the seventh, both late, the timer ticks. -/
def sevenTurns : List Incident := turns [0, 12, 22, 40, 41, 41, 60]

theorem run_countsDown_twoTicks :
    let set : Moment := ⟨follow (sevenTurns.take 5) { machine := twoTicks }, .move (fun _ => false) 12⟩
    let last : Moment := ⟨follow (sevenTurns.take 20) { machine := twoTicks }, .move (fun _ => false) 60⟩
    set.executes? = some (Timer.delay.setting 0) ∧ last.fired? = some (.delay, 12 + 2 * 15) ∧
      (last.next.machine.timer .delay).value.toNat = 2 - (1 + 1) ∧
      last.next.machine.agenda.deadline .delay = none := by
  intro set last
  obtain ⟨executes, idle, register, passes, ticked, fired⟩ :
      set.executes? = some (Timer.delay.setting 0) ∧ (set.loop.machine.timer .delay).value = 0 ∧
      set.loop.machine.cpu.register 0 = 2 ∧
      (∀ earlier ∈ between (history sevenTurns { machine := twoTicks }) 5 20, earlier.Passes) ∧
      firings Timer.delay.task (between (history sevenTurns { machine := twoTicks }) 5 20) = 1 ∧
      last.fired? = some (.delay, 12 + 2 * 15) := by
    decide +kernel
  obtain ⟨unset, counts⟩ :=
    run_countsDown twoTicks {} sevenTurns .delay 5 set 0 (fun _ => false) 12 rfl rfl executes idle
      (by rw [register]; decide) 20 last rfl (by decide) passes
  rw [ticked, register] at unset counts
  obtain ⟨-, -, -, ticks, -⟩ := counts (unset (by decide))
  obtain ⟨-, -, value, deadline⟩ := ticks _ fired
  exact ⟨executes, fired, value, deadline⟩

end Loop
end ChipEight
