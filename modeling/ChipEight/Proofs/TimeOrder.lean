import ChipEight.Proofs.Deadlines

/-! The order of time. As long as the clock does not run backwards, tasks are carried out in the
order of their deadlines: a new deadline is the clock reading plus a period, or the deadline of what
is carried out plus a period, and what is carried out is the earliest. The deadlines of the cycle lie
on a grid of one clock period until a key is awaited or the machine ends, so the cycles up to a given
time can be counted. -/
namespace ChipEight

def Incident.time? : Incident → Option Instant
  | .move _ now => some now
  | .send _ | .hangUp => none

/-- The clock does not run backwards. -/
def Forward (incidents : List Incident) : Prop :=
  (incidents.filterMap Incident.time?).Pairwise (· ≤ ·)

/-- The deadlines of the tasks that are carried out, in that order. -/
def dues (past : List Moment) : List Instant := (past.filterMap Moment.fired?).map Prod.snd

def Moment.cycleDue? (moment : Moment) : Option Instant :=
  match moment.fired? with
  | some (.cycle, due) => some due
  | _ => none

/-- The deadlines of the cycles that are carried out, in that order. -/
def cycleDues (past : List Moment) : List Instant := past.filterMap Moment.cycleDue?

theorem dues_cons_none {moment : Moment} (idle : moment.fired? = none) (rest : List Moment) :
    dues (moment :: rest) = dues rest := by
  rw [dues, List.filterMap_cons_none idle]
  rfl

theorem dues_cons_some {moment : Moment} {task : Task} {due : Instant}
    (fired : moment.fired? = some (task, due)) (rest : List Moment) :
    dues (moment :: rest) = due :: dues rest := by
  rw [dues, List.filterMap_cons_some fired]
  rfl

/-- A loop makes for a task only once the clock has reached its deadline. -/
theorem Loop.le_of_move_due {loop : Loop} {now due : Instant} {task : Task}
    (moved : loop.move now = .enter (.due task due)) : due ≤ now := by
  have taken {phase : Phase} {idle : Move} (entered : loop.take phase idle = .enter (.due task due)) :
      idle = .enter (.due task due) := by
    unfold take at entered
    split at entered
    · contradiction
    · split at entered
      · exact entered
      · contradiction
  unfold move at moved
  split at moved
  · simpa using taken moved
  · unfold choose at moved
    split at moved
    · split at moved
      · simp at moved
      next reached =>
        simp only [Move.enter.injEq, Phase.due.injEq] at moved
        exact moved.2 ▸ Nat.le_of_not_lt reached
    · split at moved <;> simp at moved
  · simpa using taken moved
  · have idled := taken moved
    split at idled
    · contradiction
    next reached =>
      simp only [Move.enter.injEq, Phase.due.injEq] at idled
      exact idled.2 ▸ Nat.le_of_not_lt reached
  · contradiction
  · contradiction

namespace Moment

theorem armed_next {moment : Moment} {task : Task} {due : Instant}
    (armed : moment.next.machine.agenda.deadline task = some due) :
    moment.loop.machine.agenda.deadline task = some due ∨
      (∃ now, moment.incident.time? = some now ∧ now ≤ due) ∨
      ∃ earlier, moment.fired? = some (task, earlier) ∧ earlier ≤ due := by
  have timer (timer : Timer) (armed : moment.next.machine.agenda.deadline timer.task = some due) :
      moment.loop.machine.agenda.deadline timer.task = some due ∨
        (∃ now, moment.incident.time? = some now ∧ now ≤ due) ∨
        ∃ earlier, moment.fired? = some (timer.task, earlier) ∧ earlier ≤ due := by
    cases moment.timerStep timer with
    | keeps _ _ _ deadline => exact .inl (deadline ▸ armed)
    | @starts _ _ now incident _ _ _ _ deadline =>
      obtain rfl := Option.some.inj (deadline.symm.trans armed)
      exact .inr (.inl ⟨now, by rw [incident]; rfl, Nat.le_add_right ..⟩)
    | @ticks earlier fired _ deadline =>
      rw [deadline] at armed
      split at armed
      · obtain rfl := Option.some.inj armed
        exact .inr (.inr ⟨earlier, fired, Nat.le_add_right ..⟩)
      · contradiction
    | ends _ _ deadline => simp [deadline] at armed
  cases task with
  | delay => exact timer .delay armed
  | sound => exact timer .sound armed
  | cycle =>
    cases moment.cycleStep with
    | keeps _ deadline => exact .inl (deadline ▸ armed)
    | @resumes _ now incident _ _ deadline =>
      obtain rfl := Option.some.inj (deadline.symm.trans armed)
      exact .inr (.inl ⟨now, by rw [incident]; rfl, Nat.le_add_right ..⟩)
    | @repeats earlier fired deadline =>
      obtain rfl := Option.some.inj (deadline.symm.trans armed)
      exact .inr (.inr ⟨earlier, fired, Nat.le_add_right ..⟩)
    | waits _ _ deadline | ends _ deadline => simp [deadline] at armed

theorem due_next {moment : Moment} {task : Task} {due : Instant}
    (phase : moment.next.phase = .due task due) :
    (moment.incident.time? = none ∧ moment.loop.phase = .due task due) ∨
      ∃ now, moment.incident.time? = some now ∧ due ≤ now := by
  obtain ⟨loop, incident⟩ := moment
  cases incident with
  | send signal => exact .inl ⟨rfl, (loop.phase_meet_send signal).symm.trans phase⟩
  | hangUp => exact .inl ⟨rfl, phase⟩
  | move keys now =>
    refine .inr ⟨now, rfl, ?_⟩
    have ready := loop.ready_move now
    have phase : (loop.apply keys now (loop.move now)).phase = .due task due := phase
    cases moved : loop.move now with
    | enter entered =>
      rw [moved] at phase
      obtain rfl : entered = .due task due := phase
      exact Loop.le_of_move_due moved
    | receive | finish | perform => simp [moved, Loop.apply] at phase
    | hearHangUp =>
      rw [moved] at ready phase
      cases ready <;> simp [Loop.apply] at phase
    | wait =>
      rw [moved] at ready phase
      cases ready with
      | wait quiet =>
        rcases quiet with returned | ⟨parked | ⟨_, _, resting⟩, -⟩ <;>
          simp_all [Loop.apply]

end Moment

namespace Loop

/-! ## Time order -/

/-- The last task that was carried out was due at `last`, and the clock shows `clock`. -/
structure Punctual (loop : Loop) (last clock : Instant) : Prop where
  past : last ≤ clock
  armed {task : Task} {due : Instant} :
    loop.machine.agenda.deadline task = some due → last ≤ due
  reached {task : Task} {due : Instant} : loop.phase = .due task due → due ≤ clock

end Loop

namespace Moment

variable {moment : Moment} {last clock : Instant}

theorem punctual_fired (punctual : moment.loop.Punctual last clock) (prompt : moment.loop.Prompt)
    {task : Task} {due : Instant} (fired : moment.fired? = some (task, due)) :
    last ≤ due ∧ due ≤ clock := by
  refine ⟨punctual.armed (Agenda.deadline_of_next? (next?_of_fired prompt fired)), ?_⟩
  cases moment.bears with
  | nothing _ _ idle | signal _ _ _ idle | hangUp _ _ idle => simp [idle] at fired
  | task _ phase _ _ fired' =>
    obtain ⟨rfl, rfl⟩ : _ = task ∧ _ = due := by simpa [fired'] using fired
    exact punctual.reached phase

theorem punctual_next (punctual : moment.loop.Punctual last clock) (prompt : moment.loop.Prompt)
    (forward : ∀ now, moment.incident.time? = some now → clock ≤ now) :
    moment.next.Punctual ((moment.fired?.map Prod.snd).getD last)
      (moment.incident.time?.getD clock) := by
  have later : clock ≤ moment.incident.time?.getD clock := by
    cases read : moment.incident.time? with
    | none => exact Nat.le_refl _
    | some now => exact forward now read
  have reached {task : Task} {due : Instant} (phase : moment.next.phase = .due task due) :
      due ≤ moment.incident.time?.getD clock := by
    rcases due_next phase with ⟨-, before⟩ | ⟨now, read, reached⟩
    · exact Nat.le_trans (punctual.reached before) later
    · rw [read]
      exact reached
  cases fired : moment.fired? with
  | none =>
    refine ⟨Nat.le_trans punctual.past later, ?_, reached⟩
    intro task due armed
    rcases armed_next armed with kept | ⟨now, read, least⟩ | ⟨_, fired', _⟩
    · exact punctual.armed kept
    · exact Nat.le_trans punctual.past (Nat.le_trans (forward now read) least)
    · simp [fired] at fired'
  | some firing =>
    obtain ⟨task, due⟩ := firing
    obtain ⟨-, past⟩ := punctual_fired punctual prompt fired
    refine ⟨Nat.le_trans past later, ?_, reached⟩
    intro other instant armed
    rcases armed_next armed with kept | ⟨now, read, least⟩ | ⟨earlier, fired', least⟩
    · exact Agenda.le_of_next? (next?_of_fired prompt fired) kept
    · exact Nat.le_trans past (Nat.le_trans (forward now read) least)
    · obtain ⟨rfl, rfl⟩ : task = other ∧ due = earlier := by simpa [fired] using fired'
      exact least

end Moment

namespace Loop

variable {loop : Loop} {last clock : Instant}

theorem Punctual.follow (punctual : loop.Punctual last clock) (prompt : loop.Prompt)
    (incidents : List Incident)
    (forward : (clock :: incidents.filterMap Incident.time?).Pairwise (· ≤ ·)) :
    (last :: dues (history incidents loop)).Pairwise (· ≤ ·) ∧
      (∀ task due, (Loop.follow incidents loop).machine.agenda.deadline task = some due →
        ∀ earlier ∈ last :: dues (history incidents loop), earlier ≤ due) ∧
      ∀ moment ∈ history incidents loop, ∀ keys now task due, moment.incident = .move keys now →
        moment.fired? = some (task, due) → due ≤ now := by
  -- With the last deadline at the head, what was carried out before counts as a first of the list.
  induction incidents generalizing loop last clock with
  | nil =>
    refine ⟨List.pairwise_singleton _ _, ?_, by simp [history]⟩
    simp only [history, dues, List.filterMap_nil, List.map_nil, List.mem_singleton, forall_eq]
    exact fun task due => punctual.armed
  | cons incident rest ih =>
    have first : ∀ now, incident.time? = some now → clock ≤ now := by
      intro now read
      rw [List.filterMap_cons_some read] at forward
      exact (List.pairwise_cons.mp forward).1 now List.mem_cons_self
    have later : (incident.time?.getD clock :: rest.filterMap Incident.time?).Pairwise (· ≤ ·) := by
      cases read : incident.time? with
      | none => rwa [List.filterMap_cons_none read] at forward
      | some now =>
        rw [List.filterMap_cons_some read] at forward
        exact (List.pairwise_cons.mp forward).2
    obtain ⟨ordered, armed, onTime⟩ := ih
      (@Moment.punctual_next ⟨loop, incident⟩ last clock punctual prompt first)
      (prompt.meet incident) later
    have now_of_fired : ∀ keys now task due, incident = .move keys now →
        Moment.fired? ⟨loop, incident⟩ = some (task, due) → due ≤ now := by
      rintro keys now task due rfl fired
      exact Nat.le_trans (Moment.punctual_fired punctual prompt fired).2 (first now rfl)
    rw [history]
    cases fired : Moment.fired? ⟨loop, incident⟩ with
    | none =>
      rw [fired] at ordered armed
      rw [dues_cons_none fired]
      exact ⟨ordered, armed, List.forall_mem_cons.mpr ⟨now_of_fired, onTime⟩⟩
    | some firing =>
      obtain ⟨task, due⟩ := firing
      rw [fired] at ordered armed
      rw [dues_cons_some fired]
      have since : last ≤ due := (Moment.punctual_fired punctual prompt fired).1
      refine ⟨List.pairwise_cons.mpr ⟨?_, ordered⟩, ?_,
        List.forall_mem_cons.mpr ⟨now_of_fired, onTime⟩⟩
      · refine List.forall_mem_cons.mpr ⟨since, ?_⟩
        intro next member
        exact Nat.le_trans since ((List.pairwise_cons.mp ordered).1 next member)
      · intro other instant next
        have least := armed other instant next
        exact List.forall_mem_cons.mpr
          ⟨Nat.le_trans since (least due List.mem_cons_self), least⟩

end Loop

/-! ## The grid of the cycle -/

/-- The machine is neither ended nor told to wait for a key. -/
structure Moment.Unbroken (moment : Moment) : Prop where
  passes : moment.Passes
  unasked : ∀ x, moment.executes? ≠ some (.awaitKey x)

/-- Since the cycle was armed for `start`, `n` cycles have been carried out. -/
structure Machine.Paces (m : Machine) (start : Instant) (n : Nat) : Prop where
  free : m.cpu.awaiting = none
  armed : m.agenda.deadline .cycle = some (start + n * m.settings.clockPeriod)

namespace Moment

theorem cycleDue?_eq_some {moment : Moment} {due : Instant} :
    moment.cycleDue? = some due ↔ moment.fired? = some (.cycle, due) := by
  unfold cycleDue?
  split <;> simp_all

theorem cycleDue?_eq_none {moment : Moment} :
    moment.cycleDue? = none ↔ ∀ due, moment.fired? ≠ some (.cycle, due) := by
  simp only [Option.eq_none_iff_forall_not_mem, Option.mem_def, cycleDue?_eq_some, ne_eq]

variable {moment : Moment} {start due : Instant} {n : Nat}

theorem paces_fired (paces : moment.loop.machine.Paces start n) (prompt : moment.loop.Prompt)
    (fired : moment.fired? = some (.cycle, due)) :
    due = start + n * moment.loop.machine.settings.clockPeriod := by
  have armed := Agenda.deadline_of_next? (next?_of_fired prompt fired)
  rw [paces.armed] at armed
  exact (Option.some.inj armed).symm

theorem paces_next (paces : moment.loop.machine.Paces start n) (prompt : moment.loop.Prompt)
    (unbroken : moment.Unbroken) :
    moment.next.machine.Paces start (n + if moment.fires .cycle then 1 else 0) := by
  have free : moment.next.machine.cpu.awaiting = none := by
    refine Option.eq_none_iff_forall_not_mem.mpr ?_
    intro x awaited
    rcases awaiting_next awaited with asks | ⟨-, before⟩
    · exact unbroken.unasked x asks
    · simp [paces.free] at before
  refine ⟨free, ?_⟩
  rw [settings_next]
  cases moment.cycleStep with
  | keeps unfired deadline =>
    rw [fires_eq_false unfired, deadline]
    exact paces.armed
  | resumes _ awaited => exact absurd paces.free awaited
  | repeats fired deadline =>
    rw [fires_eq_true fired, deadline, paces_fired paces prompt fired]
    simp only [↓reduceIte, Nat.succ_mul, Nat.add_assoc]
  | waits _ awaits => exact absurd free awaits
  | ends blocked => exact absurd unbroken.passes blocked

end Moment

namespace Loop

variable {loop : Loop} {start : Instant} {n : Nat}

theorem paces_follow (paces : loop.machine.Paces start n) (prompt : loop.Prompt)
    (incidents : List Incident) (unbroken : ∀ moment ∈ history incidents loop, moment.Unbroken) :
    (follow incidents loop).machine.Paces start (n + firings .cycle (history incidents loop)) ∧
      cycleDues (history incidents loop) =
        (List.range' n (firings .cycle (history incidents loop))).map
          (start + · * loop.machine.settings.clockPeriod) := by
  induction incidents generalizing loop n with
  | nil => exact ⟨paces, rfl⟩
  | cons incident rest ih =>
    obtain ⟨first, later⟩ := List.forall_mem_cons.mp unbroken
    have next := @Moment.paces_next ⟨loop, incident⟩ start n paces prompt first
    obtain ⟨reached, rest⟩ := ih next (prompt.meet incident) later
    rw [Moment.settings_next, cycleDues, Moment.next] at rest
    rw [history, firings_cons, ← Nat.add_assoc, cycleDues]
    refine ⟨reached, ?_⟩
    cases cycled : Moment.cycleDue? ⟨loop, incident⟩ with
    | none =>
      rw [Moment.fires_eq_false (Moment.cycleDue?_eq_none.mp cycled)] at rest ⊢
      rw [List.filterMap_cons_none cycled, rest]
      simp
    | some due =>
      have fired := Moment.cycleDue?_eq_some.mp cycled
      rw [Moment.fires_eq_true fired] at rest ⊢
      rw [List.filterMap_cons_some cycled, rest, Moment.paces_fired paces prompt fired]
      simp only [↓reduceIte, Nat.add_comm 1, List.range'_succ, List.map_cons]

/-- How many points of a grid lie up to `limit`. -/
theorem eq_div_of_grid {start limit period n : Nat} (begun : start ≤ limit)
    (before : ∀ k < n, start + k * period ≤ limit)
    (after : limit < start + n * period) : n = (limit - start) / period + 1 := by
  cases n with
  | zero => omega
  | succ n =>
    have last := before n (Nat.lt_succ_self n)
    congr 1
    exact (Nat.div_eq_of_lt_le (by omega) (by omega)).symm

/-- Time in a run of the loop, on any machine. If the clock does not run backwards, no task is due
before one that was carried out earlier, whatever is armed at the end is due no earlier than all of
them, and every task is carried out at a time no earlier than its deadline.

From then on, if the cycle is armed for `start` and no key is awaited: as long as nothing ends the
machine and no instruction asks for a key, the cycles that are carried out have the deadlines
`start`, `start + period` and so on without a gap, and so has the next one, which is armed. Hence,
once just those due by `limit` have been carried out, there have been
`(limit - start) / period + 1`. -/
theorem run_punctual (m : Machine) (channel : Channel) (incidents : List Incident) :
    let past := history incidents { machine := m, channel }
    let loop := follow incidents { machine := m, channel }
    (Forward incidents →
      (dues past).Pairwise (· ≤ ·) ∧
      (∀ task due, loop.machine.agenda.deadline task = some due →
        ∀ earlier ∈ dues past, earlier ≤ due) ∧
      ∀ moment ∈ past, ∀ keys now task due, moment.incident = .move keys now →
        moment.fired? = some (task, due) → due ≤ now) ∧
    ∀ start, loop.machine.agenda.deadline .cycle = some start →
      loop.machine.cpu.awaiting = none →
      ∀ later, (∀ moment ∈ history later loop, moment.Unbroken) →
        let cycles := cycleDues (history later loop)
        let reached := follow later loop
        let grid (n : Nat) : Instant := start + n * m.settings.clockPeriod
        cycles = (List.range cycles.length).map grid ∧
        reached.machine.agenda.deadline .cycle = some (grid cycles.length) ∧
        (∀ incident, ∀ due, (Moment.mk reached incident).cycleDue? = some due →
          due = grid cycles.length) ∧
        ∀ limit, start ≤ limit → (∀ due ∈ cycles, due ≤ limit) →
          (∀ due, reached.machine.agenda.deadline .cycle = some due → limit < due) →
          cycles.length = (limit - start) / m.settings.clockPeriod + 1 := by
  intro past loop
  have prompt : Prompt { machine := m, channel } := .of_draining rfl
  refine ⟨?_, ?_⟩
  · intro forward
    have punctual : Punctual { machine := m, channel } 0 0 :=
      ⟨Nat.le_refl 0, fun _ => Nat.zero_le _, by simp⟩
    obtain ⟨ordered, armed, onTime⟩ := punctual.follow prompt incidents
      (List.pairwise_cons.mpr ⟨fun _ _ => Nat.zero_le _, forward⟩)
    refine ⟨(List.pairwise_cons.mp ordered).2, ?_, onTime⟩
    intro task due next earlier member
    exact armed task due next earlier (List.mem_cons_of_mem _ member)
  · intro start armed free later unbroken cycles reached grid
    have settings : loop.machine.settings = m.settings := settings_follow incidents _
    have begun : loop.machine.Paces start 0 := ⟨free, by rw [armed, Nat.zero_mul]; rfl⟩
    obtain ⟨paces, same⟩ := paces_follow begun (prompt.follow incidents) later unbroken
    have count : firings .cycle (history later loop) = cycles.length := by
      simp [cycles, same]
    rw [count, settings, ← List.range_eq_range'] at same
    have next := paces.armed
    rw [settings_follow, settings, count, Nat.zero_add] at next
    refine ⟨same, next, ?_, ?_⟩
    · intro incident due cycled
      have fired := Moment.cycleDue?_eq_some.mp cycled
      have due_eq := Moment.paces_fired paces ((prompt.follow incidents).follow later) fired
      rw [settings_follow, settings, count, Nat.zero_add] at due_eq
      exact due_eq
    · intro limit started before after
      refine eq_div_of_grid started ?_ (after _ next)
      intro k less
      have member : grid k ∈ (List.range cycles.length).map grid :=
        List.mem_map_of_mem (List.mem_range.mpr less)
      rw [← same] at member
      exact before _ member

/-- Jumps to itself for ever, while a timer has two ticks to go. -/
def orbiting : Machine :=
  { Machine.new { clockPeriod := 10, timerPeriod := 15 } (Vector.replicate 8 0) with
    agenda := { cycle := some 0, delay := some 5 }
    delay := ⟨2⟩
    cpu := { pc := 0, memory := .patch ⟨Vector.replicate 4096 0⟩ 0 [0x10, 0x00] } }

/-- After its first cycle the loop is late. It catches up on the next three. -/
theorem run_punctual_orbiting :
    let past := history (turns [0, 31, 31, 31, 31, 31]) { machine := orbiting }
    let cycles := cycleDues (history (turns [31, 31, 31, 31, 31])
      (follow (turns [0]) { machine := orbiting }))
    dues past = [0, 5, 10, 20, 20, 30] ∧ (dues past).Pairwise (· ≤ ·) ∧
      cycles = (List.range cycles.length).map (10 + · * 10) ∧
      cycles.length = (31 - 10) / 10 + 1 := by
  intro past cycles
  obtain ⟨fired, armed, free, unbroken, reached, next⟩ :
      dues past = [0, 5, 10, 20, 20, 30] ∧
      (follow (turns [0]) { machine := orbiting }).machine.agenda.deadline .cycle = some 10 ∧
      (follow (turns [0]) { machine := orbiting }).machine.cpu.awaiting = none ∧
      (∀ moment ∈ history (turns [31, 31, 31, 31, 31])
          (follow (turns [0]) { machine := orbiting }),
        moment.Passes ∧ ∀ x, moment.executes? ≠ some (.awaitKey x)) ∧
      (∀ due ∈ cycles, due ≤ 31) ∧
      (follow (turns [31, 31, 31, 31, 31])
        (follow (turns [0]) { machine := orbiting })).machine.agenda.deadline .cycle = some 40 := by
    decide +kernel
  obtain ⟨ordered, -⟩ := run_punctual orbiting {} (turns [0, 31, 31, 31, 31, 31])
  obtain ⟨-, paced⟩ := run_punctual orbiting {} (turns [0])
  obtain ⟨grid, -, -, count⟩ := paced 10 armed free (turns [31, 31, 31, 31, 31])
    fun moment member => ⟨(unbroken moment member).1, (unbroken moment member).2⟩
  refine ⟨fired, (ordered (by unfold Forward; decide)).1, grid, count 31 (by decide) reached ?_⟩
  intro due armed
  obtain rfl := Option.some.inj (next.symm.trans armed)
  decide

end Loop
end ChipEight
