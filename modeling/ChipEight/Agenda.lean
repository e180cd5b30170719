/-! Deadlines of the three recurring tasks, at most one each. Of two tasks due at the same
instant the one listed first in `Task.all` goes first. -/
namespace ChipEight

inductive Task
  | cycle
  | delay
  | sound
deriving DecidableEq

def Task.all : List Task := [cycle, delay, sound]

/-- A reading of the clock, in nanoseconds. -/
abbrev Instant := Nat

structure Agenda where
  cycle : Option Instant := none
  delay : Option Instant := none
  sound : Option Instant := none
deriving DecidableEq

namespace Agenda

def deadline (agenda : Agenda) : Task → Option Instant
  | .cycle => agenda.cycle
  | .delay => agenda.delay
  | .sound => agenda.sound

def put (agenda : Agenda) (due : Option Instant) : Task → Agenda
  | .cycle => { agenda with cycle := due }
  | .delay => { agenda with delay := due }
  | .sound => { agenda with sound := due }

def schedule (agenda : Agenda) (task : Task) (due : Instant) : Agenda := agenda.put (some due) task

def cancel (agenda : Agenda) (task : Task) : Agenda := agenda.put none task

def cancelAll (_ : Agenda) : Agenda := {}

def isScheduled (agenda : Agenda) (task : Task) : Bool := (agenda.deadline task).isSome

def isIdle (agenda : Agenda) : Bool := Task.all.all fun task => !agenda.isScheduled task

/-- The candidate or, if that is due earlier, the given task. -/
@[inline]
def earlier (best : Option (Task × Instant)) (task : Task) : Option Instant → Option (Task × Instant)
  | some due =>
    match best with
    | some (other, first) => if due < first then some (task, due) else some (other, first)
    | none => some (task, due)
  | none => best

/-- The armed task with the least deadline. -/
def next? (agenda : Agenda) : Option (Task × Instant) :=
  earlier (earlier (earlier none .cycle agenda.cycle) .delay agenda.delay) .sound agenda.sound

@[simp] theorem deadline_put (agenda : Agenda) (due : Option Instant) (task other : Task) :
    (agenda.put due task).deadline other = if other = task then due else agenda.deadline other := by
  cases task <;> cases other <;> rfl

@[simp] theorem deadline_schedule (agenda : Agenda) (task other : Task) (due : Instant) :
    (agenda.schedule task due).deadline other =
      if other = task then some due else agenda.deadline other := deadline_put ..

@[simp] theorem deadline_cancel (agenda : Agenda) (task other : Task) :
    (agenda.cancel task).deadline other = if other = task then none else agenda.deadline other :=
  deadline_put ..

@[simp] theorem deadline_cancelAll (agenda : Agenda) (task : Task) :
    agenda.cancelAll.deadline task = none := by
  cases task <;> rfl

theorem eq_of_earlier {best : Option (Task × Instant)} {task : Task} {deadline : Option Instant}
    {chosen : Task × Instant} (earliest : earlier best task deadline = some chosen) :
    best = some chosen ∨ (task = chosen.1 ∧ deadline = some chosen.2) := by
  cases deadline with
  | none => exact .inl earliest
  | some due =>
    cases best with
    | none => cases earliest; exact .inr ⟨rfl, rfl⟩
    | some other =>
      simp only [earlier] at earliest
      split at earliest
      · cases earliest; exact .inr ⟨rfl, rfl⟩
      · exact .inl earliest

theorem earlier_eq_none_iff {best : Option (Task × Instant)} {task : Task}
    {deadline : Option Instant} : earlier best task deadline = none ↔ best = none ∧ deadline = none := by
  cases deadline <;> cases best <;> simp [earlier]
  split <;> simp

theorem deadline_of_next? {agenda : Agenda} {task : Task} {due : Instant}
    (next : agenda.next? = some (task, due)) : agenda.deadline task = some due := by
  rcases eq_of_earlier next with next | ⟨rfl, armed⟩
  · rcases eq_of_earlier next with next | ⟨rfl, armed⟩
    · rcases eq_of_earlier next with next | ⟨rfl, armed⟩
      · contradiction
      · exact armed
    · exact armed
  · exact armed

theorem exists_earlier_le {best : Option (Task × Instant)} {task : Task}
    {deadline : Option Instant} {instant : Instant}
    (choice : (∃ other, best = some (other, instant)) ∨ deadline = some instant) :
    ∃ chosen due, earlier best task deadline = some (chosen, due) ∧ due ≤ instant := by
  rcases choice with ⟨other, rfl⟩ | rfl
  · cases deadline with
    | none => exact ⟨other, instant, rfl, Nat.le_refl _⟩
    | some due =>
      simp only [earlier]
      split
      next sooner => exact ⟨task, due, rfl, Nat.le_of_lt sooner⟩
      next => exact ⟨other, instant, rfl, Nat.le_refl _⟩
  · rcases best with _ | ⟨other, first⟩
    · exact ⟨task, instant, rfl, Nat.le_refl _⟩
    · simp only [earlier]
      split
      next => exact ⟨task, instant, rfl, Nat.le_refl _⟩
      next later => exact ⟨other, first, rfl, Nat.le_of_not_lt later⟩

/-- Nothing that is armed is due before what comes next. -/
theorem le_of_next? {agenda : Agenda} {task other : Task} {due instant : Instant}
    (next : agenda.next? = some (task, due)) (armed : agenda.deadline other = some instant) :
    due ≤ instant := by
  suffices ∃ chosen sooner, agenda.next? = some (chosen, sooner) ∧ sooner ≤ instant by
    obtain ⟨chosen, sooner, found, least⟩ := this
    obtain ⟨-, rfl⟩ := Prod.mk.inj (Option.some.inj (next.symm.trans found))
    exact least
  cases other with
  | sound => exact exists_earlier_le (.inr armed)
  | delay =>
    obtain ⟨first, before, found, sooner⟩ := exists_earlier_le (.inr armed)
    obtain ⟨chosen, due, found, least⟩ := exists_earlier_le (.inl ⟨first, found⟩)
    exact ⟨chosen, due, found, Nat.le_trans least sooner⟩
  | cycle =>
    obtain ⟨first, before, found, sooner⟩ := exists_earlier_le (.inr armed)
    obtain ⟨second, middle, found, less⟩ := exists_earlier_le (.inl ⟨first, found⟩)
    obtain ⟨chosen, due, found, least⟩ := exists_earlier_le (.inl ⟨second, found⟩)
    exact ⟨chosen, due, found, Nat.le_trans least (Nat.le_trans less sooner)⟩

theorem next?_eq_none_iff {agenda : Agenda} :
    agenda.next? = none ↔ ∀ task, agenda.deadline task = none := by
  simp only [next?, earlier_eq_none_iff, true_and]
  constructor
  · rintro ⟨⟨cycle, delay⟩, sound⟩ (_ | _ | _)
    · exact cycle
    · exact delay
    · exact sound
  · exact fun idle => ⟨⟨idle .cycle, idle .delay⟩, idle .sound⟩

end Agenda
end ChipEight
