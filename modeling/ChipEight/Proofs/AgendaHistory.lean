import ChipEight.Agenda
import ChipEight.Proofs.LastWrite
import Mathlib.Data.List.MinMax

/-! What an agenda holds and what it names next. Each task has a slot of its own, which holds the instant
of the last schedule that nothing has cancelled. The armed tasks stand in the order of the tasks, and
next comes the first of those that are due earliest. -/
namespace ChipEight

def Task.rank (task : Task) : Nat := Task.all.idxOf task

namespace Agenda

inductive Change
  | schedule (task : Task) (due : Instant)
  | cancel (task : Task)
  | cancelAll

def change (agenda : Agenda) : Change → Agenda
  | .schedule task due => agenda.schedule task due
  | .cancel task => agenda.cancel task
  | .cancelAll => agenda.cancelAll

def after (changes : List Change) : Agenda := changes.foldl change {}

namespace Change

def concerns (task : Task) : Change → Bool
  | schedule other _ | cancel other => other = task
  | cancelAll => true

/-- The deadline that a change leaves to a task that it concerns. -/
def write? (task : Task) (change : Change) : Option (Option Instant) :=
  if change.concerns task then
    some <| match change with
      | schedule _ due => some due
      | cancel _ | cancelAll => none
  else none

theorem write?_eq_none_iff {task : Task} {change : Change} :
    change.write? task = none ↔ change.concerns task = false := by
  simp [write?]

theorem write?_eq_some_some_iff {task : Task} {change : Change} {due : Instant} :
    change.write? task = some (some due) ↔ change = schedule task due := by
  cases change <;> simp [write?, concerns]

/-- Of later changes none concerns a task if they neither schedule it nor cancel it or all. -/
theorem unconcerned_iff {task : Task} {later : List Change} :
    (∀ change ∈ later, change.concerns task = false) ↔
      (∀ instant, schedule task instant ∉ later) ∧ cancel task ∉ later ∧ cancelAll ∉ later := by
  constructor
  · intro unconcerned
    refine ⟨fun instant member => ?_, fun member => ?_, fun member => ?_⟩
    all_goals simpa [concerns] using unconcerned _ member
  · rintro ⟨unscheduled, uncancelled, kept⟩ change member
    cases change with
    | schedule other instant =>
      refine decide_eq_false ?_
      rintro rfl
      exact unscheduled instant member
    | cancel other =>
      refine decide_eq_false ?_
      rintro rfl
      exact uncancelled member
    | cancelAll => exact absurd member kept

end Change

theorem deadline_change (task : Task) (agenda : Agenda) (change : Change) :
    (agenda.change change).deadline task = (change.write? task).getD (agenda.deadline task) := by
  cases change with
  | schedule other due | cancel other =>
    by_cases same : other = task
    · simp [Agenda.change, Change.write?, Change.concerns, same]
    · simp [Agenda.change, Change.write?, Change.concerns, same, Ne.symm same]
  | cancelAll => simp [Agenda.change, Change.write?, Change.concerns]

theorem deadline_after (task : Task) (changes : List Change) :
    (after changes).deadline task = (lastWrite? (Change.write? task) changes).getD none := by
  have fresh : ({} : Agenda).deadline task = none := by cases task <;> rfl
  have last := cell_foldl (deadline · task) (deadline_change task) changes {}
  rwa [fresh] at last

theorem deadline_after_eq_some_iff {task : Task} {changes : List Change} {due : Instant} :
    (after changes).deadline task = some due ↔
      ∃ earlier later, changes = earlier ++ .schedule task due :: later ∧
        ∀ change ∈ later, change.concerns task = false := by
  rw [deadline_after, Option.getD_eq_iff]
  simp only [reduceCtorEq, and_false, or_false, lastWrite?_eq_some_iff,
    Change.write?_eq_some_some_iff, Change.write?_eq_none_iff]
  constructor
  · rintro ⟨earlier, _, later, split, rfl, silent⟩
    exact ⟨earlier, later, split, silent⟩
  · rintro ⟨earlier, later, split, silent⟩
    exact ⟨earlier, _, later, split, rfl, silent⟩

/-! ### What comes next -/

/-- The first of the least in a list whose ranks ascend: of any other member the key is greater, or
equal with a higher rank. -/
theorem argmin_eq_some_iff_of_ordered {α : Type} [DecidableEq α] {key rank : α → Nat} {xs : List α}
    {least : α} (ordered : xs.Pairwise fun first second => rank first < rank second) :
    xs.argmin key = some least ↔
      least ∈ xs ∧ ∀ x ∈ xs, x ≠ least →
        key least < key x ∨ (key least = key x ∧ rank least < rank x) := by
  have ranked {x y : α} (here : x ∈ xs) (there : y ∈ xs) (before : xs.idxOf x < xs.idxOf y) :
      rank x < rank y := by
    have ascending := List.pairwise_iff_getElem.mp ordered _ _ (List.idxOf_lt_length_of_mem here)
      (List.idxOf_lt_length_of_mem there) before
    rwa [List.getElem_idxOf, List.getElem_idxOf] at ascending
  -- The library breaks ties by the places in the list, with which the ranks ascend.
  rw [List.argmin_eq_some_iff]
  refine and_congr_right fun member => ?_
  constructor
  · rintro ⟨lowest, first⟩ x there different
    rcases Nat.lt_or_eq_of_le (lowest x there) with less | tied
    · exact .inl less
    · have place := first x there (Nat.le_of_eq tied.symm)
      have apart := fun same => different ((List.idxOf_inj member).mp same).symm
      exact .inr ⟨tied, ranked member there (Nat.lt_of_le_of_ne place apart)⟩
  · intro others
    constructor
    · intro x there
      by_cases same : x = least
      · exact Nat.le_of_eq (congrArg key same.symm)
      · rcases others x there same with less | ⟨tied, -⟩
        · exact Nat.le_of_lt less
        · exact Nat.le_of_eq tied
    · intro x there noMore
      refine Nat.le_of_not_lt fun before => ?_
      have different : x ≠ least := by
        rintro rfl
        exact Nat.lt_irrefl _ before
      rcases others x there different with less | ⟨-, higher⟩
      · exact Nat.not_lt.mpr noMore less
      · exact Nat.lt_asymm higher (ranked there member before)

def deadlines (agenda : Agenda) : List (Option Instant) := [agenda.cycle, agenda.delay, agenda.sound]

def armed (agenda : Agenda) : List (Task × Instant) :=
  (Task.all.zip agenda.deadlines).filterMap fun (task, deadline) => deadline.map (task, ·)

theorem mem_armed_iff {agenda : Agenda} {task : Task} {due : Instant} :
    (task, due) ∈ agenda.armed ↔ agenda.deadline task = some due := by
  cases task <;> simp [armed, Task.all, deadlines, deadline]

theorem armed_ordered (agenda : Agenda) :
    agenda.armed.Pairwise fun first second => first.1.rank < second.1.rank := by
  have ranks : Task.cycle.rank < Task.delay.rank ∧ Task.delay.rank < Task.sound.rank := by decide
  rw [armed, List.pairwise_filterMap]
  simp [Task.all, deadlines, ranks.1, ranks.2, Nat.lt_trans ranks.1 ranks.2]

theorem earlier_eq_argmin (passed : List (Task × Instant)) (task : Task)
    (deadline : Option Instant) :
    earlier (passed.argmin Prod.snd) task deadline =
      (passed ++ (deadline.map (task, ·)).toList).argmin Prod.snd := by
  cases deadline with
  | none => simp [earlier]
  | some due =>
    rw [Option.map_some, Option.toList_some, List.argmin_concat]
    cases passed.argmin Prod.snd <;> rfl

theorem next?_eq_argmin (agenda : Agenda) : agenda.next? = agenda.armed.argmin Prod.snd := by
  have inOrder : agenda.armed = [] ++ (agenda.cycle.map (Task.cycle, ·)).toList ++
      (agenda.delay.map (Task.delay, ·)).toList ++ (agenda.sound.map (Task.sound, ·)).toList := by
    obtain ⟨cycle, delay, sound⟩ := agenda
    cases cycle <;> cases delay <;> cases sound <;> rfl
  rw [inOrder, ← earlier_eq_argmin, ← earlier_eq_argmin, ← earlier_eq_argmin]
  rfl

theorem next?_eq_some_iff {agenda : Agenda} {task : Task} {due : Instant} :
    agenda.next? = some (task, due) ↔
      agenda.deadline task = some due ∧
        ∀ other instant, other ≠ task → agenda.deadline other = some instant →
          due < instant ∨ (due = instant ∧ task.rank < other.rank) := by
  rw [next?_eq_argmin, argmin_eq_some_iff_of_ordered agenda.armed_ordered]
  simp only [← mem_armed_iff]
  refine and_congr_right fun armed => ?_
  constructor
  · intro first other instant different alsoArmed
    exact first _ alsoArmed fun same => different (congrArg Prod.fst same)
  · rintro first ⟨other, instant⟩ alsoArmed different
    refine first other instant ?_ alsoArmed
    -- A task has one deadline, so two choices of the same task are one.
    rintro rfl
    rw [mem_armed_iff] at armed alsoArmed
    exact different (congrArg _ (Option.some.inj (alsoArmed.symm.trans armed)))

theorem isIdle_iff {agenda : Agenda} : agenda.isIdle ↔ ∀ task, ¬ agenda.isScheduled task := by
  simp only [isIdle, List.all_eq_true, Bool.not_eq_true', Bool.not_eq_true]
  constructor
  · intro idle task
    exact idle task (by cases task <;> decide)
  · exact fun idle task _ => idle task

theorem next?_eq_none_iff_isIdle {agenda : Agenda} : agenda.next? = none ↔ agenda.isIdle := by
  rw [next?_eq_none_iff, isIdle_iff]
  simp [isScheduled]

/-- An agenda after any changes. A task is due at the instant of its last schedule if no cancel of it
and no cancel of all has followed, and else it is not armed; what concerns other tasks makes no
difference. Next comes the armed task that is due earliest, of several the first in the order of
tasks, and nothing comes next just if the agenda is idle, that is, if no task is armed. -/
theorem last_schedule_first_due (changes : List Change) :
    let agenda := after changes
    (∀ task due, agenda.deadline task = some due ↔
      ∃ earlier later, changes = earlier ++ .schedule task due :: later ∧
        (∀ instant, .schedule task instant ∉ later) ∧ .cancel task ∉ later ∧
        .cancelAll ∉ later) ∧
    (∀ task, agenda.deadline task = (after (changes.filter (·.concerns task))).deadline task) ∧
    (∀ task due, agenda.next? = some (task, due) ↔
      agenda.deadline task = some due ∧
        ∀ other instant, other ≠ task → agenda.deadline other = some instant →
          due < instant ∨ (due = instant ∧ task.rank < other.rank)) ∧
    (agenda.next? = none ↔ agenda.isIdle) ∧
    (agenda.isIdle ↔ ∀ task, ¬ agenda.isScheduled task) := by
  intro agenda
  refine ⟨?_, ?_, fun _ _ => next?_eq_some_iff, next?_eq_none_iff_isIdle, isIdle_iff⟩
  · intro task due
    rw [deadline_after_eq_some_iff]
    simp only [Change.unconcerned_iff]
  · intro task
    exact (cell_foldl_filter (deadline · task) (deadline_change task)
      (fun _ => Change.write?_eq_none_iff.mpr) changes {}).symm

end Agenda
end ChipEight
