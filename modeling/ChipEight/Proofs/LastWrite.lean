/-! What the last of several writes leaves. A state goes through changes, and each change either writes
to a cell of it or lets the cell be. So after any changes the cell holds what the last of those that
write to it has left, and the others may as well not have been. -/
namespace ChipEight

/-- What the last change that writes leaves. -/
def lastWrite? {Change Value : Type} (write? : Change → Option Value) (changes : List Change) :
    Option Value :=
  (changes.filterMap write?).getLast?

section
variable {State Change Value : Type} {write? : Change → Option Value} {apply : State → Change → State}

theorem cell_foldl (cell : State → Value)
    (writes : ∀ s change, cell (apply s change) = (write? change).getD (cell s))
    (changes : List Change) (s : State) :
    cell (changes.foldl apply s) = (lastWrite? write? changes).getD (cell s) := by
  induction changes generalizing s with
  | nil => rfl
  | cons change rest ih =>
    rw [List.foldl_cons, ih, writes, lastWrite?, lastWrite?]
    cases written : write? change with
    | none => rw [List.filterMap_cons_none written, Option.getD_none]
    | some value =>
      rw [List.filterMap_cons_some written, List.getLast?_cons, Option.getD_some, Option.getD_some]

theorem lastWrite?_eq_some_iff {changes : List Change} {value : Value} :
    lastWrite? write? changes = some value ↔
      ∃ earlier change later, changes = earlier ++ change :: later ∧ write? change = some value ∧
        ∀ other ∈ later, write? other = none := by
  rw [lastWrite?, List.getLast?_filterMap, List.findSome?_eq_some_iff]
  constructor
  · rintro ⟨later, change, earlier, split, written, silent⟩
    refine ⟨earlier.reverse, change, later.reverse, ?_, written, ?_⟩
    · simpa using congrArg List.reverse split
    · simpa using silent
  · rintro ⟨earlier, change, later, rfl, written, silent⟩
    exact ⟨later.reverse, change, earlier.reverse, by simp, written, by simpa using silent⟩

theorem lastWrite?_filter {concerns : Change → Bool}
    (silent : ∀ change, concerns change = false → write? change = none) (changes : List Change) :
    lastWrite? write? (changes.filter concerns) = lastWrite? write? changes := by
  have same : (fun change => if concerns change then write? change else none) = write? := by
    funext change
    cases concerned : concerns change with
    | true => rfl
    | false => exact (silent change concerned).symm
  rw [lastWrite?, List.filterMap_filter, same, lastWrite?]

theorem cell_foldl_filter (cell : State → Value)
    (writes : ∀ s change, cell (apply s change) = (write? change).getD (cell s))
    {concerns : Change → Bool} (silent : ∀ change, concerns change = false → write? change = none)
    (changes : List Change) (s : State) :
    cell ((changes.filter concerns).foldl apply s) = cell (changes.foldl apply s) := by
  rw [cell_foldl cell writes, cell_foldl cell writes, lastWrite?_filter silent]

end
end ChipEight
