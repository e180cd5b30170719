import ChipEight.Machine.Events
import ChipEight.Machine.Load

/-! Runs of a machine. In the wide sense anything that the machine offers is done to it, in any
order (`Machine.run`); in the narrow sense it was set going, and since then its earliest task was
carried out or a signal arrived (`Machine.pace`). Keys held and clock readings are arbitrary
throughout. -/
namespace ChipEight

/-- What a machine offers. -/
inductive Operation
  | load (program : List UInt8)
  | loadFrom (reads : Reads)
  | start
  | step
  | giveKey (key : Key)
  | perform (task : Task) (due : Instant)
  | receive (signal : Signal)

def Operation.loads : Operation → Bool
  | .load _ | .loadFrom _ => true
  | .start | .step | .giveKey _ | .perform .. | .receive _ => false

/-- An operation, the keys held while it lasts and the time. -/
structure Occasion where
  keys : Key → Bool
  now : Instant
  operation : Operation

/-- What reaches a machine that runs on its own. -/
inductive Event
  | fire (keys : Key → Bool) (now : Instant)
  | signal (now : Instant) (signal : Signal)

namespace Machine

/-- The machine that is left behind, with or without a fault. -/
def left : EStateM.Result ε Machine α → Machine
  | .ok _ m | .error _ m => m

def operate (m : Machine) (occasion : Occasion) : Machine :=
  match occasion.operation with
  | .load program => left (load program m)
  | .loadFrom reads => left (loadFrom reads m)
  | .start => m.start occasion.now
  | .step => left (step occasion.keys occasion.now m)
  | .giveKey key => (m.giveKey key).1
  | .perform task due => m.perform occasion.keys occasion.now task due
  | .receive signal => m.receive occasion.now signal

def run : List Occasion → Machine → Machine
  | [], m => m
  | occasion :: rest, m => run rest (m.operate occasion)

/-- A machine with nothing armed has nothing to fire. -/
def handle (m : Machine) : Event → Machine
  | .fire keys now =>
    match m.agenda.next? with
    | some (task, due) => m.perform keys now task due
    | none => m
  | .signal now signal => m.receive now signal

def pace : List Event → Machine → Machine
  | [], m => m
  | event :: rest, m => pace rest (m.handle event)

/-- A new machine into which programs were loaded; one that did not fit was not taken. -/
def assemble (settings : Settings) (entropy : StreamKey) : List (List UInt8) → Machine
  | [] => .new settings entropy
  | program :: earlier => left (load program (assemble settings entropy earlier))

theorem run_append (earlier later : List Occasion) (m : Machine) :
    run (earlier ++ later) m = run later (run earlier m) := by
  induction earlier generalizing m with
  | nil => rfl
  | cons occasion rest ih => exact ih _

theorem run_invariant {property : Machine → Prop}
    (kept : ∀ m occasion, property m → property (m.operate occasion)) (occasions : List Occasion)
    (m : Machine) (initial : property m) : property (run occasions m) := by
  induction occasions generalizing m with
  | nil => exact initial
  | cons occasion rest ih => exact ih _ (kept m occasion initial)

theorem pace_invariant {property : Machine → Prop}
    (kept : ∀ m event, property m → property (m.handle event)) (events : List Event)
    (m : Machine) (initial : property m) : property (pace events m) := by
  induction events generalizing m with
  | nil => exact initial
  | cons event rest ih => exact ih _ (kept m event initial)

theorem load_eq (program : List UInt8) (m : Machine) :
    load program m =
      if program.length ≤ programLimit then
        .ok () { m with cpu := { m.cpu with memory := m.cpu.memory.patch programStart program } }
      else .error (.tooLarge program.length) m := by
  unfold load
  by_cases large : programLimit < program.length
  · rw [if_neg (Nat.not_le.2 large), if_pos large]
    rfl
  · rw [if_pos (Nat.not_lt.1 large), if_neg large]
    rfl

theorem loadFrom_eq (reads : Reads) (m : Machine) :
    loadFrom reads m =
      match reads.gather with
      | .ok pieces => load pieces.flatten m
      | .error cause => .error (.unreadable cause) m := by
  unfold loadFrom
  cases reads.gather with
  | error cause => rfl
  | ok pieces =>
    simp only [Reads.size_eq]
    by_cases large : programLimit < pieces.flatten.length
    · rw [if_pos large, load_eq, if_neg (Nat.not_le.2 large)]
      rfl
    · rw [if_neg large]

theorem left_load (program : List UInt8) (m : Machine) :
    left (load program m) =
      if program.length ≤ programLimit then
        { m with cpu := { m.cpu with memory := m.cpu.memory.patch programStart program } }
      else m := by
  rw [load_eq]
  split <;> rfl

theorem left_loadFrom (reads : Reads) (m : Machine) :
    left (loadFrom reads m) =
      match reads.gather with
      | .ok pieces => left (load pieces.flatten m)
      | .error _ => m := by
  rw [loadFrom_eq]
  cases reads.gather <;> rfl

end Machine
end ChipEight
