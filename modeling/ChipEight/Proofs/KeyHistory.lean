import ChipEight.Proofs.Execute
import ChipEight.Proofs.LastWrite
import ChipEight.Proofs.Loading

/-! Which keys are held after any presses and releases, and what the two instructions that ask for a
key make of it. The keys share one word of bits, but each operation writes to the bits of its own keys
only, so a key is told by the last operation on it. -/
namespace ChipEight

namespace Keypad

inductive Change
  | press (key : Key)
  | release (key : Key)
  | releaseAll

def change (pad : Keypad) : Change → Keypad
  | .press key => pad.press key
  | .release key => pad.release key
  | .releaseAll => pad.releaseAll

def after (changes : List Change) : Keypad := changes.foldl change {}

/-- A key was pressed, and after the last press it was not released, neither by itself nor with all. -/
def Held (changes : List Change) (key : Key) : Prop :=
  ∃ earlier later, changes = earlier ++ .press key :: later ∧
    .press key ∉ later ∧ .release key ∉ later ∧ .releaseAll ∉ later

namespace Change

def concerns (key : Key) : Change → Bool
  | press other | release other => other = key
  | releaseAll => true

/-- Whether a change leaves a key held that it concerns. -/
def write? (key : Key) (change : Change) : Option Bool :=
  if change.concerns key then
    some <| match change with
      | press _ => true
      | release _ | releaseAll => false
  else none

theorem write?_eq_none_iff {key : Key} {change : Change} :
    change.write? key = none ↔ change.concerns key = false := by
  simp [write?]

theorem write?_eq_some_true_iff {key : Key} {change : Change} :
    change.write? key = some true ↔ change = press key := by
  cases change <;> simp [write?, concerns]

theorem unconcerned_iff {key : Key} {later : List Change} :
    (∀ change ∈ later, change.concerns key = false) ↔
      press key ∉ later ∧ release key ∉ later ∧ releaseAll ∉ later := by
  constructor
  · intro unconcerned
    refine ⟨fun member => ?_, fun member => ?_, fun member => ?_⟩
    all_goals simpa [concerns] using unconcerned _ member
  · rintro ⟨unpressed, unreleased, kept⟩ change member
    cases change with
    | press other =>
      refine decide_eq_false ?_
      rintro rfl
      exact unpressed member
    | release other =>
      refine decide_eq_false ?_
      rintro rfl
      exact unreleased member
    | releaseAll => exact absurd member kept

end Change

theorem isPressed_change (key : Key) (pad : Keypad) (change : Change) :
    (pad.change change).isPressed key = (change.write? key).getD (pad.isPressed key) := by
  cases change with
  | press other | release other =>
    by_cases same : other = key
    · simp [Keypad.change, Change.write?, Change.concerns, same]
    · simp [Keypad.change, Change.write?, Change.concerns, same, Ne.symm same]
  | releaseAll => simp [Keypad.change, Change.write?, Change.concerns]

theorem isPressed_after_iff {key : Key} {changes : List Change} :
    (after changes).isPressed key ↔ Held changes key := by
  have fresh : ({} : Keypad).isPressed key = false := isPressed_releaseAll {} key
  have last := cell_foldl (isPressed · key) (isPressed_change key) changes {}
  rw [fresh] at last
  rw [after, last, Option.getD_eq_iff, Held]
  simp only [Bool.false_eq_true, and_false, or_false, lastWrite?_eq_some_iff,
    Change.write?_eq_some_true_iff, Change.write?_eq_none_iff, Change.unconcerned_iff]
  constructor
  · rintro ⟨earlier, _, later, split, rfl, silent⟩
    exact ⟨earlier, later, split, silent⟩
  · rintro ⟨earlier, later, split, silent⟩
    exact ⟨earlier, _, later, split, rfl, silent⟩

end Keypad

/-- The opcode that skips the next instruction if key VX is held, or if it is not. -/
def keyOpcode (held : Bool) (x : Register) : UInt16 :=
  .ofNat (0xE000 + 0x100 * x.val + if held then 0x9E else 0xA1)

theorem decode_keyOpcode (held : Bool) (x : Register) :
    Instruction.decode (.ofWord (keyOpcode held x)) =
      .ok (if held then .skipIfPressed x else .skipIfReleased x) := by
  have known : ∀ (held : Bool) (x : Register), Instruction.decode? (.ofWord (keyOpcode held x)) =
      some (if held then .skipIfPressed x else .skipIfReleased x) := by decide
  rw [Instruction.decode, known]

namespace Machine

/-- The next step moves the program counter by some bytes and does nothing else. -/
def Advances (keys : Key → Bool) (now : Instant) (m : Machine) (distance : UInt16) : Prop :=
  step keys now m = .ok () { m with cpu := { m.cpu with pc := m.cpu.pc + distance } }

theorem moveOn_after_key (keys : Key → Bool) (now : Instant) (m : Machine) (held : Bool)
    (x : Register) :
    (m.after keys now (if held then .skipIfPressed x else .skipIfReleased x)).moveOn =
      { m with cpu := { m.cpu with
        pc := m.cpu.pc + if keys (m.cpu.keyIn x) = held then 4 else 2 } } := by
  have twice : m.cpu.pc + 2 + 2 = m.cpu.pc + 4 := UInt16.add_assoc ..
  have skipped (taken : Bool) : (m.cpu.skipIf taken).advance =
      { m.cpu with pc := m.cpu.pc + if taken then 4 else 2 } := by
    cases taken with
    | true => exact congrArg (fun pc => { m.cpu with pc }) twice
    | false => rfl
  have asked : m.after keys now (if held then .skipIfPressed x else .skipIfReleased x) =
      { m with cpu := m.cpu.skipIf (keys (m.cpu.keyIn x) == held) } := by
    cases held <;> rfl
  rw [asked, moveOn, skipped]
  simp only [beq_iff_eq]

variable {m : Machine} {held : Bool} {x : Register}

/-- The question of either instruction is asked just if its register names a key. -/
theorem current_keyOpcode (fetched : m.cpu.fetch = .ok (keyOpcode held x)) :
    m.cpu.current =
      if (m.cpu.register x).toNat < 16 then
        .ok (if held then .skipIfPressed x else .skipIfReleased x)
      else .error (.notOnKeypad (m.cpu.register x)) := by
  have refused : m.cpu.refusal? (if held then .skipIfPressed x else .skipIfReleased x) =
      if (m.cpu.register x).toNat < 16 then none else some (.notOnKeypad (m.cpu.register x)) := by
    cases held <;> rfl
  simp only [Cpu.current, fetched, bind, Except.bind, decode_keyOpcode, refused]
  by_cases known : (m.cpu.register x).toNat < 16 <;> simp only [known, ↓reduceIte]

theorem advances_keyOpcode (free : m.cpu.awaiting = none)
    (fetched : m.cpu.fetch = .ok (keyOpcode held x)) (known : (m.cpu.register x).toNat < 16)
    (keys : Key → Bool) (now : Instant) :
    m.Advances keys now (if keys ⟨(m.cpu.register x).toNat, known⟩ = held then 4 else 2) := by
  rw [Advances, step_eq, free, current_keyOpcode fetched, if_pos known, ← Cpu.keyIn_eq known]
  exact congrArg _ (moveOn_after_key keys now m held x)

theorem step_keyOpcode_unknown (free : m.cpu.awaiting = none)
    (fetched : m.cpu.fetch = .ok (keyOpcode held x)) (unknown : ¬ (m.cpu.register x).toNat < 16)
    (keys : Key → Bool) (now : Instant) :
    step keys now m = .error (.notOnKeypad (m.cpu.register x)) m := by
  rw [step_eq, free, current_keyOpcode fetched, if_neg unknown]

end Machine

/-- Any presses and releases on a new keypad, and then the two skips. A key is held just if it was
pressed and nothing has released it since the last time, and what was done to other keys makes no
difference. Of one machine with either instruction in its memory, exactly one goes on four bytes
further and not two: the one that skips for a held key if the key that its register names is held, and
the other one if it is not. A register that names no key is a fault for both, which changes
nothing. -/
theorem Keypad.held_decides_skip (changes : List Change) :
    let pad := after changes
    (∀ key, pad.isPressed key ↔ Held changes key) ∧
    (∀ key, pad.isPressed key = (after (changes.filter (·.concerns key))).isPressed key) ∧
    ∀ (now : Instant) (m : Machine) (x : Register) (first second : Memory),
      m.cpu.awaiting = none →
      let pressed : Machine := { m with cpu := { m.cpu with memory := first } }
      let released : Machine := { m with cpu := { m.cpu with memory := second } }
      pressed.cpu.fetch = .ok (keyOpcode true x) → released.cpu.fetch = .ok (keyOpcode false x) →
      (∀ known : (m.cpu.register x).toNat < 16,
        let key : Key := ⟨(m.cpu.register x).toNat, known⟩
        (Held changes key →
          pressed.Advances pad.isPressed now 4 ∧ released.Advances pad.isPressed now 2) ∧
        (¬ Held changes key →
          pressed.Advances pad.isPressed now 2 ∧ released.Advances pad.isPressed now 4)) ∧
      (15 < (m.cpu.register x).toNat →
        Machine.step pad.isPressed now pressed =
          .error (.notOnKeypad (m.cpu.register x)) pressed ∧
        Machine.step pad.isPressed now released =
          .error (.notOnKeypad (m.cpu.register x)) released) := by
  intro pad
  refine ⟨fun _ => isPressed_after_iff, ?_, ?_⟩
  · intro key
    exact (cell_foldl_filter (isPressed · key) (isPressed_change key)
      (fun _ => Change.write?_eq_none_iff.mpr) changes {}).symm
  · intro now m x first second free pressed released onPressed onReleased
    constructor
    · intro known key
      have first : pressed.Advances pad.isPressed now (if pad.isPressed key = true then 4 else 2) :=
        Machine.advances_keyOpcode (m := pressed) free onPressed known pad.isPressed now
      have second :
          released.Advances pad.isPressed now (if pad.isPressed key = false then 4 else 2) :=
        Machine.advances_keyOpcode (m := released) free onReleased known pad.isPressed now
      constructor
      · intro held
        have down : pad.isPressed key = true := isPressed_after_iff.mpr held
        rw [down] at first second
        exact ⟨first, second⟩
      · intro unheld
        have up : pad.isPressed key = false :=
          Bool.eq_false_iff.mpr fun down => unheld (isPressed_after_iff.mp down)
        rw [up] at first second
        exact ⟨first, second⟩
    · intro beyond
      have unknown : ¬ (m.cpu.register x).toNat < 16 := Nat.not_lt.mpr beyond
      exact ⟨Machine.step_keyOpcode_unknown (m := pressed) free onPressed unknown _ now,
        Machine.step_keyOpcode_unknown (m := released) free onReleased unknown _ now⟩

/-- About to ask for the key that V3 names. -/
def asking (code : UInt8) (held : Bool) : Machine :=
  { Machine.new {} (Vector.replicate 8 0) with
    cpu :=
      { v := (Vector.replicate 16 0).set 3 code
        memory := Memory.patch ⟨Vector.replicate 4096 0⟩ 0x200 [0xE3, if held then 0x9E else 0xA1] } }

theorem fetch_asking (code : UInt8) (held : Bool) :
    (asking code held).cpu.fetch = .ok (keyOpcode held 3) := by
  obtain ⟨word, fetched, spelt⟩ := @Memory.word_patch ⟨Vector.replicate 4096 0⟩ 0x200 0
    [0xE3, if held then 0x9E else 0xA1] (show 0x200 + 2 ≤ 4096 by decide) (show 0 + 1 < 2 by decide)
  have same : word = keyOpcode held 3 := by
    refine UInt16.toNat_inj.mp (spelt.trans ?_)
    cases held <;> rfl
  exact same ▸ fetched

/-- Key 5 pressed, released and pressed again while key A goes down and up. -/
def restruck : List Keypad.Change :=
  [.press 0x5, .press 0xA, .release 0x5, .press 0x5, .release 0xA]

theorem Keypad.held_decides_skip_restruck :
    Held restruck 0x5 ∧ (after restruck).isPressed 0xA = false ∧
    (asking 5 true).Advances (after restruck).isPressed 0 4 ∧
    (asking 5 false).Advances (after restruck).isPressed 0 2 ∧
    Machine.step (after restruck).isPressed 0 (asking 16 true) =
      .error (.notOnKeypad 16) (asking 16 true) := by
  obtain ⟨pressed, -, skips⟩ := held_decides_skip restruck
  have held : Held restruck 0x5 := (pressed 0x5).mp (by decide)
  have known := (skips 0 (asking 5 true) 3 (asking 5 true).cpu.memory (asking 5 false).cpu.memory
    rfl (fetch_asking 5 true) (fetch_asking 5 false)).1 (by decide)
  have unknown := (skips 0 (asking 16 true) 3 (asking 16 true).cpu.memory
    (asking 16 false).cpu.memory rfl (fetch_asking 16 true) (fetch_asking 16 false)).2 (by decide)
  exact ⟨held, by decide, (known.1 held).1, (known.1 held).2, unknown.1⟩

end ChipEight
