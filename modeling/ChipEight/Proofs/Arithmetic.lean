import ChipEight.Proofs.ReferenceStep

/-! Arithmetic on two registers. An operation with a flag solves an equation between integers: the
result in VX and the flag in VF, taken together, are the exact sum or difference, or all the bits of
what was shifted. The equation has no other solution in a byte and a flag of 0 or 1. Where VX is VF
itself, the flag is what stays. -/
namespace ChipEight

namespace RegisterOp

/-- The last digit of the opcodes of an operation. -/
def digit : RegisterOp → Fin 16
  | assign => 0x0
  | or => 0x1
  | and => 0x2
  | xor => 0x3
  | add => 0x4
  | sub => 0x5
  | shiftRight => 0x6
  | subReverse => 0x7
  | shiftLeft => 0xE

/-- What an operation without a flag makes of VX and VY. -/
def combine? : RegisterOp → Option (UInt8 → UInt8 → UInt8)
  | assign => some fun _ b => b
  | or => some fun a b => a ||| b
  | and => some fun a b => a &&& b
  | xor => some fun a b => a ^^^ b
  | add | sub | shiftRight | subReverse | shiftLeft => none

/-- The equation of an operation with a flag, for `a` in VX, `b` in VY and `s` in the register that is
shifted. The flag of a subtraction is 0 if it borrows. -/
def Solves (op : RegisterOp) (a b s result flag : Int) : Prop :=
  match op with
  | assign | or | and | xor => False
  | add => result + 256 * flag = a + b
  | sub => result + b = a + 256 * (1 - flag)
  | shiftRight => 2 * result + flag = s
  | subReverse => result + a = b + 256 * (1 - flag)
  | shiftLeft => result + 256 * flag = 2 * s

instance (op : RegisterOp) (a b s result flag : Int) : Decidable (op.Solves a b s result flag) :=
  match op with
  | assign | or | and | xor => inferInstanceAs (Decidable False)
  | add | sub | shiftRight | subReverse | shiftLeft => inferInstanceAs (Decidable (_ = _))

/-- The registers `v` are what an operation with destination VX makes of the registers `old`. -/
structure Gives (op : RegisterOp) (x : Register) (a b s : UInt8) (old v : Vector UInt8 16) : Prop where
  others : ∀ r, r ≠ x → r ≠ flagRegister → v.get r = old.get r
  combined : ∀ combine, op.combine? = some combine →
    v.get x = combine a b ∧ (x ≠ flagRegister → v.get flagRegister = old.get flagRegister)
  solved : op.combine? = none →
    ∃ result flag : UInt8, (flag = 0 ∨ flag = 1) ∧
      op.Solves a.toNat b.toNat s.toNat result.toNat flag.toNat ∧
      (∀ other carried : UInt8, (carried = 0 ∨ carried = 1) →
        op.Solves a.toNat b.toNat s.toNat other.toNat carried.toNat →
        other = result ∧ carried = flag) ∧
      v.get flagRegister = flag ∧ (x ≠ flagRegister → v.get x = result)

theorem apply_of_combine {op : RegisterOp} {combine : UInt8 → UInt8 → UInt8}
    (flagless : op.combine? = some combine) (a b s : UInt8) : op.apply a b s = (combine a b, none) := by
  cases op <;> cases flagless <;> rfl

theorem flag_iff {flag : UInt8} : flag = 0 ∨ flag = 1 ↔ flag.toNat ≤ 1 := by
  have bit : flag.toNat = 0 ∨ flag.toNat = 1 ↔ flag.toNat ≤ 1 := by omega
  simpa [← UInt8.toNat_inj] using bit

/-- What an operation with a flag computes solves its equation. -/
theorem apply_solves {op : RegisterOp} (flagged : op.combine? = none) (a b s : UInt8) :
    ∃ result flag, op.apply a b s = (result, some flag) ∧ (flag = 0 ∨ flag = 1) ∧
      op.Solves a.toNat b.toNat s.toNat result.toNat flag.toNat := by
  have := a.toNat_lt
  have := b.toNat_lt
  have := s.toNat_lt
  simp only [flag_iff]
  cases op with
  | assign | or | and | xor => contradiction
  | add =>
    refine ⟨_, _, rfl, ?_⟩
    simp only [Solves, UInt8.toNat_add, Reference.toNat_carry]
    omega
  | sub =>
    refine ⟨_, _, rfl, ?_⟩
    simp only [Solves, Reference.toNat_sub, Reference.toNat_noBorrow]
    omega
  | subReverse =>
    refine ⟨_, _, rfl, ?_⟩
    simp only [Solves, Reference.toNat_sub, Reference.toNat_noBorrow]
    omega
  | shiftRight =>
    refine ⟨_, _, rfl, ?_⟩
    simp only [Solves, Reference.toNat_shiftRight_one, Reference.toNat_and_one]
    omega
  | shiftLeft =>
    refine ⟨_, _, rfl, ?_⟩
    simp only [Solves, Reference.toNat_shiftLeft_one, Reference.toNat_shiftRight_seven]
    omega

theorem Solves.unique {op : RegisterOp} {a b s : Int} {result flag other carried : UInt8}
    (first : op.Solves a b s result.toNat flag.toNat) (second : op.Solves a b s other.toNat carried.toNat)
    (one : flag = 0 ∨ flag = 1) (two : carried = 0 ∨ carried = 1) :
    other = result ∧ carried = flag := by
  have := result.toNat_lt
  have := other.toNat_lt
  rw [flag_iff] at one two
  rw [← UInt8.toNat_inj, ← UInt8.toNat_inj]
  cases op <;> simp only [Solves] at first second <;> omega

theorem apply_shift {op : RegisterOp} (shifts : op = .shiftRight ∨ op = .shiftLeft) (s : UInt8) :
    ∃ result flag, ∀ a b, op.apply a b s = (result, some flag) := by
  rcases shifts with rfl | rfl <;> exact ⟨_, _, fun _ _ => rfl⟩

end RegisterOp

namespace Cpu

theorem setRegister_setRegister (cpu : Cpu) (x : Register) (first second : UInt8) :
    (cpu.setRegister x first).setRegister x second = cpu.setRegister x second := by
  simp [setRegister]

end Cpu

namespace Machine

variable {m : Machine} {op : RegisterOp} {x y : Register} {result flag : UInt8}

theorem alu_of_flagless
    (applied : op.apply (m.cpu.register x) (m.cpu.register y) (Reference.source m x y) = (result, none)) :
    m.cpu.alu m.settings.shiftOperand op x y = m.cpu.setRegister x result := by
  rw [Reference.alu_eq, applied]

theorem alu_of_flagged
    (applied : op.apply (m.cpu.register x) (m.cpu.register y) (Reference.source m x y) =
      (result, some flag)) :
    m.cpu.alu m.settings.shiftOperand op x y =
      (m.cpu.setRegister x result).setRegister flagRegister flag := by
  rw [Reference.alu_eq, applied]

theorem alu_gives (m : Machine) (op : RegisterOp) (x y : Register) :
    op.Gives x (m.cpu.register x) (m.cpu.register y) (Reference.source m x y) m.cpu.v
      (m.cpu.alu m.settings.shiftOperand op x y).v := by
  cases flagless : op.combine? with
  | some combine =>
    have computed := alu_of_flagless (RegisterOp.apply_of_combine flagless (m.cpu.register x)
      (m.cpu.register y) (Reference.source m x y))
    have holds (r : Register) : (m.cpu.alu m.settings.shiftOperand op x y).v.get r =
        if r = x then combine (m.cpu.register x) (m.cpu.register y) else m.cpu.v.get r := by
      rw [computed]
      exact m.cpu.register_setRegister x r _
    refine ⟨?_, ?_, by simp [flagless]⟩
    · intro r apart _
      rw [holds, if_neg apart]
    · intro other same
      obtain rfl := Option.some.inj (flagless.symm.trans same)
      refine ⟨by rw [holds, if_pos rfl], fun apart => ?_⟩
      rw [holds, if_neg (Ne.symm apart)]
  | none =>
    obtain ⟨result, flag, applied, bit, solves⟩ := RegisterOp.apply_solves flagless
      (m.cpu.register x) (m.cpu.register y) (Reference.source m x y)
    have computed := alu_of_flagged applied
    have holds (r : Register) : (m.cpu.alu m.settings.shiftOperand op x y).v.get r =
        if r = flagRegister then flag else if r = x then result else m.cpu.v.get r := by
      rw [computed]
      exact ((m.cpu.setRegister x result).register_setRegister flagRegister r flag).trans
        (congrArg _ (m.cpu.register_setRegister x r result))
    refine ⟨?_, by simp [flagless], fun _ => ⟨result, flag, bit, solves, ?_, ?_, ?_⟩⟩
    · intro r apart unflagged
      rw [holds, if_neg unflagged, if_neg apart]
    · intro other carried bit' solves'
      exact solves.unique solves' bit bit'
    · rw [holds, if_pos rfl]
    · intro apart
      rw [holds, if_neg apart, if_pos rfl]

theorem alu_shift_vx (shifts : op = .shiftRight ∨ op = .shiftLeft) (apart : x ≠ y)
    (operand : m.settings.shiftOperand = .vx) (w : UInt8) {r : Register}
    (visible : r ≠ y ∨ r = flagRegister) :
    ((m.cpu.setRegister y w).alu m.settings.shiftOperand op x y).register r =
      (m.cpu.alu m.settings.shiftOperand op x y).register r := by
  let other := { m with cpu := m.cpu.setRegister y w }
  have here : Reference.source m x y = m.cpu.register x := by rw [Reference.source, operand]
  have there : Reference.source other x y = m.cpu.register x := by
    simp only [Reference.source, other, operand, Cpu.register_setRegister, if_neg apart]
  obtain ⟨result, flag, applied⟩ := RegisterOp.apply_shift shifts (m.cpu.register x)
  rw [show (m.cpu.setRegister y w).alu m.settings.shiftOperand op x y = _ from
      alu_of_flagged (m := other) (by rw [there]; exact applied _ _),
    alu_of_flagged (m := m) (by rw [here]; exact applied _ _)]
  simp only [Cpu.register_setRegister, other]
  rcases visible with apart' | rfl
  · rw [if_neg apart']
  · simp only [↓reduceIte]

theorem alu_shift_vy (shifts : op = .shiftRight ∨ op = .shiftLeft) (apart : x ≠ y)
    (operand : m.settings.shiftOperand = .vy) (w : UInt8) :
    (m.cpu.setRegister x w).alu m.settings.shiftOperand op x y =
      m.cpu.alu m.settings.shiftOperand op x y := by
  let other := { m with cpu := m.cpu.setRegister x w }
  have here : Reference.source m x y = m.cpu.register y := by rw [Reference.source, operand]
  have there : Reference.source other x y = m.cpu.register y := by
    simp only [Reference.source, other, operand, Cpu.register_setRegister, if_neg apart.symm]
  obtain ⟨result, flag, applied⟩ := RegisterOp.apply_shift shifts (m.cpu.register y)
  rw [show (m.cpu.setRegister x w).alu m.settings.shiftOperand op x y = _ from
      alu_of_flagged (m := other) (by rw [there]; exact applied _ _),
    alu_of_flagged (m := m) (by rw [here]; exact applied _ _), Cpu.setRegister_setRegister]

/-- Arithmetic as an instruction. It is never refused and changes no more than VX, VF and, in a step,
the program counter. What the two registers come to is told by `RegisterOp.Gives`. Where X and Y
differ, a shift of VX takes nothing from VY, and a shift of VY nothing from VX. -/
theorem calculates_exactly (keys : Key → Bool) (now : Instant) (m : Machine) (op : RegisterOp)
    (x y : Register) :
    ∃ v : Vector UInt8 16,
      execute keys now (.alu op x y) m = .ok () { m with cpu := { m.cpu with v } } ∧
      (∀ word, m.cpu.awaiting = none → m.cpu.fetch = .ok word →
        Opcode.ofWord word = ⟨8, x, y, op.digit⟩ →
        step keys now m = .ok () { m with cpu := { m.cpu with v, pc := m.cpu.pc + 2 } }) ∧
      op.Gives x (m.cpu.register x) (m.cpu.register y)
        (match m.settings.shiftOperand with
          | .vx => m.cpu.register x
          | .vy => m.cpu.register y)
        m.cpu.v v ∧
      (op = .shiftRight ∨ op = .shiftLeft → x ≠ y → ∀ w,
        (m.settings.shiftOperand = .vx →
          ∃ other, execute keys now (.alu op x y) { m with cpu := m.cpu.setRegister y w } =
              .ok () { m with cpu := { m.cpu with v := other } } ∧
            ∀ r, r ≠ y ∨ r = flagRegister → other.get r = v.get r) ∧
        (m.settings.shiftOperand = .vy →
          execute keys now (.alu op x y) { m with cpu := m.cpu.setRegister x w } =
            .ok () { m with cpu := { m.cpu with v } })) := by
  obtain ⟨v, computed⟩ := m.cpu.alu_registers m.settings.shiftOperand op x y
  have next : m.after keys now (.alu op x y) = { m with cpu := { m.cpu with v } } := by
    rw [after, computed]
  refine ⟨v, by rw [execute_eq, next]; rfl, ?_, ?_, fun shifts apart w => ⟨?_, ?_⟩⟩
  · intro word free fetched fields
    have decoded : Instruction.decode (.ofWord word) = .ok (.alu op x y) := by
      rw [fields]
      cases op <;> rfl
    have current : m.cpu.current = .ok (.alu op x y) := by
      simp only [Cpu.current, fetched, decoded, bind, Except.bind, Cpu.refusal?]
    simp only [step_eq, free, current, next, moveOn, Cpu.advance]
  · have gives := alu_gives m op x y
    rw [computed] at gives
    exact gives
  · intro operand
    obtain ⟨other, computed'⟩ :=
      (m.cpu.setRegister y w).alu_registers m.settings.shiftOperand op x y
    refine ⟨other, ?_, ?_⟩
    · rw [execute_eq, after, computed']
      rfl
    · intro r visible
      have same := alu_shift_vx shifts apart operand w visible
      rw [computed, computed'] at same
      exact same
  · intro operand
    rw [execute_eq, after, alu_shift_vy shifts apart operand w, computed]
    rfl

/-- About to subtract VF from VE, with the result to go to VF. -/
def overruled : Machine :=
  { new { shiftOperand := .vy } (Vector.replicate 8 0) with
    cpu :=
      { v := overwrite (Vector.replicate 16 0) 0xE [5, 3]
        memory := Memory.patch ⟨Vector.replicate 4096 0⟩ 0x200 [0x8F, 0xE7] } }

theorem calculates_exactly_overruled :
    (∃ v : Vector UInt8 16, v.get flagRegister = 1 ∧
      step (fun _ => false) 0 overruled =
        .ok () { overruled with cpu := { overruled.cpu with v, pc := 0x202 } }) ∧
    execute (fun _ => false) 0 (.alu .shiftRight 0xE 0xF)
        { overruled with cpu := overruled.cpu.setRegister 0xE 200 } =
      execute (fun _ => false) 0 (.alu .shiftRight 0xE 0xF) overruled := by
  constructor
  · obtain ⟨v, -, stepped, gives, -⟩ :=
      calculates_exactly (fun _ => false) 0 overruled .subReverse 0xF 0xE
    have fetched : overruled.cpu.fetch = .ok 0x8FE7 := by
      simp [Cpu.fetch, Memory.word, overruled, programStart, memorySize, Memory.patch, overwrite]
      rfl
    obtain ⟨_, flag, -, -, unique, flagged, -⟩ := gives.solved rfl
    have one : (1 : UInt8) = flag := (unique 2 1 (.inr rfl) (by decide)).2
    exact ⟨v, flagged.trans one.symm, stepped 0x8FE7 rfl fetched rfl⟩
  · obtain ⟨v, executed, -, -, independent⟩ :=
      calculates_exactly (fun _ => false) 0 overruled .shiftRight 0xE 0xF
    rw [executed]
    exact (independent (.inl rfl) (by decide) 200).2 rfl

end Machine
end ChipEight
