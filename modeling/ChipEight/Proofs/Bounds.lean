import ChipEight.Proofs.Reference
import ChipEight.Proofs.WellFormed
import Mathlib.Order.Bounds.Basic

/-! When a step leaves memory. A span of bytes is refused if it ends past the last byte, and the fault
names the first of its bytes that does not exist. So a step faults for its addresses just if one of
those that it touches lies past memory, and names the least of these. There is one exception: an
empty span touches nothing, and is refused all the same if it starts past the end of memory. -/
namespace ChipEight

/-- How many bytes at the index an instruction reads or writes, if it has such an operand. -/
def Instruction.operand? : Instruction → Option Nat
  | .draw _ _ n => some n.val
  | .decimal _ => some 3
  | .store x | .load x => some (x.val + 1)
  | _ => none

namespace Instruction

theorem operand?_decodeSystem (op : Opcode) : (decodeSystem op).operand? = none := by
  unfold decodeSystem
  split <;> rfl

theorem operand?_decodeKey (op : Opcode) : (decodeKey? op).bind operand? = none := by
  unfold decodeKey?
  split <;> rfl

theorem operand?_decodeMisc (op : Opcode) :
    (decodeMisc? op).bind operand? =
      match op.kk.toNat with
      | 0x33 => some 3
      | 0x55 | 0x65 => some (op.x.val + 1)
      | _ => none := by
  unfold decodeMisc?
  split <;> simp_all [operand?]

/-- Which opcodes have an operand in memory can be told without decoding them. -/
theorem operand?_eq (raw : UInt16) :
    Reference.operand? raw.toNat = (decode? (.ofWord raw)).bind operand? := by
  have place : raw.toNat / 256 % 16 = (Opcode.ofWord raw).x.val := by
    rw [Reference.x_ofWord]
    rfl
  simp only [Reference.operand?, ← Reference.category_ofWord, ← Reference.n_ofWord,
    ← Opcode.kk_ofWord, place]
  generalize Opcode.ofWord raw = op
  fun_cases decode? op with
  | case1 digit => simp [digit, operand?_decodeSystem]
  | case10 digit => cases RegisterOp.ofNibble? op.n <;> simp [digit, operand?]
  | case17 digit => simp [digit, operand?_decodeKey]
  | case18 =>
    have digit : op.category.val = 0xF := by grind
    rw [operand?_decodeMisc, digit]
    split <;> simp_all
  | _ => simp [*, operand?]

theorem operand?_eq_some_zero_iff (raw : Nat) :
    Reference.operand? raw = some 0 ↔ raw / 4096 = 0xD ∧ raw % 16 = 0 := by
  unfold Reference.operand?
  split <;> simp_all

end Instruction

/-- The least address past memory in a span that is not empty. -/
theorem isLeast_span_iff {start length address : Nat} :
    IsLeast {a | (start ≤ a ∧ a < start + length) ∧ 4095 < a} address ↔
      0 < length ∧ 4096 < start + length ∧ address = max start 4096 := by
  constructor
  · rintro ⟨⟨⟨lower, upper⟩, past⟩, least⟩
    have := least (a := max start 4096) ⟨⟨by omega, by omega⟩, by omega⟩
    omega
  · rintro ⟨some, past, rfl⟩
    refine ⟨⟨⟨by omega, by omega⟩, by omega⟩, ?_⟩
    rintro other ⟨⟨lower, -⟩, beyond⟩
    omega

theorem Memory.spanFault?_eq_some_iff {start length : Nat} {fault : Fault} :
    spanFault? start length = some fault ↔
      4096 < start + length ∧ fault = .outOfBounds (max start 4096) := by
  by_cases exist : start + length ≤ 4096
  · have accepted : spanFault? start length = none := if_pos exist
    simp [accepted, Nat.not_lt.2 exist]
  · have refused : spanFault? start length = some (.outOfBounds (max start 4096)) := if_neg exist
    simp [refused, Nat.lt_of_not_le exist, eq_comm]

namespace Cpu

variable {cpu : Cpu}

theorem fetch_eq_error_iff {fault : Fault} :
    cpu.fetch = .error fault ↔
      4096 < cpu.pc.toNat + 2 ∧ fault = .outOfBounds (max cpu.pc.toNat 4096) := by
  by_cases exist : cpu.pc.toNat + 2 ≤ 4096
  · simp [fetch, cpu.memory.word_eq exist, Nat.not_lt.2 exist]
  · have refused : cpu.fetch = .error (.outOfBounds (max cpu.pc.toNat 4096)) := dif_neg exist
    simp [refused, Nat.lt_of_not_le exist, eq_comm]

theorem refusal?_eq_outOfBounds_iff {instruction : Instruction} {address : Nat} :
    cpu.refusal? instruction = some (.outOfBounds address) ↔
      ∃ length, instruction.operand? = some length ∧ 4096 < cpu.i.toNat + length ∧
        address = max cpu.i.toNat 4096 := by
  cases instruction with
  | draw | decimal | store | load =>
    simp [refusal?, Instruction.operand?, Memory.spanFault?_eq_some_iff]
  | ret | call | skipIfPressed | skipIfReleased =>
    simp only [refusal?, Instruction.operand?]
    split <;> simp
  | _ => simp [refusal?, Instruction.operand?]

/-- The current instruction leaves memory with its own bytes or with those of its operand. -/
theorem current_eq_outOfBounds_iff {address : Nat} :
    cpu.current = .error (.outOfBounds address) ↔
      (4096 < cpu.pc.toNat + 2 ∧ address = max cpu.pc.toNat 4096) ∨
      ∃ raw length, cpu.fetch = .ok raw ∧ Reference.operand? raw.toNat = some length ∧
        4096 < cpu.i.toNat + length ∧ address = max cpu.i.toNat 4096 := by
  cases fetched : cpu.fetch with
  | error fault =>
    have refused := fetch_eq_error_iff.mp fetched
    simp [current, fetched, bind, Except.bind, refused, eq_comm]
  | ok raw =>
    have exist : ¬ 4096 < cpu.pc.toNat + 2 := by
      intro past
      have := fetch_eq_error_iff.mpr ⟨past, rfl⟩
      simp [fetched] at this
    simp only [current, fetched, bind, Except.bind, Instruction.decode, exist, false_and, false_or,
      Except.ok.injEq, exists_and_left, exists_eq_left', Instruction.operand?_eq]
    cases decoded : Instruction.decode? (.ofWord raw) with
    | none => simp
    | some instruction =>
      simp only [Option.bind_some, ← refusal?_eq_outOfBounds_iff]
      cases refused : cpu.refusal? instruction <;> simp

end Cpu

namespace Machine

/-- The next step reads or writes the byte at an address: one of the two of the opcode or, if these
exist, one of the operand at the index. Addresses are numbers and do not wrap. -/
def Touches (m : Machine) (address : Nat) : Prop :=
  (m.cpu.pc.toNat ≤ address ∧ address < m.cpu.pc.toNat + 2) ∨
  ∃ raw length, m.cpu.fetch = .ok raw ∧ Reference.operand? raw.toNat = some length ∧
    m.cpu.i.toNat ≤ address ∧ address < m.cpu.i.toNat + length

theorem touched_of_error {m : Machine} {fault : Fault} (fetched : m.cpu.fetch = .error fault) :
    {a | m.Touches a ∧ 4095 < a} =
      {a | (m.cpu.pc.toNat ≤ a ∧ a < m.cpu.pc.toNat + 2) ∧ 4095 < a} := by
  simp [Touches, fetched]

theorem touched_of_ok {m : Machine} {raw : UInt16} (fetched : m.cpu.fetch = .ok raw) :
    {a | m.Touches a ∧ 4095 < a} =
      {a | (∃ length, Reference.operand? raw.toNat = some length ∧
        m.cpu.i.toNat ≤ a ∧ a < m.cpu.i.toNat + length) ∧ 4095 < a} := by
  have bound := Cpu.fetch_bound fetched
  ext a
  simp only [Touches, fetched, Except.ok.injEq, Set.mem_ofPred_eq, exists_and_left,
    exists_eq_left']
  constructor
  · rintro ⟨opcode | operand, past⟩
    · omega
    · exact ⟨operand, past⟩
  · rintro ⟨operand, past⟩
    exact ⟨.inr operand, past⟩

/-- A step faults for its addresses just if one that it touches lies past memory, or if it draws an
empty sprite and the index lies past the end of memory. It names the least address past memory that
it touches, or the index. -/
theorem outOfBounds_iff (keys : Key → Bool) (now : Instant) {m : Machine}
    (free : m.cpu.awaiting = none) (address : Nat) :
    (∃ next, step keys now m = .error (.outOfBounds address) next) ↔
      IsLeast {a | m.Touches a ∧ 4095 < a} address ∨
      ∃ raw, m.cpu.fetch = .ok raw ∧ raw.toNat / 4096 = 0xD ∧ raw.toNat % 16 = 0 ∧
        4096 < m.cpu.i.toNat ∧ address = m.cpu.i.toNat := by
  simp only [step_eq_error_iff, exists_eq_left, free, true_and, Cpu.current_eq_outOfBounds_iff]
  cases fetched : m.cpu.fetch with
  | error fault =>
    rw [touched_of_error fetched, isLeast_span_iff]
    simp
  | ok raw =>
    have bound := Cpu.fetch_bound fetched
    rw [touched_of_ok fetched]
    have opcode : ¬ 4096 < m.cpu.pc.toNat + 2 := by omega
    simp only [opcode, false_and, false_or, Except.ok.injEq, exists_and_left, exists_eq_left',
      ← and_assoc (a := _ / _ = _), ← Instruction.operand?_eq_some_zero_iff]
    cases operand : Reference.operand? raw.toNat with
    | none => simp [IsLeast]
    | some length =>
      simp only [Option.some.injEq, exists_eq_left', isLeast_span_iff]
      omega

/-- About to store V0 to V3 where there is room for two. -/
def overrunning : Machine :=
  { new {} (Vector.replicate 8 0) with
    cpu :=
      { i := 0xFFE
        memory := Memory.patch ⟨Vector.replicate 4096 0⟩ 0x200 [0xF3, 0x55] } }

theorem outOfBounds_overrunning :
    overrunning.cpu.awaiting = none ∧
      ∃ next, step (fun _ => false) 0 overrunning = .error (.outOfBounds 0x1000) next := by
  have fetched : overrunning.cpu.fetch = .ok 0xF355 := by
    simp [Cpu.fetch, Memory.word, overrunning, programStart, memorySize, Memory.patch, overwrite]
    rfl
  have touched : overrunning.Touches 0x1000 := .inr ⟨0xF355, 4, fetched, rfl, by decide, by decide⟩
  have least : IsLeast {a | overrunning.Touches a ∧ 4095 < a} 0x1000 :=
    ⟨⟨touched, by decide⟩, fun other past => past.2⟩
  exact ⟨rfl, (outOfBounds_iff _ _ rfl _).mpr (.inl least)⟩

/-- Moves the index to 0x1001 and is about to draw an empty sprite there. -/
def unsighted : Machine :=
  let occasion (operation : Operation) : Occasion := ⟨fun _ => false, 0, operation⟩
  run [occasion (.load [0xAF, 0xFF, 0x60, 0x02, 0xF0, 0x1E, 0xD0, 0x00]), occasion .step,
    occasion .step, occasion .step] (new {} (Vector.replicate 8 0))

theorem unsighted_cpu :
    unsighted.cpu.fetch = .ok 0xD000 ∧ unsighted.cpu.i = 0x1001 ∧ unsighted.cpu.awaiting = none := by
  decide +kernel

/-- A fault for an address although no byte past memory is touched. -/
theorem outOfBounds_untouched :
    unsighted.cpu.awaiting = none ∧ (∀ address, unsighted.Touches address → address ≤ 4095) ∧
      ∃ next, step (fun _ => false) 0 unsighted = .error (.outOfBounds 0x1001) next := by
  obtain ⟨fetched, index, free⟩ := unsighted_cpu
  have past : 4096 < unsighted.cpu.i.toNat + 0 ∧ 0x1001 = max unsighted.cpu.i.toNat 4096 := by
    rw [index]
    decide
  have refused : unsighted.cpu.current = .error (.outOfBounds 0x1001) :=
    Cpu.current_eq_outOfBounds_iff.mpr (.inr ⟨0xD000, 0, fetched, rfl, past⟩)
  refine ⟨free, ?_, _, step_eq_error_iff.mpr ⟨rfl, free, refused⟩⟩
  intro address touched
  have bound := Cpu.fetch_bound fetched
  rcases touched with opcode | ⟨raw, length, again, operand, lower, upper⟩
  · omega
  · obtain rfl : 0xD000 = raw := Except.ok.inj (fetched.symm.trans again)
    obtain rfl : 0 = length := Option.some.inj operand
    omega

end Machine
end ChipEight
