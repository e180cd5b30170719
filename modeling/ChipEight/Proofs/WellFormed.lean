import ChipEight.Proofs.Events
import ChipEight.Proofs.Run

/-! What holds of the processor whatever was done to the machine. The call stack has at most
sixteen entries, all of them addresses of calls, and the program counter is not far beyond memory.
The bound on the program counter rests on that on the entries, which rests on the check that a
fetch makes. -/
namespace ChipEight

namespace Cpu

structure WellFormed (cpu : Cpu) : Prop where
  depth : cpu.stack.length ≤ 16
  entries : ∀ entry ∈ cpu.stack, entry.toNat ≤ 0xFFE
  pc : cpu.pc.toNat ≤ 0x10FE

theorem fetch_bound {cpu : Cpu} (fetched : cpu.fetch = .ok word) : cpu.pc.toNat ≤ 0xFFE := by
  simp only [fetch, Memory.word] at fetched
  split at fetched
  next exist =>
    simp only [memorySize] at exist
    omega
  next => contradiction

theorem current_ok {cpu : Cpu} {instruction : Instruction} (current : cpu.current = .ok instruction) :
    cpu.pc.toNat ≤ 0xFFE ∧ cpu.refusal? instruction = none := by
  simp only [Cpu.current, bind, Except.bind] at current
  cases fetched : cpu.fetch with
  | error fault => simp [fetched] at current
  | ok word =>
    cases decoded : Instruction.decode (.ofWord word) with
    | error fault => simp [fetched, decoded] at current
    | ok candidate =>
      cases refused : cpu.refusal? candidate with
      | some fault => simp [fetched, decoded, refused] at current
      | none =>
        simp only [fetched, decoded, refused, Except.ok.injEq] at current
        exact ⟨fetch_bound fetched, current ▸ refused⟩

theorem refusal_call {cpu : Cpu} (accepted : cpu.refusal? (.call addr) = none) :
    cpu.stack.length < 16 := by
  by_cases room : cpu.stack.length < stackDepth
  · exact room
  · simp [refusal?, room] at accepted

def target? (cpu : Cpu) : Instruction → Option Nat
  | .jump addr | .call addr => some addr.val
  | .jumpOffset addr => some (addr.val + (cpu.register 0).toNat)
  | _ => none

theorem target_bound {cpu : Cpu} (jumps : cpu.target? instruction = some target) :
    target ≤ 0x10FE := by
  have := (cpu.register 0).toNat_lt
  cases instruction <;> simp only [target?, Option.some.injEq, reduceCtorEq] at jumps
  all_goals
    rename Address => addr
    have := addr.isLt
    omega

end Cpu

namespace Machine

/-- A jump aims two bytes before its target. -/
theorem after_pc_of_target (keys : Key → Bool) (now : Instant) {m : Machine}
    {instruction : Instruction} (jumps : m.cpu.target? instruction = some target) :
    (m.after keys now instruction).cpu.pc = .ofNat target - 2 := by
  cases instruction <;> simp only [Cpu.target?, Option.some.injEq, reduceCtorEq] at jumps
  case jumpOffset addr =>
    rw [← jumps]
    simp [after]
  all_goals
    rw [← jumps]
    rfl

/-- Anything else goes to the latest entry of the stack, stays or skips. -/
theorem after_pc_of_none (keys : Key → Bool) (now : Instant) {m : Machine}
    {instruction : Instruction} (straight : m.cpu.target? instruction = none) :
    (instruction = .ret ∧ (m.after keys now instruction).cpu.pc = m.cpu.stack.headD 0) ∨
    (m.after keys now instruction).cpu.pc = m.cpu.pc ∨
    (m.after keys now instruction).cpu.pc = m.cpu.pc + 2 := by
  have skipped (taken : Bool) : (m.cpu.skipIf taken).pc = m.cpu.pc ∨
      (m.cpu.skipIf taken).pc = m.cpu.pc + 2 := by
    cases taken
    · exact .inl rfl
    · exact .inr rfl
  cases instruction with
  | ret => exact .inl ⟨rfl, rfl⟩
  | jump | call | jumpOffset => contradiction
  | skipIfEqual | skipIfNotEqual | skipIfSame | skipIfDifferent | skipIfPressed | skipIfReleased =>
    exact .inr (skipped _)
  | alu op x y =>
    obtain ⟨v, same⟩ := m.cpu.alu_registers m.settings.shiftOperand op x y
    exact .inr (.inl (by rw [after, same]))
  | _ => exact .inr (.inl rfl)

theorem after_stack (keys : Key → Bool) (now : Instant) (m : Machine) (instruction : Instruction) :
    (m.after keys now instruction).cpu.stack =
      match instruction with
      | .ret => m.cpu.stack.tail
      | .call _ => m.cpu.pc :: m.cpu.stack
      | _ => m.cpu.stack := by
  have skipped (taken : Bool) : (m.cpu.skipIf taken).stack = m.cpu.stack := by
    cases taken <;> rfl
  cases instruction with
  | skipIfEqual | skipIfNotEqual | skipIfSame | skipIfDifferent | skipIfPressed | skipIfReleased =>
    exact skipped _
  | alu op x y =>
    obtain ⟨v, same⟩ := m.cpu.alu_registers m.settings.shiftOperand op x y
    rw [after, same]
  | _ => rfl

theorem after_wellFormed (keys : Key → Bool) (now : Instant) {m : Machine}
    {instruction : Instruction} (wellFormed : m.cpu.WellFormed)
    (current : m.cpu.current = .ok instruction) :
    (m.after keys now instruction).moveOn.cpu.WellFormed := by
  obtain ⟨fetched, accepted⟩ := Cpu.current_ok current
  refine ⟨?_, ?_, ?_⟩
  · show (m.after keys now instruction).cpu.stack.length ≤ 16
    have depth := wellFormed.depth
    rw [after_stack]
    split
    · rw [List.length_tail]
      omega
    · have room := Cpu.refusal_call accepted
      rw [List.length_cons]
      omega
    · exact depth
  · show ∀ entry ∈ (m.after keys now instruction).cpu.stack, entry.toNat ≤ 0xFFE
    intro entry member
    rw [after_stack] at member
    split at member
    · exact wellFormed.entries entry (List.mem_of_mem_tail member)
    · rcases List.mem_cons.mp member with rfl | old
      · exact fetched
      · exact wellFormed.entries entry old
    · exact wellFormed.entries entry member
  · show ((m.after keys now instruction).cpu.pc + 2).toNat ≤ 0x10FE
    cases jumps : m.cpu.target? instruction with
    | some target =>
      have := Cpu.target_bound jumps
      simp [after_pc_of_target keys now jumps]
      omega
    | none =>
      rcases after_pc_of_none keys now jumps with ⟨rfl, pc⟩ | pc | pc
      · cases called : m.cpu.stack with
        | nil => simp [Cpu.refusal?, called] at accepted
        | cons entry rest =>
          have := wellFormed.entries entry (called ▸ List.mem_cons_self)
          simp [pc, called]
          omega
      · simp [pc]
        omega
      · simp [pc]
        omega

/-- What an operation may do to the processor. -/
inductive Deed (m : Machine) : Cpu → Prop
  | nothing : Deed m m.cpu
  | loaded (program : List UInt8) (fits : program.length ≤ programLimit) :
    Deed m { m.cpu with memory := m.cpu.memory.patch programStart program }
  | carriedOut (keys : Key → Bool) (now : Instant) (free : m.cpu.awaiting = none)
    (current : m.cpu.current = .ok instruction) :
    Deed m (m.after keys now instruction).moveOn.cpu
  | given (key : Key) (awaited : m.cpu.awaiting = some x) :
    Deed m { m.cpu.setRegister x key.code with awaiting := none }
  | released : Deed m { m.cpu with awaiting := none }

theorem cpu_left_step (keys : Key → Bool) (now : Instant) (m : Machine) :
    (left (step keys now m)).cpu = m.stepped keys now m.cpu := by
  rw [step_eq, stepped]
  cases m.cpu.awaiting with
  | some x => rfl
  | none => cases m.cpu.current <;> rfl

theorem deed_stepped (keys : Key → Bool) (now : Instant) {m : Machine} {faulted : Cpu}
    (recovers : Deed m faulted) : Deed m (m.stepped keys now faulted) := by
  unfold stepped
  cases free : m.cpu.awaiting with
  | some x => exact .nothing
  | none =>
    cases current : m.cpu.current with
    | error fault => exact recovers
    | ok instruction => exact .carriedOut keys now free current

theorem deed_load (program : List UInt8) (m : Machine) : Deed m (left (load program m)).cpu := by
  rw [left_load]
  split
  next fits => exact .loaded program fits
  next => exact .nothing

theorem deed_giveKey (key : Key) (m : Machine) : Deed m (m.giveKey key).1.cpu := by
  unfold giveKey
  split
  next x awaited => exact .given key awaited
  next => exact .nothing

/-- Whatever is done to a machine does one of five things to its processor. -/
theorem deed_operate (m : Machine) (occasion : Occasion) : Deed m (m.operate occasion).cpu := by
  obtain ⟨keys, now, operation⟩ := occasion
  cases operation with
  | load program => exact deed_load program m
  | loadFrom reads =>
    simp only [operate, left_loadFrom]
    cases reads.gather with
    | ok pieces => exact deed_load _ m
    | error cause => exact .nothing
  | start => exact .nothing
  | step =>
    simp only [operate, cpu_left_step]
    exact deed_stepped keys now .nothing
  | giveKey key => exact deed_giveKey key m
  | perform task due =>
    cases task with
    | cycle =>
      simp only [operate, cpu_perform_cycle]
      exact deed_stepped keys now .released
    | delay | sound => exact .nothing
  | receive signal =>
    simp only [operate, cpu_receive]
    cases signal with
    | keyDown key => exact deed_giveKey key m
    | stop => exact .released

theorem Deed.wellFormed {m : Machine} {next : Cpu} (deed : Deed m next)
    (wellFormed : m.cpu.WellFormed) : next.WellFormed := by
  cases deed with
  | carriedOut keys now free current => exact after_wellFormed keys now wellFormed current
  | _ => exact ⟨wellFormed.depth, wellFormed.entries, wellFormed.pc⟩

theorem new_wellFormed (settings : Settings) (entropy : StreamKey) :
    (new settings entropy).cpu.WellFormed :=
  ⟨by simp [new], by simp [new], by simp [new, programStart]⟩

theorem run_wellFormed (settings : Settings) (entropy : StreamKey) (occasions : List Occasion) :
    (run occasions (new settings entropy)).cpu.WellFormed :=
  @run_invariant (fun m => m.cpu.WellFormed)
    (fun m occasion wellFormed => (deed_operate m occasion).wellFormed wellFormed)
    occasions _ (new_wellFormed settings entropy)

end Machine
end ChipEight
