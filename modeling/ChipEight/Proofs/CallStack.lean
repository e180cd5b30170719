import ChipEight.Proofs.WellFormed
import Mathlib.Data.List.Infix

/-! Calls and returns over whole runs. The call stack holds the addresses of the calls that no
return has answered, which can be told from the instructions carried out alone. While a subroutine
lasts, the entries below it stay as they are, and the return that ends it goes back behind its call,
whatever else was done in between. -/
namespace ChipEight

structure Execution where
  address : UInt16
  instruction : Instruction

namespace Execution

def isCall (execution : Execution) : Bool :=
  match execution.instruction with
  | .call _ => true
  | _ => false

def isReturn (execution : Execution) : Bool :=
  match execution.instruction with
  | .ret => true
  | _ => false

end Execution

namespace Machine

def executes? (m : Machine) (occasion : Occasion) : Option Instruction :=
  match occasion.operation with
  | .step => m.carriesOut? occasion.keys occasion.now
  | .perform .cycle _ =>
    { m with agenda := m.agenda.cancel .cycle }.carriesOut? occasion.keys occasion.now
  | _ => none

/-- The instructions that a run carries out. -/
def trace : List Occasion → Machine → List Execution
  | [], _ => []
  | occasion :: rest, m =>
    ((m.executes? occasion).map (Execution.mk m.cpu.pc)).toList ++ trace rest (m.operate occasion)

theorem carriesOut?_agenda (keys : Key → Bool) (now : Instant) (m : Machine) (agenda : Agenda) :
    { m with agenda }.carriesOut? keys now = m.carriesOut? keys now := by
  refine Option.ext fun instruction => ?_
  simp only [carriesOut?_eq_some_iff]

theorem stepped_of_carriesOut {keys : Key → Bool} {now : Instant} {m : Machine}
    {instruction : Instruction} (carried : m.carriesOut? keys now = some instruction) (faulted : Cpu) :
    m.stepped keys now faulted = (m.after keys now instruction).moveOn.cpu := by
  obtain ⟨free, current⟩ := carriesOut?_eq_some_iff.mp carried
  simp only [stepped, free, current]

theorem stepped_idle {keys : Key → Bool} {now : Instant} {m : Machine}
    (idle : m.carriesOut? keys now = none) (faulted : Cpu) :
    m.stepped keys now faulted = m.cpu ∨ m.stepped keys now faulted = faulted := by
  unfold stepped
  cases free : m.cpu.awaiting with
  | some x => exact .inl rfl
  | none =>
    cases current : m.cpu.current with
    | error fault => exact .inr rfl
    | ok instruction => simp [carriesOut?_eq_some_iff.mpr ⟨free, current⟩] at idle

/-- To carry out an instruction is all that an occasion does to the processor. -/
theorem cpu_operate {m : Machine} {occasion : Occasion} {instruction : Instruction}
    (executes : m.executes? occasion = some instruction) :
    m.cpu.current = .ok instruction ∧
      (m.operate occasion).cpu = (m.after occasion.keys occasion.now instruction).moveOn.cpu := by
  obtain ⟨keys, now, operation⟩ := occasion
  cases operation with
  | step =>
    refine ⟨(carriesOut?_eq_some_iff.mp executes).2, ?_⟩
    rw [operate, cpu_left_step]
    exact stepped_of_carriesOut executes _
  | perform task due =>
    cases task with
    | cycle =>
      have carried : m.carriesOut? keys now = some instruction :=
        (carriesOut?_agenda ..).symm.trans executes
      refine ⟨(carriesOut?_eq_some_iff.mp carried).2, ?_⟩
      rw [operate, cpu_perform_cycle]
      exact stepped_of_carriesOut carried _
    | delay | sound => contradiction
  | load | loadFrom | start | giveKey | receive => contradiction

/-- What an occasion without an instruction may do to the processor: put a key into a register, end
a wait, or load. -/
theorem cpu_operate_idle {m : Machine} {occasion : Occasion}
    (idle : m.executes? occasion = none) :
    (∃ v awaiting, (m.operate occasion).cpu = { m.cpu with v, awaiting }) ∨
      (occasion.operation.loads ∧ ∃ memory, (m.operate occasion).cpu = { m.cpu with memory }) := by
  obtain ⟨keys, now, operation⟩ := occasion
  have unchanged : ∃ v awaiting, m.cpu = { m.cpu with v, awaiting } := ⟨_, _, rfl⟩
  have given (key : Key) : ∃ v awaiting, (m.giveKey key).1.cpu = { m.cpu with v, awaiting } := by
    unfold giveKey
    split
    · exact ⟨_, _, rfl⟩
    · exact unchanged
  have loaded (program : List UInt8) :
      ∃ memory, (left (load program m)).cpu = { m.cpu with memory } := by
    rw [left_load]
    split <;> exact ⟨_, rfl⟩
  cases operation with
  | load program => exact .inr ⟨rfl, loaded program⟩
  | loadFrom reads =>
    refine .inr ⟨rfl, ?_⟩
    simp only [operate, left_loadFrom]
    cases reads.gather with
    | ok pieces => exact loaded _
    | error cause => exact ⟨_, rfl⟩
  | start => exact .inl unchanged
  | step =>
    rw [operate, cpu_left_step]
    rcases stepped_idle idle m.cpu with same | same <;> exact .inl ⟨_, _, same⟩
  | giveKey key => exact .inl (given key)
  | perform task due =>
    cases task with
    | cycle =>
      rw [operate, cpu_perform_cycle]
      rcases stepped_idle ((carriesOut?_agenda ..).symm.trans idle) { m.cpu with awaiting := none }
        with same | same <;> exact .inl ⟨_, _, same⟩
    | delay | sound => exact .inl unchanged
  | receive signal =>
    rw [operate, cpu_receive]
    cases signal with
    | keyDown key => exact .inl (given key)
    | stop => exact .inl ⟨_, _, rfl⟩

theorem stack_operate {m : Machine} {occasion : Occasion} (idle : m.executes? occasion = none) :
    (m.operate occasion).cpu.stack = m.cpu.stack := by
  rcases cpu_operate_idle idle with ⟨v, awaiting, same⟩ | ⟨-, memory, same⟩ <;> rw [same]

/-- What an occasion may do to the stack. -/
inductive StackStep (m : Machine) (executed : Option Instruction) (next : Cpu) : Prop
  | call {target : Address} (executes : executed = some (.call target))
    (room : m.cpu.stack.length < 16) (pushed : next.stack = m.cpu.pc :: m.cpu.stack)
  | ret {entry : UInt16} {rest : List UInt16} (executes : executed = some .ret)
    (called : m.cpu.stack = entry :: rest) (popped : next.stack = rest) (pc : next.pc = entry + 2)
  | other (uncalled : ∀ target, executed ≠ some (.call target)) (unreturned : executed ≠ some .ret)
    (same : next.stack = m.cpu.stack)

theorem stackStep (m : Machine) (occasion : Occasion) :
    m.StackStep (m.executes? occasion) (m.operate occasion).cpu := by
  cases executed : m.executes? occasion with
  | none => exact .other (by simp) (by simp) (stack_operate executed)
  | some instruction =>
    obtain ⟨current, next⟩ := cpu_operate executed
    have accepted := (Cpu.current_ok current).2
    have stack := after_stack occasion.keys occasion.now m instruction
    cases instruction with
    | call target =>
      refine .call rfl (Cpu.refusal_call accepted) ?_
      rw [next]
      exact stack
    | ret =>
      cases called : m.cpu.stack with
      | nil => simp [Cpu.refusal?, called] at accepted
      | cons entry rest =>
        refine .ret rfl called ?_ ?_
        · rw [next]
          exact stack.trans (by rw [called, List.tail_cons])
        · rw [next]
          simp [moveOn, after, Cpu.advance, called]
    | _ =>
      refine .other (by simp) (by simp) ?_
      rw [next]
      exact stack

end Machine

/-! ## Calls that wait for their return -/

def calls (past : List Execution) : Nat := past.countP Execution.isCall

def returns (past : List Execution) : Nat := past.countP Execution.isReturn

/-- No part of what followed a call has more returns than calls, so none has answered it. -/
def Unanswered (rest : List Execution) : Prop :=
  ∀ k, k ≤ rest.length → returns (rest.take k) ≤ calls (rest.take k)

instance (rest : List Execution) : Decidable (Unanswered rest) :=
  inferInstanceAs (Decidable (∀ k, k ≤ rest.length → returns (rest.take k) ≤ calls (rest.take k)))

/-- Where the calls stood that wait for their return, in order. -/
def openCalls : List Execution → List UInt16
  | [] => []
  | execution :: rest =>
    if execution.isCall ∧ Unanswered rest then execution.address :: openCalls rest
    else openCalls rest

/-- How many returns answer calls made before. -/
def surplus : List Execution → Nat
  | [] => 0
  | execution :: rest =>
    if execution.isReturn then surplus rest + 1
    else if execution.isCall then surplus rest - 1
    else surplus rest

theorem Execution.not_isCall_of_isReturn {execution : Execution} (returns : execution.isReturn) :
    execution.isCall = false := by
  obtain ⟨address, instruction⟩ := execution
  cases instruction with
  | ret => rfl
  | _ => contradiction

theorem calls_cons (execution : Execution) (rest : List Execution) :
    calls (execution :: rest) = calls rest + if execution.isCall then 1 else 0 :=
  List.countP_cons ..

theorem returns_cons (execution : Execution) (rest : List Execution) :
    returns (execution :: rest) = returns rest + if execution.isReturn then 1 else 0 :=
  List.countP_cons ..

theorem surplus_le_iff {rest : List Execution} {n : Nat} :
    surplus rest ≤ n ↔ ∀ k, k ≤ rest.length → returns (rest.take k) ≤ calls (rest.take k) + n := by
  induction rest generalizing n with
  | nil => simp [surplus, returns]
  | cons execution rest ih =>
    have shifted : (∀ k, k ≤ (execution :: rest).length →
          returns ((execution :: rest).take k) ≤ calls ((execution :: rest).take k) + n) ↔
        ∀ k, k ≤ rest.length →
          returns (execution :: rest.take k) ≤ calls (execution :: rest.take k) + n := by
      constructor
      · intro all k bound
        exact all (k + 1) (Nat.succ_le_succ bound)
      · rintro all (_ | k) bound
        · exact Nat.zero_le _
        · exact all k (Nat.le_of_succ_le_succ bound)
    -- The empty part says nothing, so only parts that begin with this execution count.
    simp only [shifted, calls_cons, returns_cons, surplus]
    by_cases answers : execution.isReturn
    · simp only [answers, Execution.not_isCall_of_isReturn answers, ↓reduceIte, Bool.false_eq_true,
        Nat.add_zero]
      cases n with
      | zero =>
        refine iff_of_false (Nat.not_succ_le_zero _) ?_
        intro all
        exact absurd (all 0 (Nat.zero_le _)) (by simp [returns, calls])
      | succ n => simp only [Nat.add_le_add_iff_right, ih, ← Nat.add_assoc]
    · by_cases called : execution.isCall
      · simp only [answers, called, ↓reduceIte, Bool.false_eq_true, Nat.add_zero, Nat.sub_le_iff_le_add,
          ih, Nat.add_right_comm _ 1 n, Nat.add_assoc]
      · simp only [answers, called, ↓reduceIte, Bool.false_eq_true, Nat.add_zero, ih]

theorem surplus_eq_zero_iff {rest : List Execution} : surplus rest = 0 ↔ Unanswered rest := by
  rw [← Nat.le_zero, surplus_le_iff]
  rfl

theorem counts_other {executed : Option Instruction}
    (uncalled : ∀ target, executed ≠ some (.call target)) (unreturned : executed ≠ some .ret)
    (address : UInt16) (rest : List Execution) :
    let past := (executed.map (Execution.mk address)).toList ++ rest
    openCalls past = openCalls rest ∧ surplus past = surplus rest ∧ calls past = calls rest ∧
      returns past = returns rest := by
  cases executed with
  | none => exact ⟨rfl, rfl, rfl, rfl⟩
  | some instruction =>
    have call : (Execution.mk address instruction).isCall = false := by
      cases instruction with
      | call target => exact absurd rfl (uncalled target)
      | _ => rfl
    have ret : (Execution.mk address instruction).isReturn = false := by
      cases instruction with
      | ret => exact absurd rfl unreturned
      | _ => rfl
    simp [openCalls, surplus, calls_cons, returns_cons, call, ret]

namespace Machine

/-- The stack of a run: above, the calls that wait for their return; below, what the returns that
answered no call of the run have left. -/
theorem stack_run (occasions : List Occasion) (m : Machine) :
    (run occasions m).cpu.stack =
      (openCalls (trace occasions m)).reverse ++
        m.cpu.stack.drop (surplus (trace occasions m)) := by
  induction occasions generalizing m with
  | nil => simp [run, trace, openCalls, surplus]
  | cons occasion rest ih =>
    rw [run, ih, trace]
    generalize trace rest (m.operate occasion) = later
    cases m.stackStep occasion with
    | @call target executes room pushed =>
      rw [executes, pushed]
      simp only [Option.map_some, Option.toList_some, List.singleton_append, openCalls, surplus,
        ← surplus_eq_zero_iff]
      -- The new entry is on top, so it is the first that a surplus return would take.
      cases answered : surplus later with
      | zero => simp [Execution.isCall, Execution.isReturn]
      | succ n => simp [Execution.isCall, Execution.isReturn]
    | ret executes called popped =>
      rw [executes, popped, called]
      simp [openCalls, surplus, Execution.isCall, Execution.isReturn]
    | other uncalled unreturned same =>
      obtain ⟨calls, excess, -⟩ := counts_other uncalled unreturned m.cpu.pc later
      rw [calls, excess, same]

theorem depth_run (occasions : List Occasion) (m : Machine) :
    (run occasions m).cpu.stack.length + returns (trace occasions m) =
      m.cpu.stack.length + calls (trace occasions m) := by
  induction occasions generalizing m with
  | nil => rfl
  | cons occasion rest ih =>
    have later := ih (m.operate occasion)
    rw [run, trace]
    revert later
    generalize trace rest (m.operate occasion) = past
    intro later
    cases m.stackStep occasion with
    | @call target executes room pushed =>
      rw [executes, Option.map_some, Option.toList_some, List.singleton_append, calls_cons,
        returns_cons]
      rw [pushed] at later
      simp only [Execution.isCall, Execution.isReturn, ↓reduceIte, Bool.false_eq_true,
        List.length_cons] at later ⊢
      omega
    | ret executes called popped =>
      rw [executes, Option.map_some, Option.toList_some, List.singleton_append, calls_cons,
        returns_cons]
      rw [popped] at later
      simp only [called, Execution.isCall, Execution.isReturn, ↓reduceIte, Bool.false_eq_true,
        List.length_cons] at later ⊢
      omega
    | other uncalled unreturned same =>
      obtain ⟨-, -, calls, returns⟩ := counts_other uncalled unreturned m.cpu.pc past
      rw [calls, returns, ← same]
      exact later

/-! ## While a subroutine lasts -/

/-- If an occasion leaves more entries than there were below a call, the call's entry and those below
it are still there. -/
theorem suffix_operate {m : Machine} {entry : UInt16} {below : List UInt16}
    (kept : entry :: below <:+ m.cpu.stack) (occasion : Occasion)
    (deep : below.length < (m.operate occasion).cpu.stack.length) :
    entry :: below <:+ (m.operate occasion).cpu.stack := by
  cases m.stackStep occasion with
  | call executes room pushed =>
    rw [pushed]
    exact kept.trans (List.suffix_cons ..)
  | ret executes called popped =>
    rw [popped] at deep ⊢
    rw [called] at kept
    rcases List.suffix_cons_iff.mp kept with same | deeper
    -- If the return took the call's own entry, there would be no more entries than before.
    · obtain ⟨-, rfl⟩ := List.cons.inj same
      exact absurd deep (Nat.lt_irrefl _)
    · exact deeper
  | other uncalled unreturned same =>
    rw [same]
    exact kept

theorem suffix_run {m : Machine} {entry : UInt16} {below : List UInt16}
    (kept : entry :: below <:+ m.cpu.stack) (during : List Occasion)
    (deep : ∀ part, part <+: during → below.length < (run part m).cpu.stack.length) :
    entry :: below <:+ (run during m).cpu.stack := by
  induction during generalizing m with
  | nil => exact kept
  | cons occasion rest ih =>
    refine ih (suffix_operate kept occasion ?_) ?_
    · exact deep [occasion] (List.prefix_iff_exists_append_eq.mpr ⟨rest, rfl⟩)
    · intro part early
      exact deep (occasion :: part) (List.cons_prefix_cons.mpr ⟨rfl, early⟩)

/-- What ends a subroutine is a return behind its call, and it restores the stack. -/
theorem return_of_shallow {m : Machine} {entry : UInt16} {below : List UInt16}
    (kept : entry :: below <:+ m.cpu.stack) {occasion : Occasion}
    (shallow : (m.operate occasion).cpu.stack.length ≤ below.length) :
    m.executes? occasion = some .ret ∧ (m.operate occasion).cpu.pc = entry + 2 ∧
      (m.operate occasion).cpu.stack = below := by
  have deep := kept.length_le
  rw [List.length_cons] at deep
  cases m.stackStep occasion with
  | call executes room pushed =>
    rw [pushed, List.length_cons] at shallow
    omega
  | ret executes called popped pc =>
    rw [popped] at shallow
    rw [called] at kept
    rcases List.suffix_cons_iff.mp kept with same | deeper
    · obtain ⟨rfl, rfl⟩ := List.cons.inj same
      exact ⟨executes, pc, popped⟩
    · have := deeper.length_le
      rw [List.length_cons] at this
      omega
  | other uncalled unreturned same =>
    rw [same] at shallow
    omega

/-- Calls and returns in any run of a new machine. The stack holds, the earliest last, where the
calls stood that no return has answered; so there are as many entries as calls less returns, and
never more than sixteen. A call that is carried out finds room, and puts its address on top. As
long as there are more entries than before it, these entries stay as they are. Whatever takes the
number of entries back is a return, which leaves the stack as it was before the call and goes on
behind it. -/
theorem run_calls (settings : Settings) (entropy : StreamKey) (occasions : List Occasion) :
    let m := run occasions (new settings entropy)
    let past := trace occasions (new settings entropy)
    m.cpu.stack.reverse = openCalls past ∧
    m.cpu.stack.length + returns past = calls past ∧
    m.cpu.stack.length ≤ 16 ∧
    ∀ occasion target, m.executes? occasion = some (.call target) →
      let address := m.cpu.pc
      let below := m.cpu.stack
      let called := m.operate occasion
      below.length < 16 ∧ called.cpu.stack = address :: below ∧
      ∀ during,
        (∀ part, part <+: during → below.length < (run part called).cpu.stack.length) →
        let inner := run during called
        address :: below <:+ inner.cpu.stack ∧
        ∀ last, (inner.operate last).cpu.stack.length ≤ below.length →
          inner.executes? last = some .ret ∧
          (inner.operate last).cpu.pc = address + 2 ∧
          (inner.operate last).cpu.stack = below := by
  intro m past
  have depth := depth_run occasions (new settings entropy)
  have stack := stack_run occasions (new settings entropy)
  have fresh : (new settings entropy).cpu.stack = [] := rfl
  rw [fresh, List.drop_nil, List.append_nil] at stack
  rw [fresh, List.length_nil, Nat.zero_add] at depth
  refine ⟨?_, depth, (run_wellFormed settings entropy occasions).depth, ?_⟩
  · exact List.reverse_eq_iff.mpr stack
  · intro occasion target executes address below called
    cases m.stackStep occasion with
    | call _ room pushed =>
      refine ⟨room, pushed, ?_⟩
      intro during deep inner
      have kept : address :: below <:+ called.cpu.stack := pushed ▸ List.suffix_refl _
      have still := suffix_run kept during deep
      exact ⟨still, fun last shallow => return_of_shallow still shallow⟩
    | ret executes' => simp [executes'] at executes
    | other uncalled => exact absurd executes (uncalled target)

/-- The subroutine at `206` calls the one at `20A`, which waits for a key before it returns. -/
def twoDeep : List Occasion :=
  [.load [0x22, 0x06, 0x12, 0x02, 0x00, 0x00, 0x22, 0x0A, 0x00, 0xEE, 0xF0, 0x0A, 0x00, 0xEE],
    .step, .step, .step, .step, .giveKey 7, .step, .step].map (Occasion.mk (fun _ => false) 0)

theorem run_calls_twoDeep :
    let step : Occasion := ⟨fun _ => false, 0, .step⟩
    let caller := run (twoDeep.take 1) (new {} (Vector.replicate 8 0))
    let inner := run ((twoDeep.drop 2).take 5) (caller.operate step)
    (run (twoDeep.take 3) (new {} (Vector.replicate 8 0))).cpu.stack.reverse = [0x200, 0x206] ∧
      [0x200] <:+ inner.cpu.stack ∧ inner.executes? step = some .ret ∧
      (inner.operate step).cpu.pc = 0x200 + 2 ∧ (inner.operate step).cpu.stack = [] := by
  intro step
  have facts :
      openCalls (trace (twoDeep.take 3) (new {} (Vector.replicate 8 0))) = [0x200, 0x206] ∧
      let caller := run (twoDeep.take 1) (new {} (Vector.replicate 8 0))
      caller.executes? step = some (.call 0x206) ∧ caller.cpu.pc = 0x200 ∧ caller.cpu.stack = [] ∧
      (∀ part ∈ ((twoDeep.drop 2).take 5).inits,
        0 < (run part (caller.operate step)).cpu.stack.length) ∧
      ((run ((twoDeep.drop 2).take 5) (caller.operate step)).operate step).cpu.stack.length = 0 := by
    decide +kernel
  obtain ⟨entries, -⟩ := run_calls {} (Vector.replicate 8 0) (twoDeep.take 3)
  obtain ⟨-, -, -, returns⟩ := run_calls {} (Vector.replicate 8 0) (twoDeep.take 1)
  -- From here on it does not matter which machine makes the call.
  generalize run (twoDeep.take 1) (new {} (Vector.replicate 8 0)) = caller at facts returns ⊢
  obtain ⟨past, executes, pc, stack, deep, shallow⟩ := facts
  obtain ⟨-, -, lasts⟩ := returns step 0x206 executes
  rw [pc, stack] at lasts
  obtain ⟨kept, ends⟩ := lasts _ fun part early => deep part ((List.mem_inits ..).mpr early)
  exact ⟨entries.trans past, kept, ends step (Nat.le_of_eq shallow)⟩

end Machine
end ChipEight
