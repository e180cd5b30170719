import ChipEight.Machine.Events
import ChipEight.Proofs.Execute

/-! What a cycle does to the machine as a whole, and what a fault in it comes to. A refused
instruction leaves no trace of itself, so a machine halted by it is the machine that met it, with
all activity ended. -/
namespace ChipEight.Machine

/-- The end of a cycle that did not fault: wait for a key, or be due again. -/
def goOn (m : Machine) (due : Instant) : Machine :=
  match m.cpu.awaiting with
  | some x => { m with status := .awaitingKey x }
  | none => { m with agenda := m.agenda.schedule .cycle (due + m.settings.clockPeriod) }

theorem cycle_eq (keys : Key → Bool) (now due : Instant) (m : Machine) :
    m.cycle keys now due =
      match m.cpu.awaiting with
      | some x => { m with status := .awaitingKey x }
      | none =>
        match m.cpu.current with
        | .ok instruction => (m.after keys now instruction).moveOn.goOn due
        | .error fault => m.halt fault := by
  rw [cycle, step_eq]
  cases awaited : m.cpu.awaiting with
  | some x => simp only [awaited]
  | none =>
    cases m.cpu.current with
    | error fault => rfl
    | ok instruction => rfl

theorem perform_cycle_awaiting {m : Machine} {x : Register} (awaited : m.cpu.awaiting = some x)
    (keys : Key → Bool) (now due : Instant) :
    m.perform keys now .cycle due =
      { m with agenda := m.agenda.cancel .cycle, status := .awaitingKey x } := by
  simp only [perform, cycle_eq, awaited]

theorem perform_cycle_ok {m : Machine} {instruction : Instruction} (free : m.cpu.awaiting = none)
    (current : m.cpu.current = .ok instruction) (keys : Key → Bool) (now due : Instant) :
    m.perform keys now .cycle due =
      ({ m with agenda := m.agenda.cancel .cycle }.after keys now instruction).moveOn.goOn due := by
  simp only [perform, cycle_eq, free, current]

theorem perform_cycle_error {m : Machine} {fault : Fault} (free : m.cpu.awaiting = none)
    (current : m.cpu.current = .error fault) (keys : Key → Bool) (now due : Instant) :
    m.perform keys now .cycle due = m.halt fault := by
  simp only [perform, cycle_eq, free, current]
  rfl

theorem cpu_goOn (m : Machine) (due : Instant) : (m.goOn due).cpu = m.cpu := by
  unfold goOn
  split <;> rfl

theorem cpu_after_agenda (keys : Key → Bool) (now : Instant) (m : Machine) (agenda : Agenda)
    (instruction : Instruction) :
    ({ m with agenda }.after keys now instruction).moveOn.cpu =
      (m.after keys now instruction).moveOn.cpu := by
  cases instruction <;> rfl

theorem cpu_perform_cycle (keys : Key → Bool) (now due : Instant) (m : Machine) :
    (m.perform keys now .cycle due).cpu = m.stepped keys now { m.cpu with awaiting := none } := by
  simp only [perform, cycle_eq, stepped]
  cases m.cpu.awaiting with
  | some x => rfl
  | none =>
    cases m.cpu.current with
    | error fault => rfl
    | ok instruction =>
      simp only [cpu_goOn]
      exact cpu_after_agenda ..

theorem cpu_receive (now : Instant) (m : Machine) (signal : Signal) :
    (m.receive now signal).cpu =
      match signal with
      | .keyDown key => (m.giveKey key).1.cpu
      | .stop => { m.cpu with awaiting := none } := by
  cases signal with
  | keyDown key =>
    simp only [receive, giveKey]
    cases m.cpu.awaiting <;> rfl
  | stop =>
    simp only [receive, stop]
    split <;> rfl

theorem step_eq_error_iff :
    step keys now m = .error fault next ↔
      next = m ∧ m.cpu.awaiting = none ∧ m.cpu.current = .error fault := by
  rw [step_eq]
  cases m.cpu.awaiting with
  | some x => simp
  | none => cases m.cpu.current <;> simp [eq_comm, and_comm]

/-- A fault leaves no trace: the machine is the one that met it. If the fault ends a cycle, at
whatever time and with whatever keys held and tasks armed, activity has ended and the fault is the
status; all the rest is as the instruction found it, the program counter still at the
instruction. -/
theorem step_fault_atomic (faulted : step keys now m = .error fault next) :
    next = m ∧ ∀ (held : Key → Bool) (later due : Instant) (agenda : Agenda),
      { m with agenda }.perform held later .cycle due =
        { m with
          status := .halted fault
          agenda := { cycle := none, delay := none, sound := none }
          delay := ⟨0⟩
          sound := ⟨0⟩
          cpu := { m.cpu with awaiting := none } } := by
  obtain ⟨same, free, refused⟩ := step_eq_error_iff.mp faulted
  refine ⟨same, ?_⟩
  intro held later due agenda
  simp only [perform, cycle_eq, free, refused]
  rfl

/-- About to make a seventeenth nested call, with a tick of the delay timer due. -/
def deepest : Machine :=
  { new {} (Vector.replicate 8 0) with
    status := .running
    agenda := { cycle := some 5, delay := some 9 }
    delay := ⟨7⟩
    cpu := { stack := List.replicate 16 0x200, memory := ⟨Vector.replicate 4096 0x22⟩ } }

theorem deepest_faults (keys : Key → Bool) (now : Instant) :
    step keys now deepest = .error .stackOverflow deepest := by
  refine step_eq_error_iff.mpr ⟨rfl, rfl, ?_⟩
  simp [Cpu.current, Cpu.fetch, Memory.word, deepest, programStart, memorySize, bind, Except.bind]
  rfl

theorem step_fault_atomic_deepest :
    step (fun _ => false) 0 deepest = .error .stackOverflow deepest ∧
    deepest.perform (fun _ => false) 6 .cycle 5 =
      { deepest with
        status := .halted .stackOverflow
        agenda := { cycle := none, delay := none, sound := none }
        delay := ⟨0⟩
        sound := ⟨0⟩
        cpu := { deepest.cpu with awaiting := none } } :=
  ⟨deepest_faults _ _,
    (step_fault_atomic (deepest_faults (fun _ => false) 0)).2 _ _ _ deepest.agenda⟩

end ChipEight.Machine
