import ChipEight.Proofs.BareStep

/-! The processor on plain arrays through whole runs. It goes along with a machine: whatever is
done to the machine is done to it as well, and it still is the machine's processor. So no run ends
in a trap, and none is one instruction away from it. -/
namespace ChipEight.Bare

def fresh : Except Stop Bare := do
  let stop ← sum sizeLimit fontStart font.length
  return {
    pc := .ofNat programStart
    v := Vector.replicate 16 0
    i := 0
    sp := 0
    stack := Vector.replicate 16 0
    awaiting := none
    memory := ← copy (Vector.replicate 4096 0) fontStart stop font }

def load (b : Bare) (program : List UInt8) : Except Stop Bare :=
  if programLimit < program.length then .ok b
  else do
    let stop ← sum sizeLimit programStart program.length
    return { b with memory := ← copy b.memory programStart stop program }

def give (b : Bare) (key : Key) : Except Stop Bare :=
  match b.awaiting with
  | some x => do return { b with v := ← setCell b.v x key.code, awaiting := none }
  | none => .ok b

def release (b : Bare) : Bare := { b with awaiting := none }

/-- The processor goes on from where a fault left it. Nothing goes on from a trap. -/
def recover (outcome : Except Stop Bare) (left : Bare) : Except Stop Bare :=
  match outcome with
  | .error (.fault _) => .ok left
  | _ => outcome

def operate (m : Machine) (b : Bare) (occasion : Occasion) : Except Stop Bare :=
  match occasion.operation with
  | .load program => b.load program
  | .loadFrom reads =>
    match reads.gather with
    | .ok pieces => b.load pieces.flatten
    | .error _ => .ok b
  | .start => .ok b
  | .step => recover (b.step occasion.keys m) b
  | .giveKey key | .receive (.keyDown key) => b.give key
  | .perform .cycle _ => recover (b.step occasion.keys m) b.release
  | .perform .delay _ | .perform .sound _ => .ok b
  | .receive .stop => .ok b.release

def run : List Occasion → Machine → Bare → Except Stop Bare
  | [], _, b => .ok b
  | occasion :: rest, m, b => do run rest (m.operate occasion) (← operate m b occasion)

/-- The processor is that of a machine. Nothing is said of the cells that are not live. -/
def Represents (b : Bare) (cpu : Cpu) : Prop := ∃ cells, Holds cells cpu.stack ∧ b = of cpu cells

theorem fresh_represents (settings : Settings) (entropy : StreamKey) :
    ∃ b, fresh = .ok b ∧ b.Represents (Machine.new settings entropy).cpu := by
  have stop : sum sizeLimit fontStart font.length = .ok (fontStart + font.length) :=
    sum_ok (by decide)
  have copied : copy (Vector.replicate 4096 0) fontStart (fontStart + font.length) font =
      .ok Memory.initial.bytes := copy_ok _ rfl (by decide)
  refine ⟨_, by rw [fresh, stop, ok_bind, copied, ok_bind]; rfl, Vector.replicate 16 0, ?_, rfl⟩
  exact fun k live => absurd live (Nat.not_lt_zero k)

theorem load_of (m : Machine) (cells : Vector UInt16 16) (program : List UInt8) :
    (of m.cpu cells).load program =
      .ok (of (Machine.left (Machine.load program m)).cpu cells) := by
  rw [Machine.left_load, load]
  by_cases fits : program.length ≤ programLimit
  · have room : programStart + program.length ≤ 4096 := by
      simp only [programLimit, memorySize, programStart] at *
      omega
    have stop : sum sizeLimit programStart program.length = .ok (programStart + program.length) :=
      sum_ok (by simp only [sizeLimit]; omega)
    simp only [fits, Nat.not_lt.2 fits, ↓reduceIte, stop, ok_bind, of_memory, copy_ok _ rfl room]
    rfl
  · simp only [fits, Nat.not_le.1 fits, ↓reduceIte]

theorem give_of (m : Machine) (cells : Vector UInt16 16) (key : Key) :
    (of m.cpu cells).give key = .ok (of (m.giveKey key).1.cpu cells) := by
  have awaiting : (of m.cpu cells).awaiting = m.cpu.awaiting.map Fin.val := rfl
  simp only [give, awaiting, Machine.giveKey]
  cases m.cpu.awaiting with
  | none => rfl
  | some x =>
    simp only [Option.map_some, of_v, setCell_fin, ok_bind]
    rfl

theorem Represents.load {m : Machine} {b : Bare} (represents : b.Represents m.cpu)
    (program : List UInt8) :
    ∃ next, b.load program = .ok next ∧
      next.Represents (Machine.left (Machine.load program m)).cpu := by
  obtain ⟨cells, held, rfl⟩ := represents
  refine ⟨_, load_of m cells program, cells, ?_, rfl⟩
  rw [Machine.left_load]
  split <;> exact held

theorem Represents.give {m : Machine} {b : Bare} (represents : b.Represents m.cpu) (key : Key) :
    ∃ next, b.give key = .ok next ∧ next.Represents (m.giveKey key).1.cpu := by
  obtain ⟨cells, held, rfl⟩ := represents
  refine ⟨_, give_of m cells key, cells, ?_, rfl⟩
  unfold Machine.giveKey
  split <;> exact held

theorem Represents.release {cpu : Cpu} {b : Bare} (represents : b.Represents cpu) :
    b.release.Represents { cpu with awaiting := none } := by
  obtain ⟨cells, held, rfl⟩ := represents
  exact ⟨cells, held, rfl⟩

/-- A step is that of the machine. If it faults, what goes on does so from `left`. -/
theorem Represents.step (keys : Key → Bool) (now : Instant) {m : Machine} {b left : Bare}
    {faulted : Cpu} (represents : b.Represents m.cpu) (wellFormed : m.cpu.WellFormed)
    (recovers : left.Represents faulted) :
    ∃ next, recover (b.step keys m) left = .ok next ∧
      next.Represents (m.stepped keys now faulted) := by
  obtain ⟨cells, held, rfl⟩ := represents
  rw [step_of keys now held wellFormed, Machine.stepped]
  cases m.cpu.awaiting with
  | some x => exact ⟨_, rfl, cells, held, rfl⟩
  | none =>
    cases current : m.cpu.current with
    | error fault => exact ⟨left, rfl, recovers⟩
    | ok instruction =>
      exact ⟨_, rfl, _, held_after keys now held (Cpu.current_ok current).2, rfl⟩

theorem operate_represents {m : Machine} {b : Bare} (represents : b.Represents m.cpu)
    (wellFormed : m.cpu.WellFormed) (occasion : Occasion) :
    ∃ next, operate m b occasion = .ok next ∧ next.Represents (m.operate occasion).cpu := by
  obtain ⟨keys, now, operation⟩ := occasion
  cases operation with
  | load program => exact represents.load program
  | loadFrom reads =>
    simp only [operate, Machine.operate, Machine.left_loadFrom]
    cases reads.gather with
    | ok pieces => exact represents.load pieces.flatten
    | error cause => exact ⟨b, rfl, represents⟩
  | start => exact ⟨b, rfl, represents⟩
  | step =>
    simp only [Machine.operate, Machine.cpu_left_step]
    exact represents.step keys now wellFormed represents
  | giveKey key => exact represents.give key
  | perform task due =>
    cases task with
    | cycle =>
      simp only [Machine.operate, Machine.cpu_perform_cycle]
      exact represents.step keys now wellFormed represents.release
    | delay | sound => exact ⟨b, rfl, represents⟩
  | receive signal =>
    simp only [Machine.operate, Machine.cpu_receive]
    cases signal with
    | keyDown key => exact represents.give key
    | stop => exact ⟨b.release, rfl, represents.release⟩

theorem run_represents (occasions : List Occasion) {m : Machine} {b : Bare}
    (represents : b.Represents m.cpu) (wellFormed : m.cpu.WellFormed) :
    ∃ last, run occasions m b = .ok last ∧ last.Represents (Machine.run occasions m).cpu := by
  induction occasions generalizing m b with
  | nil => exact ⟨b, rfl, represents⟩
  | cons occasion rest ih =>
    obtain ⟨next, operated, represents⟩ := operate_represents represents wellFormed occasion
    obtain ⟨last, ran, represents⟩ :=
      ih represents ((Machine.deed_operate m occasion).wellFormed wellFormed)
    refine ⟨last, ?_, represents⟩
    rw [run, operated, ok_bind, ran]

/-- A processor within its bounds that no opcode can take to a trap. The program counter passes the
end of its range only when it moves on from a jump to one of the first two addresses, which took it
there. -/
structure Safe (m : Machine) (b : Bare) : Prop where
  depth : b.sp ≤ 16
  entries : ∀ k < b.sp, ∃ entry, b.stack[k]? = some entry ∧ entry.toNat ≤ 0xFFE
  pc : b.pc.toNat ≤ 0x10FE
  awaiting : ∀ x, b.awaiting = some x → x < 16
  untrapped : ∀ keys word, b.carryOut keys m word ≠ .error .trap
  wraps : ∀ keys instruction next wrapped, b.execute keys m instruction = .ok (next, wrapped) →
    (wordLimit ≤ next.pc.toNat + 2 ↔ ∃ target < 2, m.cpu.target? instruction = some target)

theorem Represents.safe {m : Machine} {b : Bare} (represents : b.Represents m.cpu)
    (wellFormed : m.cpu.WellFormed) : b.Safe m := by
  obtain ⟨cells, held, rfl⟩ := represents
  refine ⟨wellFormed.depth, ?_, wellFormed.pc, ?_, ?_, ?_⟩
  · intro k live
    have inside : m.cpu.stack.length - 1 - k < m.cpu.stack.length := by
      have : k < m.cpu.stack.length := live
      omega
    have found := (held k live).trans (List.getElem?_reverse live)
    exact ⟨_, found.trans (List.getElem?_eq_getElem inside),
      wellFormed.entries _ (List.getElem_mem inside)⟩
  · intro x awaited
    obtain ⟨register, _, rfl⟩ := Option.map_eq_some_iff.mp awaited
    exact register.isLt
  · intro keys word trapped
    rw [carryOut_of keys 0 held wellFormed] at trapped
    cases decoded : Instruction.decode (.ofWord word) with
    | error fault => simp [decoded] at trapped
    | ok instruction =>
      cases refused : m.cpu.refusal? instruction <;> simp [decoded, refused] at trapped
  · intro keys instruction next wrapped executed
    rw [execute_of keys 0 held wellFormed, outcome] at executed
    cases refused : m.cpu.refusal? instruction with
    | some fault => simp [refused] at executed
    | none =>
      simp only [refused, Except.ok.injEq, Prod.mk.injEq] at executed
      rw [← executed.1]
      exact after_pc_wraps keys 0 wellFormed

/-- Whatever is done to a new machine, whatever keys are held and at whatever times, its processor
never meets a trap, and afterwards no opcode would take it to one. -/
theorem run_safe (settings : Settings) (entropy : StreamKey) (occasions : List Occasion) :
    ∃ b, (fresh >>= run occasions (.new settings entropy)) = .ok b ∧
      (Machine.run occasions (.new settings entropy)).cpu.WellFormed ∧
      b.Represents (Machine.run occasions (.new settings entropy)).cpu ∧
      b.Safe (Machine.run occasions (.new settings entropy)) := by
  obtain ⟨first, made, represents⟩ := fresh_represents settings entropy
  obtain ⟨last, ran, represents⟩ :=
    run_represents occasions represents (Machine.new_wellFormed settings entropy)
  have wellFormed := Machine.run_wellFormed settings entropy occasions
  exact ⟨last, by rw [made, ok_bind, ran], wellFormed, represents, represents.safe wellFormed⟩

end ChipEight.Bare
