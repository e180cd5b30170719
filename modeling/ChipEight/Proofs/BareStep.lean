import ChipEight.Proofs.Bare
import ChipEight.Proofs.WellFormed

/-! The processor on plain arrays does what a machine does. If its live cells hold the machine's
call stack, it meets the faults that the machine meets and no trap, and goes on to the machine's
next processor (`execute_of`, `carryOut_of`, `step_of`). -/
namespace ChipEight.Bare

/-- The live cells hold the entries of a call stack, the latest last. -/
def Holds (cells : Vector UInt16 16) (stack : List UInt16) : Prop :=
  ∀ k < stack.length, cells[k]? = stack.reverse[k]?

/-- A machine's processor on plain arrays, with `cells` for the call stack. -/
def of (cpu : Cpu) (cells : Vector UInt16 16) : Bare where
  pc := cpu.pc
  v := cpu.v
  i := cpu.i
  sp := cpu.stack.length
  stack := cells
  awaiting := cpu.awaiting.map Fin.val
  memory := cpu.memory.bytes

def cellsAfter (cpu : Cpu) (cells : Vector UInt16 16) : Instruction → Vector UInt16 16
  | .call _ => cells.setIfInBounds cpu.stack.length cpu.pc
  | _ => cells

/-- Whether aiming an instruction's jump wraps the program counter. -/
def wraps (cpu : Cpu) (instruction : Instruction) : Bool :=
  (cpu.target? instruction).any (· < 2)

theorem cell_fin (cells : Vector α n) (index : Fin n) : cell cells index.val = .ok cells[index] :=
  dif_pos index.isLt

theorem setCell_fin (cells : Vector α n) (index : Fin n) (value : α) :
    setCell cells index.val value = .ok (cells.set index value) :=
  dif_pos index.isLt

theorem setCell_flag (cells : Vector UInt8 16) (value : UInt8) :
    setCell cells 15 value = .ok (cells.set flagRegister value) := setCell_fin cells flagRegister value

theorem ok_bind (value : α) (next : α → Except Stop β) : (.ok value >>= next) = next value := rfl

theorem error_bind (stop : Stop) (next : α → Except Stop β) :
    (.error stop >>= next) = .error stop := rfl

theorem of_i (cpu : Cpu) (cells : Vector UInt16 16) : (of cpu cells).i = cpu.i := rfl

theorem of_v (cpu : Cpu) (cells : Vector UInt16 16) : (of cpu cells).v = cpu.v := rfl

theorem of_memory (cpu : Cpu) (cells : Vector UInt16 16) :
    (of cpu cells).memory = cpu.memory.bytes := rfl

theorem cell_of (cpu : Cpu) (cells : Vector UInt16 16) (x : Register) :
    cell (of cpu cells).v x.val = .ok (cpu.register x) := cell_fin ..

theorem sum_ok (fits : a + b < limit) : sum limit a b = .ok (a + b) := if_pos fits

theorem sum_one (x : Register) : sum sizeLimit x.val 1 = .ok (x.val + 1) := by
  refine sum_ok ?_
  simp only [sizeLimit]
  omega

theorem spanEnd_eq (address : UInt16) {length : Nat} (short : length ≤ 16) :
    spanEnd address length =
      match Memory.spanFault? address.toNat length with
      | some fault => .error (.fault fault)
      | none => .ok (address.toNat + length) := by
  have small := address.toNat_lt
  have fits : address.toNat + length < sizeLimit := by simp only [sizeLimit]; omega
  simp only [spanEnd, sum_ok fits, ok_bind, Memory.spanFault?]
  by_cases exist : address.toNat + length ≤ memorySize
  · rw [if_neg (Nat.not_lt.2 exist), if_pos exist]
    rfl
  · rw [if_pos (Nat.not_le.1 exist), if_neg exist]

theorem slice_ok (cells : Vector UInt8 n) (ordered : start ≤ stop) (exist : stop ≤ n) :
    slice cells start stop = .ok (cells.toArray.extract start stop).toList :=
  if_pos ⟨ordered, exist⟩

theorem copy_ok (cells : Vector UInt8 n) (many : start + values.length = stop) (exist : stop ≤ n) :
    copy cells start stop values = .ok (overwrite cells start values) :=
  if_pos (by omega)

theorem slice_overwrite (cells : Vector UInt8 n) (many : values.length = stop) (exist : stop ≤ n) :
    slice (overwrite cells 0 values) 0 stop = .ok values := by
  rw [slice_ok _ (Nat.zero_le _) exist]
  refine congrArg Except.ok (List.ext_getElem? fun k => ?_)
  rw [Array.getElem?_toList, Array.getElem?_extract, Vector.size_toArray, Vector.getElem?_toArray,
    Nat.zero_add, getElem?_overwrite]
  by_cases inside : k < stop
  · rw [if_pos (by omega), if_pos (by omega), Nat.sub_zero]
  · rw [if_neg (by omega), List.getElem?_eq_none (by omega)]

theorem slice_registers (cpu : Cpu) (x : Register) :
    slice cpu.v 0 (x.val + 1) = .ok (cpu.registersTo x) := by
  rw [slice_ok cpu.v (Nat.zero_le _) x.isLt]
  simp [Cpu.registersTo, Vector.toList]

theorem read_of (cpu : Cpu) (cells : Vector UInt16 16) (address : UInt16) {length : Nat}
    (short : length ≤ 16) :
    (of cpu cells).read address length =
      match Memory.spanFault? address.toNat length with
      | some fault => .error (.fault fault)
      | none => .ok (cpu.memory.slice address.toNat length) := by
  simp only [read, spanEnd_eq address short, Memory.spanFault?]
  by_cases exist : address.toNat + length ≤ memorySize
  · simp only [exist, ↓reduceIte, ok_bind]
    exact slice_ok _ (Nat.le_add_right _ _) exist
  · simp only [exist, ↓reduceIte, error_bind]

theorem fetch_of (cpu : Cpu) (cells : Vector UInt16 16) :
    (of cpu cells).fetch =
      match cpu.fetch with
      | .ok word => .ok word
      | .error fault => .error (.fault fault) := by
  have bytes := read_of cpu cells cpu.pc (show 2 ≤ 16 by decide)
  have word : (of cpu cells).pc = cpu.pc := rfl
  simp only [fetch, word, bytes, Memory.spanFault?, Cpu.fetch]
  by_cases exist : cpu.pc.toNat + 2 ≤ memorySize
  · have bound : cpu.pc.toNat + 1 < 4096 := exist
    simp only [exist, ↓reduceIte, ok_bind, Memory.word_eq cpu.memory bound,
      Memory.slice_two cpu.memory bound]
    rfl
  · have missing : cpu.memory.word cpu.pc.toNat = .error (.outOfBounds (max cpu.pc.toNat memorySize)) :=
      dif_neg exist
    simp only [exist, ↓reduceIte, error_bind, missing]

theorem ofNat_sub_two (enough : 2 ≤ target) : UInt16.ofNat (target - 2) = .ofNat target - 2 :=
  UInt16.ofNat_sub enough

theorem jump_of (cpu : Cpu) (cells : Vector UInt16 16) (target : Nat) :
    (of cpu cells).jump target =
      .ok (of { cpu with pc := .ofNat target - 2 } cells, decide (target < 2)) := by
  by_cases short : target < 2
  · simp only [jump, short, ↓reduceIte, decide_true]
    rfl
  · have enough : 2 ≤ target := by omega
    simp only [jump, short, ↓reduceIte, difference, enough, ok_bind, ofNat_sub_two enough,
      decide_false]
    rfl

theorem skipIf_of {cpu : Cpu} (wellFormed : cpu.WellFormed) (cells : Vector UInt16 16)
    (condition : Bool) :
    (of cpu cells).skipIf condition = .ok (of (cpu.skipIf condition) cells, false) := by
  have fits : cpu.pc.toNat + 2 < wordLimit := by
    have := wellFormed.pc
    simp only [wordLimit]
    omega
  have moved : UInt16.ofNat (cpu.pc.toNat + 2) = cpu.pc + 2 := by simp
  cases condition with
  | false => rfl
  | true =>
    simp only [skipIf, of, ↓reduceIte, sum_ok fits, ok_bind, moved]
    rfl

theorem set_eq_setIfInBounds (cells : Vector α n) (value : α) (bound : index < n) :
    cells.set index value bound = cells.setIfInBounds index value := by
  ext k inside
  rw [Vector.getElem_set, Vector.getElem_setIfInBounds]

theorem push_of {cpu : Cpu} (depth : cpu.stack.length ≤ 16) (cells : Vector UInt16 16)
    (address : UInt16) :
    (of cpu cells).push address =
      if cpu.stack.length < stackDepth then
        .ok (of { cpu with stack := address :: cpu.stack }
          (cells.setIfInBounds cpu.stack.length address))
      else .error (.fault .stackOverflow) := by
  by_cases room : cpu.stack.length < stackDepth
  · have notFull : cpu.stack.length ≠ stackDepth := Nat.ne_of_lt room
    have bound : cpu.stack.length < 16 := room
    have stored : setCell cells cpu.stack.length address =
        .ok (cells.setIfInBounds cpu.stack.length address) :=
      (dif_pos bound).trans (congrArg Except.ok (set_eq_setIfInBounds cells address bound))
    have fits : cpu.stack.length + 1 < sizeLimit := by simp only [sizeLimit]; omega
    simp only [push, of, notFull, room, ↓reduceIte, stored, ok_bind, sum_ok fits]
    rfl
  · have full : cpu.stack.length = stackDepth := by
      simp only [stackDepth] at *
      omega
    rw [if_neg room]
    exact if_pos full

theorem Holds.last {cells : Vector UInt16 16} (held : Holds cells (entry :: rest)) :
    cells[rest.length]? = some entry := by
  rw [held rest.length (by simp)]
  simp

theorem pop_of {cpu : Cpu} {cells : Vector UInt16 16} (depth : cpu.stack.length ≤ 16)
    (held : Holds cells cpu.stack) :
    (of cpu cells).pop =
      match cpu.stack with
      | [] => .error (.fault .stackUnderflow)
      | entry :: rest => .ok (entry, of { cpu with stack := rest } cells) := by
  cases called : cpu.stack with
  | nil => simp only [pop, of, called, List.length_nil, ↓reduceIte]
  | cons entry rest =>
    rw [called] at held depth
    have bound : rest.length < 16 := by
      rw [List.length_cons] at depth
      omega
    obtain ⟨_, last⟩ := Vector.getElem?_eq_some_iff.mp held.last
    have found : cell cells rest.length = .ok entry := (dif_pos bound).trans (by rw [last])
    have lowered : difference (rest.length + 1) 1 = .ok rest.length := if_pos (Nat.le_add_left ..)
    simp only [pop, of, called, List.length_cons, Nat.add_one_ne_zero, ↓reduceIte, lowered, ok_bind,
      found]
    rfl

theorem alu_of (cpu : Cpu) (cells : Vector UInt16 16) (source : ShiftOperand) (op : RegisterOp)
    (x y : Register) :
    (of cpu cells).alu source op x.val y.val = .ok (of (cpu.alu source op x y) cells, false) := by
  simp only [alu, cell_of, ok_bind, Cpu.alu]
  generalize op.apply (cpu.register x) (cpu.register y) _ = outcome
  obtain ⟨result, _ | flag⟩ := outcome
  · simp only [of, setCell_fin, ok_bind]
    rfl
  · simp only [of, setCell_fin, setCell_flag, ok_bind]
    rfl

theorem keyIn_of (cpu : Cpu) (cells : Vector UInt16 16) (x : Register) :
    (of cpu cells).keyIn x.val =
      if (cpu.register x).toNat < 16 then .ok (cpu.register x).toNat
      else .error (.fault (.notOnKeypad (cpu.register x))) := by
  simp only [keyIn, cell_of, ok_bind]
  rfl

theorem isHeld_keyIn (keys : Key → Bool) {cpu : Cpu} {x : Register}
    (known : (cpu.register x).toNat < 16) :
    isHeld keys (cpu.register x).toNat = .ok (keys (cpu.keyIn x)) := by
  rw [Cpu.keyIn_eq known]
  exact dif_pos known

/-- What an instruction comes to if the processor goes along with a machine: the machine's next
processor, or the machine's fault. -/
def outcome (keys : Key → Bool) (now : Instant) (m : Machine) (cells : Vector UInt16 16)
    (instruction : Instruction) : Except Stop (Bare × Bool) :=
  match m.cpu.refusal? instruction with
  | some fault => .error (.fault fault)
  | none => .ok (of (m.after keys now instruction).cpu (cellsAfter m.cpu cells instruction),
      wraps m.cpu instruction)

section Instructions

variable (keys : Key → Bool) (now : Instant) {m : Machine} {cells : Vector UInt16 16}

theorem execute_ret (held : Holds cells m.cpu.stack) (depth : m.cpu.stack.length ≤ 16) :
    (of m.cpu cells).execute keys m .ret = outcome keys now m cells .ret := by
  simp only [execute, outcome, pop_of depth held, Cpu.refusal?]
  cases called : m.cpu.stack with
  | nil => rfl
  | cons entry rest =>
    simp only [ok_bind, Machine.after, called]
    rfl

theorem execute_call (depth : m.cpu.stack.length ≤ 16) (addr : Address) :
    (of m.cpu cells).execute keys m (.call addr) = outcome keys now m cells (.call addr) := by
  simp only [execute, outcome, Cpu.refusal?]
  rw [push_of depth]
  by_cases room : m.cpu.stack.length < stackDepth
  · simp only [room, ↓reduceIte, ok_bind, jump_of]
    rfl
  · simp only [room, ↓reduceIte, error_bind]

theorem execute_jumpOffset (addr : Address) :
    (of m.cpu cells).execute keys m (.jumpOffset addr) =
      outcome keys now m cells (.jumpOffset addr) := by
  have fits : addr.val + (m.cpu.register 0).toNat < wordLimit := by
    have := addr.isLt
    have := (m.cpu.register 0).toNat_lt
    simp only [wordLimit]
    omega
  have first : cell (of m.cpu cells).v 0 = .ok (m.cpu.register 0) := cell_of m.cpu cells 0
  have target : UInt16.ofNat (addr.val + (m.cpu.register 0).toNat) =
      .ofNat addr.val + (m.cpu.register 0).toUInt16 := by simp
  simp only [execute, first, ok_bind, sum_ok fits, jump_of, target]
  rfl

theorem execute_draw (x y : Register) (n : Fin 16) :
    (of m.cpu cells).execute keys m (.draw x y n) = outcome keys now m cells (.draw x y n) := by
  simp only [execute, outcome, cell_of, ok_bind, read_of _ _ _ (Nat.le_of_lt n.isLt), of_i,
    Cpu.refusal?, Memory.spanFault?]
  by_cases exist : m.cpu.i.toNat + n.val ≤ memorySize
  · simp only [exist, ↓reduceIte, ok_bind, setRegister, setCell_flag]
    rfl
  · simp only [exist, ↓reduceIte, error_bind]

theorem execute_skipIfPressed (wellFormed : m.cpu.WellFormed) (x : Register) :
    (of m.cpu cells).execute keys m (.skipIfPressed x) =
      outcome keys now m cells (.skipIfPressed x) := by
  simp only [execute, outcome, keyIn_of, Cpu.refusal?]
  by_cases known : (m.cpu.register x).toNat < 16
  · simp only [known, ↓reduceIte, ok_bind, isHeld_keyIn, skipIf_of wellFormed, Machine.after,
      beq_true]
    rfl
  · simp only [known, ↓reduceIte, error_bind]

theorem execute_skipIfReleased (wellFormed : m.cpu.WellFormed) (x : Register) :
    (of m.cpu cells).execute keys m (.skipIfReleased x) =
      outcome keys now m cells (.skipIfReleased x) := by
  simp only [execute, outcome, keyIn_of, Cpu.refusal?]
  by_cases known : (m.cpu.register x).toNat < 16
  · simp only [known, ↓reduceIte, ok_bind, isHeld_keyIn, skipIf_of wellFormed, Machine.after,
      beq_false]
    rfl
  · simp only [known, ↓reduceIte, error_bind]

theorem execute_glyph (x : Register) :
    (of m.cpu cells).execute keys m (.glyph x) = outcome keys now m cells (.glyph x) := by
  have small : (m.cpu.register x &&& 0xF).toNat < 16 := by
    rw [UInt8.toNat_and]
    exact Nat.lt_succ_of_le Nat.and_le_right
  generalize digit : (m.cpu.register x &&& 0xF) = d at small
  have fits : glyphSize * d.toNat < wordLimit := by
    simp only [glyphSize, wordLimit]
    omega
  have scaled : product wordLimit glyphSize d.toNat = .ok (glyphSize * d.toNat) := if_pos fits
  have fits : fontStart + glyphSize * d.toNat < wordLimit := by
    simp only [fontStart, glyphSize, wordLimit]
    omega
  simp only [execute, outcome, cell_of, ok_bind, digit, scaled, sum_ok fits, Cpu.refusal?,
    Machine.after]
  rfl

theorem execute_decimal (x : Register) :
    (of m.cpu cells).execute keys m (.decimal x) = outcome keys now m cells (.decimal x) := by
  have stop := spanEnd_eq m.cpu.i (show 3 ≤ 16 by decide)
  simp only [Memory.spanFault?] at stop
  simp only [execute, outcome, cell_of, ok_bind, of_i, of_memory, stop, Cpu.refusal?,
    Memory.spanFault?]
  by_cases exist : m.cpu.i.toNat + 3 ≤ memorySize
  · have many : m.cpu.i.toNat + (decimalDigits (m.cpu.register x)).length = m.cpu.i.toNat + 3 := by
      rw [length_decimalDigits]
    simp only [exist, ↓reduceIte, ok_bind, copy_ok m.cpu.memory.bytes many exist]
    rfl
  · simp only [exist, ↓reduceIte, error_bind]

theorem execute_store (x : Register) :
    (of m.cpu cells).execute keys m (.store x) = outcome keys now m cells (.store x) := by
  have stop := spanEnd_eq m.cpu.i x.isLt
  simp only [Memory.spanFault?] at stop
  simp only [execute, outcome, of_i, of_v, of_memory, sum_one, ok_bind, stop, slice_registers,
    Cpu.refusal?, Memory.spanFault?]
  by_cases exist : m.cpu.i.toNat + (x.val + 1) ≤ memorySize
  · have many : m.cpu.i.toNat + (m.cpu.registersTo x).length = m.cpu.i.toNat + (x.val + 1) := by
      rw [Cpu.length_registersTo]
    simp only [exist, ↓reduceIte, ok_bind, copy_ok m.cpu.memory.bytes many exist]
    rfl
  · simp only [exist, ↓reduceIte, error_bind]

theorem execute_load (x : Register) :
    (of m.cpu cells).execute keys m (.load x) = outcome keys now m cells (.load x) := by
  simp only [execute, outcome, of_i, of_v, sum_one, ok_bind, read_of _ _ _ x.isLt, Cpu.refusal?,
    Memory.spanFault?]
  by_cases exist : m.cpu.i.toNat + (x.val + 1) ≤ memorySize
  · have length := Memory.length_slice m.cpu.memory exist
    have many := (Nat.zero_add _).trans length
    have copied := copy_ok (Vector.replicate 16 0) many x.isLt
    have sliced := slice_overwrite (Vector.replicate 16 0) length x.isLt
    simp only [exist, ↓reduceIte, ok_bind, copied, sliced, copy_ok m.cpu.v many x.isLt]
    rfl
  · simp only [exist, ↓reduceIte, error_bind]

end Instructions

theorem execute_of (keys : Key → Bool) (now : Instant) {m : Machine} {cells : Vector UInt16 16}
    (held : Holds cells m.cpu.stack) (wellFormed : m.cpu.WellFormed) (instruction : Instruction) :
    (of m.cpu cells).execute keys m instruction = outcome keys now m cells instruction := by
  cases instruction with
  | clear | sys | setIndex | awaitKey => rfl
  | ret => exact execute_ret keys now held wellFormed.depth
  | jump addr => exact jump_of ..
  | call addr => exact execute_call keys now wellFormed.depth addr
  | jumpOffset addr => exact execute_jumpOffset keys now addr
  | skipIfEqual | skipIfNotEqual | skipIfSame | skipIfDifferent =>
    simp only [execute, cell_of, ok_bind, skipIf_of wellFormed]
    rfl
  | skipIfPressed x => exact execute_skipIfPressed keys now wellFormed x
  | skipIfReleased x => exact execute_skipIfReleased keys now wellFormed x
  | set | random | readDelay =>
    simp only [execute, of, setRegister, setCell_fin, ok_bind]
    rfl
  | add =>
    simp only [execute, of, setRegister, cell_fin, setCell_fin, ok_bind]
    rfl
  | alu => exact alu_of ..
  | setDelay | setSound | addIndex =>
    simp only [execute, of, cell_fin, ok_bind]
    rfl
  | draw x y n => exact execute_draw keys now x y n
  | glyph x => exact execute_glyph keys now x
  | decimal x => exact execute_decimal keys now x
  | store x => exact execute_store keys now x
  | load x => exact execute_load keys now x

theorem held_after (keys : Key → Bool) (now : Instant) {m : Machine} {cells : Vector UInt16 16}
    {instruction : Instruction} (held : Holds cells m.cpu.stack)
    (accepted : m.cpu.refusal? instruction = none) :
    Holds (cellsAfter m.cpu cells instruction) (m.after keys now instruction).cpu.stack := by
  intro k live
  rw [Machine.after_stack] at live ⊢
  cases instruction with
  | call addr =>
    have room := Cpu.refusal_call accepted
    simp only [cellsAfter, List.reverse_cons, List.length_cons] at live ⊢
    rw [Vector.getElem?_setIfInBounds]
    by_cases last : m.cpu.stack.length = k
    · simp [← last, room]
    · have below : k < m.cpu.stack.length := by omega
      rw [if_neg last, held k below, List.getElem?_append_left (by simpa using below)]
  | ret =>
    simp only [List.length_tail] at live
    simp only [cellsAfter]
    rw [held k (by omega)]
    cases called : m.cpu.stack with
    | nil => rfl
    | cons entry rest =>
      rw [List.tail_cons, List.reverse_cons, List.getElem?_append_left]
      simp [called] at live ⊢
      omega
  | _ => exact held k live

/-- The increment does not wrap unless aiming the jump did. -/
theorem after_pc_bound (keys : Key → Bool) (now : Instant) {m : Machine}
    {instruction : Instruction} (wellFormed : m.cpu.WellFormed)
    (straight : wraps m.cpu instruction = false) :
    (m.after keys now instruction).cpu.pc.toNat + 2 < wordLimit := by
  have bound := wellFormed.pc
  simp only [wordLimit]
  cases jumps : m.cpu.target? instruction with
  | some target =>
    have := Cpu.target_bound jumps
    simp only [wraps, jumps, Option.any_some, decide_eq_false_iff_not] at straight
    rw [Machine.after_pc_of_target keys now jumps, ← ofNat_sub_two (by omega)]
    simp
    omega
  | none =>
    rcases Machine.after_pc_of_none keys now jumps with ⟨rfl, pc⟩ | pc | pc
    · cases called : m.cpu.stack with
      | nil => simp [pc, called]
      | cons entry rest =>
        have := wellFormed.entries entry (called ▸ List.mem_cons_self)
        simp [pc, called]
        omega
    · rw [pc]
      omega
    · simp [pc]
      omega

theorem after_pc_wraps (keys : Key → Bool) (now : Instant) {m : Machine}
    {instruction : Instruction} (wellFormed : m.cpu.WellFormed) :
    wordLimit ≤ (m.after keys now instruction).cpu.pc.toNat + 2 ↔
      ∃ target < 2, m.cpu.target? instruction = some target := by
  constructor
  · intro wrapped
    cases straight : wraps m.cpu instruction with
    | false => exact absurd (after_pc_bound keys now wellFormed straight) (Nat.not_lt.2 wrapped)
    | true =>
      obtain ⟨target, jumps, short⟩ := (Option.any_eq_true _ _).mp straight
      exact ⟨target, of_decide_eq_true short, jumps⟩
  · rintro ⟨target, short, jumps⟩
    rw [Machine.after_pc_of_target keys now jumps]
    match target, short with
    | 0, _ | 1, _ => decide

theorem carryOut_of (keys : Key → Bool) (now : Instant) {m : Machine} {cells : Vector UInt16 16}
    (held : Holds cells m.cpu.stack) (wellFormed : m.cpu.WellFormed) (word : UInt16) :
    (of m.cpu cells).carryOut keys m word =
      match Instruction.decode (.ofWord word) with
      | .error fault => .error (.fault fault)
      | .ok instruction =>
        match m.cpu.refusal? instruction with
        | some fault => .error (.fault fault)
        | none =>
          .ok (of (m.after keys now instruction).moveOn.cpu (cellsAfter m.cpu cells instruction)) := by
  unfold carryOut
  cases Instruction.decode (.ofWord word) with
  | error fault => rfl
  | ok instruction =>
    simp only [execute_of keys now held wellFormed instruction, outcome]
    cases m.cpu.refusal? instruction with
    | some fault => rfl
    | none =>
      simp only [ok_bind, advance]
      cases straight : wraps m.cpu instruction with
      | true => rfl
      | false =>
        have fits := after_pc_bound keys now wellFormed straight
        have moved : UInt16.ofNat ((m.after keys now instruction).cpu.pc.toNat + 2) =
          (m.after keys now instruction).cpu.pc + 2 := by simp
        simp only [Bool.false_eq_true, ↓reduceIte, of, sum_ok fits, ok_bind, moved]
        rfl

theorem step_of (keys : Key → Bool) (now : Instant) {m : Machine} {cells : Vector UInt16 16}
    (held : Holds cells m.cpu.stack) (wellFormed : m.cpu.WellFormed) :
    (of m.cpu cells).step keys m =
      match m.cpu.awaiting with
      | some _ => .ok (of m.cpu cells)
      | none =>
        match m.cpu.current with
        | .error fault => .error (.fault fault)
        | .ok instruction =>
          .ok (of (m.after keys now instruction).moveOn.cpu (cellsAfter m.cpu cells instruction)) := by
  have awaiting : (of m.cpu cells).awaiting = m.cpu.awaiting.map Fin.val := rfl
  simp only [step, awaiting, fetch_of, Cpu.current]
  cases m.cpu.awaiting with
  | some x => rfl
  | none =>
    cases m.cpu.fetch with
    | error fault => rfl
    | ok word =>
      simp only [Option.map_none, carryOut_of keys now held wellFormed, bind, Except.bind]
      cases Instruction.decode (.ofWord word) with
      | error fault => rfl
      | ok instruction =>
        simp only
        cases m.cpu.refusal? instruction <;> rfl

end ChipEight.Bare
