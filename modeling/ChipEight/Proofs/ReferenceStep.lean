import ChipEight.Proofs.Reference

/-! The instruction table is that of the reference. Each instruction, with the increment that
follows it, is brought to the reference's form (`carryOut_call` and its like); then the opcodes are
gone through by their first digit. -/
namespace ChipEight.Reference

/-- What an instruction comes to, with the increment that follows it. -/
def carryOut (keys : Key → Bool) (now : Instant) (m : Machine) (instruction : Instruction) :
    Except Fault Machine :=
  match m.cpu.refusal? instruction with
  | some fault => .error fault
  | none => .ok (m.after keys now instruction).moveOn

variable {keys : Key → Bool} {now : Instant} {m : Machine}

theorem skipOnKey_eq_goto (x : Register) (held : Bool) :
    (match if (m.cpu.register x).toNat < 16 then none else some (.notOnKeypad (m.cpu.register x)) with
      | some fault => .error fault
      | none => .ok ({ m with cpu := m.cpu.skipIf (keys (m.cpu.keyIn x) == held) } : Machine).moveOn) =
      if h : (m.cpu.register x).toNat < 16 then
        goto m (if keys ⟨(m.cpu.register x).toNat, h⟩ = held then m.cpu.pc.toNat + 4
          else m.cpu.pc.toNat + 2)
      else .error (.notOnKeypad (m.cpu.register x)) := by
  by_cases known : (m.cpu.register x).toNat < 16
  · simp only [known, ↓reduceIte, ↓reduceDIte, skip_eq_goto, Cpu.keyIn_eq known, beq_iff_eq]
  · simp only [known, ↓reduceIte, ↓reduceDIte]

theorem carryOut_skipIfPressed (x : Register) :
    carryOut keys now m (.skipIfPressed x) =
      if h : (m.cpu.register x).toNat < 16 then
        goto m (if keys ⟨(m.cpu.register x).toNat, h⟩ then m.cpu.pc.toNat + 4
          else m.cpu.pc.toNat + 2)
      else .error (.notOnKeypad (m.cpu.register x)) :=
  skipOnKey_eq_goto x true

theorem carryOut_skipIfReleased (x : Register) :
    carryOut keys now m (.skipIfReleased x) =
      if h : (m.cpu.register x).toNat < 16 then
        goto m (if keys ⟨(m.cpu.register x).toNat, h⟩ then m.cpu.pc.toNat + 2
          else m.cpu.pc.toNat + 4)
      else .error (.notOnKeypad (m.cpu.register x)) := by
  refine (skipOnKey_eq_goto x false).trans ?_
  by_cases known : (m.cpu.register x).toNat < 16
  · simp only [known, ↓reduceDIte]
    cases keys ⟨(m.cpu.register x).toNat, known⟩ <;> rfl
  · simp only [known, ↓reduceDIte]

def source (m : Machine) (x y : Register) : UInt8 :=
  match m.settings.shiftOperand with
  | .vx => m.cpu.register x
  | .vy => m.cpu.register y

theorem toNat_source (m : Machine) (x y : Register) :
    (source m x y).toNat =
      shifted m.settings.shiftOperand (m.cpu.register x).toNat (m.cpu.register y).toNat := by
  unfold source shifted
  cases m.settings.shiftOperand <;> rfl

theorem alu_eq (m : Machine) (op : RegisterOp) (x y : Register) :
    m.cpu.alu m.settings.shiftOperand op x y =
      let outcome := op.apply (m.cpu.register x) (m.cpu.register y) (source m x y)
      match outcome.2 with
      | some flag => (m.cpu.setRegister x outcome.1).setRegister flagRegister flag
      | none => m.cpu.setRegister x outcome.1 := rfl

theorem carryOut_alu (op : RegisterOp) (x y : Register) :
    carryOut keys now m (.alu op x y) =
      match op.apply (m.cpu.register x) (m.cpu.register y) (source m x y) with
      | (result, none) => goto (put m x result.toNat) (m.cpu.pc.toNat + 2)
      | (result, some flag) =>
        goto (putFlagged m x result.toNat flag.toNat) (m.cpu.pc.toNat + 2) := by
  simp only [carryOut, Cpu.refusal?, Machine.after, moveOn_eq_goto, alu_eq]
  generalize op.apply (m.cpu.register x) (m.cpu.register y) (source m x y) = outcome
  obtain ⟨result, _ | flag⟩ := outcome
  · simp only [setRegister_eq_put m x result.toNat result (by simp)]
    rfl
  · simp only [setFlagged_eq_putFlagged]
    rfl

theorem carryOut_clear :
    carryOut keys now m .clear =
      goto { m with display := { screen := .blank, dirty := true } } (m.cpu.pc.toNat + 2) :=
  moveOn_eq_goto _

theorem carryOut_sys (addr : Address) :
    carryOut keys now m (.sys addr) = goto m (m.cpu.pc.toNat + 2) := moveOn_eq_goto m

theorem carryOut_set (x : Register) (value : UInt8) :
    carryOut keys now m (.set x value) = goto (put m x value.toNat) (m.cpu.pc.toNat + 2) := by
  refine (moveOn_eq_goto _).trans ?_
  rw [← setRegister_eq_put m x value.toNat value (by simp)]
  rfl

theorem carryOut_add (x : Register) (value : UInt8) :
    carryOut keys now m (.add x value) =
      goto (put m x ((m.cpu.register x).toNat + value.toNat)) (m.cpu.pc.toNat + 2) := by
  refine (moveOn_eq_goto _).trans ?_
  rw [← setRegister_eq_put m x _ (m.cpu.register x + value) (UInt8.toNat_add _ _)]
  rfl

theorem carryOut_random (x : Register) (mask : UInt8) :
    carryOut keys now m (.random x mask) =
      goto (put { m with random := m.random.next.2 } x (m.random.next.1.toNat &&& mask.toNat))
        (m.cpu.pc.toNat + 2) := by
  refine (moveOn_eq_goto _).trans ?_
  have masked : (m.random.next.1 &&& mask).toNat =
      (m.random.next.1.toNat &&& mask.toNat) % 256 := by
    rw [← UInt8.toNat_and]
    exact (Nat.mod_eq_of_lt (UInt8.toNat_lt _)).symm
  rw [← setRegister_eq_put { m with random := m.random.next.2 } x _ _ masked]
  rfl

theorem carryOut_readDelay (x : Register) :
    carryOut keys now m (.readDelay x) =
      goto (put m x m.delay.value.toNat) (m.cpu.pc.toNat + 2) := by
  refine (moveOn_eq_goto _).trans ?_
  rw [← setRegister_eq_put m x _ m.delay.value (by simp)]
  rfl

theorem carryOut_awaitKey (x : Register) :
    carryOut keys now m (.awaitKey x) =
      goto { m with cpu := { m.cpu with awaiting := some x } } (m.cpu.pc.toNat + 2) :=
  moveOn_eq_goto _

theorem carryOut_addIndex (x : Register) :
    carryOut keys now m (.addIndex x) =
      goto { m with cpu := { m.cpu with i := .ofNat (m.cpu.i.toNat + (m.cpu.register x).toNat) } }
        (m.cpu.pc.toNat + 2) := by
  refine (moveOn_eq_goto _).trans ?_
  have sum : m.cpu.i + (m.cpu.register x).toUInt16 =
      .ofNat (m.cpu.i.toNat + (m.cpu.register x).toNat) :=
    UInt16.toNat_inj.mp (by simp)
  rw [← sum]
  rfl

theorem carryOut_glyph (x : Register) :
    carryOut keys now m (.glyph x) =
      goto { m with cpu := { m.cpu with i := .ofNat (0x50 + (m.cpu.register x).toNat % 16 * 5) } }
        (m.cpu.pc.toNat + 2) := by
  refine (moveOn_eq_goto _).trans ?_
  have digit : (m.cpu.register x &&& 0xF).toNat = (m.cpu.register x).toNat % 16 :=
    Nat.and_two_pow_sub_one_eq_mod (m.cpu.register x).toNat 4
  rw [← digit, Nat.mul_comm _ 5]
  rfl

theorem carryOut_ret :
    carryOut keys now m .ret = ret m := by
  simp only [carryOut, Cpu.refusal?, Machine.after, moveOn_eq_goto, ret]
  cases m.cpu.stack with
  | nil => rfl
  | cons entry rest => rfl

theorem carryOut_call (depth : m.cpu.stack.length ≤ 16) (addr : Address) :
    carryOut keys now m (.call addr) =
      if m.cpu.stack.length = 16 then .error .stackOverflow
      else goto { m with cpu := { m.cpu with stack := m.cpu.pc :: m.cpu.stack } } addr.val := by
  simp only [carryOut, Cpu.refusal?, Machine.after]
  by_cases full : m.cpu.stack.length = 16
  · have : ¬ m.cpu.stack.length < stackDepth := by simp only [stackDepth]; omega
    rw [if_neg this, if_pos full]
  · have : m.cpu.stack.length < stackDepth := by simp only [stackDepth]; omega
    rw [if_pos this, if_neg full]
    exact (jump_eq_goto { m with cpu := { m.cpu with stack := m.cpu.pc :: m.cpu.stack } }
      (.ofNat addr.val)).trans (by rw [toNat_address])

theorem carryOut_draw (x y : Register) (n : Fin 16) (exist : m.cpu.i.toNat + n.val ≤ 4096) :
    carryOut keys now m (.draw x y n) =
      let sprite := (List.range n.val).map fun k => byte m (m.cpu.i.toNat + k)
      let drawn := m.display.draw (m.cpu.register x) (m.cpu.register y) sprite
      goto (put { m with display := drawn.1 } 0xF (if drawn.2 then 1 else 0))
        (m.cpu.pc.toNat + 2) := by
  simp only [carryOut, Cpu.refusal?, Memory.spanFault?, memorySize, exist, ↓reduceIte,
    Machine.after, slice_eq m exist, moveOn_eq_goto]
  generalize m.display.draw (m.cpu.register x) (m.cpu.register y) _ = drawn
  have flag : (if drawn.2 then 1 else 0 : UInt8).toNat = (if drawn.2 then 1 else 0) % 256 := by
    split <;> rfl
  rw [← setRegister_eq_put { m with display := drawn.1 } 0xF _ _ flag]
  rfl

theorem carryOut_setDelay (x : Register) :
    carryOut keys now m (.setDelay x) =
      if m.delay.value = 0 ∧ (m.cpu.register x).toNat ≠ 0 then
        goto { m with
          delay := ⟨.ofNat (m.cpu.register x).toNat⟩
          agenda := { m.agenda with delay := some (now + m.settings.timerPeriod) } }
          (m.cpu.pc.toNat + 2)
      else goto m (m.cpu.pc.toNat + 2) := by
  have zero : m.cpu.register x = 0 ↔ (m.cpu.register x).toNat = 0 := UInt8.toNat_inj.symm
  simp only [carryOut, Cpu.refusal?, Machine.after, moveOn_eq_goto, Countdown.set_eq,
    UInt8.ofNat_toNat, ne_eq, zero]
  split <;> rfl

theorem carryOut_setSound (x : Register) :
    carryOut keys now m (.setSound x) =
      if m.sound.value = 0 ∧ (m.cpu.register x).toNat ≠ 0 then
        goto { m with
          sound := ⟨.ofNat (m.cpu.register x).toNat⟩
          agenda := { m.agenda with sound := some (now + m.settings.timerPeriod) } }
          (m.cpu.pc.toNat + 2)
      else goto m (m.cpu.pc.toNat + 2) := by
  have zero : m.cpu.register x = 0 ↔ (m.cpu.register x).toNat = 0 := UInt8.toNat_inj.symm
  simp only [carryOut, Cpu.refusal?, Machine.after, moveOn_eq_goto, Countdown.set_eq,
    UInt8.ofNat_toNat, ne_eq, zero]
  split <;> rfl

theorem carryOut_decimal (x : Register) (exist : m.cpu.i.toNat + 3 ≤ 4096) :
    carryOut keys now m (.decimal x) =
      goto (withMemory m fun address =>
        if address = m.cpu.i.toNat then .ofNat ((m.cpu.register x).toNat / 100)
        else if address = m.cpu.i.toNat + 1 then .ofNat ((m.cpu.register x).toNat / 10 % 10)
        else if address = m.cpu.i.toNat + 2 then .ofNat ((m.cpu.register x).toNat % 10)
        else byte m address) (m.cpu.pc.toNat + 2) := by
  simp only [carryOut, Cpu.refusal?, Memory.spanFault?, memorySize, exist, ↓reduceIte,
    Machine.after, moveOn_eq_goto]
  rw [patch_decimal_eq]

theorem carryOut_store (x : Register) (exist : m.cpu.i.toNat + (x.val + 1) ≤ 4096) :
    carryOut keys now m (.store x) =
      goto (withMemory m fun address =>
        if m.cpu.i.toNat ≤ address ∧ address ≤ m.cpu.i.toNat + x.val then
          m.cpu.v[address - m.cpu.i.toNat]?.getD 0
        else byte m address) (m.cpu.pc.toNat + 2) := by
  simp only [carryOut, Cpu.refusal?, Memory.spanFault?, memorySize, exist, ↓reduceIte,
    Machine.after, moveOn_eq_goto]
  rw [patch_registers_eq]

theorem carryOut_load (x : Register) (exist : m.cpu.i.toNat + (x.val + 1) ≤ 4096) :
    carryOut keys now m (.load x) =
      goto (withRegisters m fun r =>
        if r.val ≤ x.val then byte m (m.cpu.i.toNat + r.val) else m.cpu.register r)
        (m.cpu.pc.toNat + 2) := by
  simp only [carryOut, Cpu.refusal?, Memory.spanFault?, memorySize, exist, ↓reduceIte,
    Machine.after, moveOn_eq_goto]
  rw [setRegisters_slice_eq m x exist]
  rfl

/-! ### By the first digit -/

/-- What an opcode comes to by way of its instruction. -/
def decoded (keys : Key → Bool) (now : Instant) (m : Machine) (raw : UInt16) :
    Except Fault Machine :=
  match Instruction.decode? (.ofWord raw) with
  | some instruction => carryOut keys now m instruction
  | none => .error (.unimplemented raw)

variable {raw : UInt16}

theorem decoded_system (digit : raw.toNat / 4096 = 0x0) :
    decoded keys now m raw = step keys now raw.toNat m := by
  simp only [decoded, step, Instruction.decode?, category_ofWord, digit, Instruction.decodeSystem,
    n_ofWord]
  symm
  split
  case h_1 => simp only [*, carryOut_clear]
  case h_2 => simp only [*, carryOut_ret]
  case h_3 => simp only [carryOut_sys]

theorem decoded_skipIfSame (digit : raw.toNat / 4096 = 0x5) :
    decoded keys now m raw = step keys now raw.toNat m := by
  simp only [decoded, step, Instruction.decode?, category_ofWord, digit, Fin.ext_iff, n_ofWord,
    Fin.val_zero]
  by_cases zero : raw.toNat % 16 = 0
  · simp only [zero, ↓reduceIte]
    refine (skip_eq_goto m _).trans ?_
    simp only [x_ofWord, y_ofWord, beq_iff_eq, ← UInt8.toNat_inj]
  · simp only [zero, ↓reduceIte, UInt16.ofNat_toNat]

theorem decoded_alu (digit : raw.toNat / 4096 = 0x8) :
    decoded keys now m raw = step keys now raw.toNat m := by
  simp only [decoded, step, Instruction.decode?, category_ofWord, digit, ← n_ofWord, x_ofWord,
    y_ofWord]
  rw [← toNat_source, arithmetic_eq]
  cases RegisterOp.ofNibble? (Opcode.ofWord raw).n with
  | none => simp only [Option.map_none, UInt16.ofNat_toNat]
  | some op =>
    simp only [Option.map_some, carryOut_alu]
    generalize op.apply (m.cpu.register (x raw.toNat)) (m.cpu.register (y raw.toNat)) _ = outcome
    obtain ⟨result, _ | flag⟩ := outcome <;> rfl

theorem decoded_skipIfDifferent (digit : raw.toNat / 4096 = 0x9) :
    decoded keys now m raw = step keys now raw.toNat m := by
  simp only [decoded, step, Instruction.decode?, category_ofWord, digit, Fin.ext_iff, n_ofWord,
    Fin.val_zero]
  by_cases zero : raw.toNat % 16 = 0
  · simp only [zero, ↓reduceIte]
    refine (skip_eq_goto m _).trans ?_
    simp only [x_ofWord, y_ofWord, bne_iff_ne, ne_eq, ← UInt8.toNat_inj, ite_not]
  · simp only [zero, ↓reduceIte, UInt16.ofNat_toNat]

theorem decoded_jumpOffset (digit : raw.toNat / 4096 = 0xB) :
    decoded keys now m raw = step keys now raw.toNat m := by
  simp only [decoded, step, Instruction.decode?, category_ofWord, digit]
  refine (jump_eq_goto m _).trans (congrArg (goto m) ?_)
  have offset := (m.cpu.register 0).toNat_lt
  rw [UInt16.toNat_add, toNat_address, Opcode.addr_ofWord, UInt8.toNat_toUInt16]
  omega

theorem decoded_draw (digit : raw.toNat / 4096 = 0xD)
    (exist : m.cpu.i.toNat + raw.toNat % 16 ≤ 4096) :
    decoded keys now m raw = step keys now raw.toNat m := by
  rw [← n_ofWord] at exist
  simp only [decoded, step, Instruction.decode?, category_ofWord, digit, carryOut_draw _ _ _ exist,
    x_ofWord, y_ofWord, n_ofWord]

theorem decoded_key (digit : raw.toNat / 4096 = 0xE) :
    decoded keys now m raw = step keys now raw.toNat m := by
  simp only [decoded, step, Instruction.decode?, category_ofWord, digit, Instruction.decodeKey?,
    Opcode.kk_ofWord, x_ofWord]
  symm
  split
  case h_1 => simp only [*, carryOut_skipIfPressed]
  case h_2 => simp only [*, carryOut_skipIfReleased]
  case h_3 => simp only [UInt16.ofNat_toNat]

theorem decoded_misc (digit : raw.toNat / 4096 = 0xF)
    (exist : ∀ length, operand? raw.toNat = some length → m.cpu.i.toNat + length ≤ 4096) :
    decoded keys now m raw = step keys now raw.toNat m := by
  simp only [operand?, digit] at exist
  simp only [decoded, step, Instruction.decode?, category_ofWord, digit, Instruction.decodeMisc?,
    Opcode.kk_ofWord, x_ofWord]
  symm
  split
  case h_1 => simp only [*, carryOut_readDelay]
  case h_2 => simp only [*, carryOut_awaitKey]
  case h_3 => simp only [*, carryOut_setDelay]
  case h_4 => simp only [*, carryOut_setSound]
  case h_5 => simp only [*, carryOut_addIndex]
  case h_6 => simp only [*, carryOut_glyph]
  case h_7 code =>
    simp only [code] at exist
    simp only [*, carryOut_decimal _ (exist 3 rfl)]
  case h_8 code =>
    simp only [code] at exist
    simp only [*, carryOut_store (x raw.toNat) (exist _ rfl)]
  case h_9 code =>
    simp only [code] at exist
    simp only [*, carryOut_load (x raw.toNat) (exist _ rfl)]
  case h_10 => simp only [UInt16.ofNat_toNat]

/-- Decoding by nibbles and carrying out is the reference. -/
theorem decoded_eq_step (depth : m.cpu.stack.length ≤ 16)
    (operand : ∀ length, operand? raw.toNat = some length → m.cpu.i.toNat + length ≤ 4096) :
    decoded keys now m raw = step keys now raw.toNat m := by
  have small := raw.toNat_lt
  rcases (by omega : raw.toNat / 4096 = 0x0 ∨ raw.toNat / 4096 = 0x1 ∨ raw.toNat / 4096 = 0x2 ∨
    raw.toNat / 4096 = 0x3 ∨ raw.toNat / 4096 = 0x4 ∨ raw.toNat / 4096 = 0x5 ∨
    raw.toNat / 4096 = 0x6 ∨ raw.toNat / 4096 = 0x7 ∨ raw.toNat / 4096 = 0x8 ∨
    raw.toNat / 4096 = 0x9 ∨ raw.toNat / 4096 = 0xA ∨ raw.toNat / 4096 = 0xB ∨
    raw.toNat / 4096 = 0xC ∨ raw.toNat / 4096 = 0xD ∨ raw.toNat / 4096 = 0xE ∨
    raw.toNat / 4096 = 0xF) with
    system | jump | call | skipIfEqual | skipIfNotEqual | skipIfSame | set | add | alu |
    skipIfDifferent | setIndex | jumpOffset | random | draw | key | misc
  · exact decoded_system system
  · simp only [decoded, step, Instruction.decode?, category_ofWord, jump]
    refine (jump_eq_goto m _).trans ?_
    rw [toNat_address, Opcode.addr_ofWord]
  · simp only [decoded, step, Instruction.decode?, category_ofWord, call]
    rw [carryOut_call depth, Opcode.addr_ofWord]
  · simp only [decoded, step, Instruction.decode?, category_ofWord, skipIfEqual]
    refine (skip_eq_goto m _).trans ?_
    simp only [x_ofWord, beq_iff_eq, ← UInt8.toNat_inj, Opcode.kk_ofWord]
  · simp only [decoded, step, Instruction.decode?, category_ofWord, skipIfNotEqual]
    refine (skip_eq_goto m _).trans ?_
    simp only [x_ofWord, bne_iff_ne, ne_eq, ← UInt8.toNat_inj, Opcode.kk_ofWord, ite_not]
  · exact decoded_skipIfSame skipIfSame
  · simp only [decoded, step, Instruction.decode?, category_ofWord, set]
    rw [carryOut_set, x_ofWord, Opcode.kk_ofWord]
  · simp only [decoded, step, Instruction.decode?, category_ofWord, add]
    rw [carryOut_add, x_ofWord, Opcode.kk_ofWord]
  · exact decoded_alu alu
  · exact decoded_skipIfDifferent skipIfDifferent
  · simp only [decoded, step, Instruction.decode?, category_ofWord, setIndex]
    refine (moveOn_eq_goto _).trans ?_
    simp only [Machine.after, Opcode.addr_ofWord]
  · exact decoded_jumpOffset jumpOffset
  · simp only [decoded, step, Instruction.decode?, category_ofWord, random]
    rw [carryOut_random, x_ofWord, Opcode.kk_ofWord]
  · have named : operand? raw.toNat = some (raw.toNat % 16) := by simp only [operand?, draw]
    exact decoded_draw draw (operand _ named)
  · exact decoded_key key
  · exact decoded_misc misc operand

theorem step_eq_decoded (free : m.cpu.awaiting = none) (fetched : m.cpu.fetch = .ok raw) :
    Machine.step keys now m =
      match decoded keys now m raw with
      | .ok next => .ok () next
      | .error fault => .error fault m := by
  simp only [Machine.step_eq, free, Cpu.current, fetched, bind, Except.bind, Instruction.decode,
    decoded, carryOut, Opcode.word_ofWord]
  cases Instruction.decode? (.ofWord raw) with
  | none => rfl
  | some instruction =>
    simp only
    cases m.cpu.refusal? instruction <;> rfl

/-- With an opcode at the program counter whose operand in memory exists, a step is a step of the
reference, and a fault leaves the machine as it was. -/
theorem step_eq_reference (keys : Key → Bool) (now : Instant) (m : Machine) (raw : UInt16)
    (free : m.cpu.awaiting = none) (depth : m.cpu.stack.length ≤ 16)
    (bound : m.cpu.pc.toNat + 1 ≤ 4095)
    (high : byte m m.cpu.pc.toNat = .ofNat (raw.toNat / 256))
    (low : byte m (m.cpu.pc.toNat + 1) = .ofNat (raw.toNat % 256))
    (operand : ∀ length, operand? raw.toNat = some length → m.cpu.i.toNat + length ≤ 4096) :
    Machine.step keys now m =
      match step keys now raw.toNat m with
      | .ok next => .ok () next
      | .error fault => .error fault m := by
  have fetched : m.cpu.fetch = .ok raw := by
    refine word_eq (by omega) ?_ ?_
    · rw [getElem?_bytes m (by omega), high]
    · rw [getElem?_bytes m (by omega), low]
  rw [step_eq_decoded free fetched, decoded_eq_step depth operand]

/-- About to store V0 to V3 in the last four bytes of memory. -/
def edge : Machine :=
  { Machine.new {} (Vector.replicate 8 0) with
    cpu :=
      { i := 4092
        v := Vector.ofFn fun r => .ofNat (r.val + 1)
        memory := ⟨((Vector.replicate 4096 0).set 512 0xF3).set 513 0x55⟩ } }

theorem step_eq_reference_edge :
    Machine.step (fun _ => false) 0 edge =
      match step (fun _ => false) 0 0xF355 edge with
      | .ok next => .ok () next
      | .error fault => .error fault edge := by
  refine step_eq_reference _ _ edge 0xF355 rfl (by decide) (by decide) ?_ ?_ ?_
  · simp [byte, edge, programStart]
  · simp [byte, edge, programStart]
  · rintro length ⟨⟩
    decide

end ChipEight.Reference
