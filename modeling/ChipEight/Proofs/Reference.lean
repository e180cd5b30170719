import ChipEight.Proofs.Execute

/-! A reference for the instruction table. `Reference.step` reads the fields of an opcode by
division and says at once what follows: the registers and the memory cell by cell, and the next
program counter as a number. It knows no instruction type, no compensated jump targets and no
increment at the end. `step_eq_reference` says that a step does the same. -/
namespace ChipEight.Reference

def x (raw : Nat) : Register := Fin.ofNat 16 (raw / 256)
def y (raw : Nat) : Register := Fin.ofNat 16 (raw / 16)

/-- How many bytes at `I` an opcode reads or writes, if it has such an operand. -/
def operand? (raw : Nat) : Option Nat :=
  match raw / 4096, raw % 256 with
  | 0xD, _ => some (raw % 16)
  | 0xF, 0x33 => some 3
  | 0xF, 0x55 | 0xF, 0x65 => some (raw / 256 % 16 + 1)
  | _, _ => none

def byte (m : Machine) (address : Nat) : UInt8 := m.cpu.memory.bytes[address]?.getD 0

def withRegisters (m : Machine) (value : Register → UInt8) : Machine :=
  { m with cpu := { m.cpu with v := Vector.ofFn value } }

def withMemory (m : Machine) (value : Nat → UInt8) : Machine :=
  { m with cpu := { m.cpu with memory := ⟨Vector.ofFn fun address => value address.val⟩ } }

/-- A number in one register, modulo 256. -/
def put (m : Machine) (x : Register) (value : Nat) : Machine :=
  withRegisters m fun r => if r = x then .ofNat value else m.cpu.register r

/-- A number in one register and a flag in VF, which wins if both go there. -/
def putFlagged (m : Machine) (x : Register) (value flag : Nat) : Machine :=
  withRegisters m fun r => if r = 0xF then .ofNat flag else if r = x then .ofNat value
    else m.cpu.register r

/-- What a shift takes as its operand. -/
def shifted (source : ShiftOperand) (a b : Nat) : Nat :=
  match source with
  | .vx => a
  | .vy => b

/-- Result and flag of category 8, for `a` in VX, `b` in VY and `s` in the shifted register. -/
def arithmetic (n a b s : Nat) : Option (Nat × Option Nat) :=
  match n with
  | 0x0 => some (b, none)
  | 0x1 => some (a ||| b, none)
  | 0x2 => some (a &&& b, none)
  | 0x3 => some (a ^^^ b, none)
  | 0x4 => some ((a + b) % 256, some ((a + b) / 256))
  | 0x5 => some ((256 + a - b) % 256, some ((256 + a - b) / 256))
  | 0x6 => some (s / 2, some (s % 2))
  | 0x7 => some ((256 + b - a) % 256, some ((256 + b - a) / 256))
  | 0xE => some (2 * s % 256, some (2 * s / 256))
  | _ => none

/-- The machine at its next instruction. -/
def goto (m : Machine) (pc : Nat) : Except Fault Machine :=
  .ok { m with cpu := { m.cpu with pc := .ofNat pc } }

/-- A machine behind its latest call. -/
def ret (m : Machine) : Except Fault Machine :=
  match m.cpu.stack with
  | [] => .error .stackUnderflow
  | entry :: rest => goto { m with cpu := { m.cpu with stack := rest } } (entry.toNat + 2)

def step (keys : Key → Bool) (now : Instant) (raw : Nat) (m : Machine) : Except Fault Machine :=
  let pc := m.cpu.pc.toNat
  let i := m.cpu.i.toNat
  let x := x raw
  let a := (m.cpu.register x).toNat
  let b := (m.cpu.register (y raw)).toNat
  let n := raw % 16
  let nn := raw % 256
  let nnn := raw % 4096
  let undefined := .error (.unimplemented (.ofNat raw))
  match raw / 4096 with
  | 0x0 =>
    match n with
    | 0x0 => goto { m with display := { screen := .blank, dirty := true } } (pc + 2)
    | 0xE => ret m
    | _ => goto m (pc + 2)
  | 0x1 => goto m nnn
  | 0x2 =>
    if m.cpu.stack.length = 16 then .error .stackOverflow
    else goto { m with cpu := { m.cpu with stack := m.cpu.pc :: m.cpu.stack } } nnn
  | 0x3 => goto m (if a = nn then pc + 4 else pc + 2)
  | 0x4 => goto m (if a = nn then pc + 2 else pc + 4)
  | 0x5 => if n = 0 then goto m (if a = b then pc + 4 else pc + 2) else undefined
  | 0x6 => goto (put m x nn) (pc + 2)
  | 0x7 => goto (put m x (a + nn)) (pc + 2)
  | 0x8 =>
    match arithmetic n a b (shifted m.settings.shiftOperand a b) with
    | some (value, none) => goto (put m x value) (pc + 2)
    | some (value, some flag) => goto (putFlagged m x value flag) (pc + 2)
    | none => undefined
  | 0x9 => if n = 0 then goto m (if a = b then pc + 2 else pc + 4) else undefined
  | 0xA => goto { m with cpu := { m.cpu with i := .ofNat nnn } } (pc + 2)
  | 0xB => goto m (nnn + (m.cpu.register 0).toNat)
  | 0xC =>
    goto (put { m with random := m.random.next.2 } x (m.random.next.1.toNat &&& nn)) (pc + 2)
  | 0xD =>
    let sprite := (List.range n).map fun k => byte m (i + k)
    let drawn := m.display.draw (m.cpu.register x) (m.cpu.register (y raw)) sprite
    goto (put { m with display := drawn.1 } 0xF (if drawn.2 then 1 else 0)) (pc + 2)
  | 0xE =>
    match nn with
    | 0x9E =>
      if h : a < 16 then goto m (if keys ⟨a, h⟩ then pc + 4 else pc + 2)
      else .error (.notOnKeypad (m.cpu.register x))
    | 0xA1 =>
      if h : a < 16 then goto m (if keys ⟨a, h⟩ then pc + 2 else pc + 4)
      else .error (.notOnKeypad (m.cpu.register x))
    | _ => undefined
  | 0xF =>
    match nn with
    | 0x07 => goto (put m x m.delay.value.toNat) (pc + 2)
    | 0x0A => goto { m with cpu := { m.cpu with awaiting := some x } } (pc + 2)
    | 0x15 =>
      if m.delay.value = 0 ∧ a ≠ 0 then
        goto { m with
          delay := ⟨.ofNat a⟩
          agenda := { m.agenda with delay := some (now + m.settings.timerPeriod) } } (pc + 2)
      else goto m (pc + 2)
    | 0x18 =>
      if m.sound.value = 0 ∧ a ≠ 0 then
        goto { m with
          sound := ⟨.ofNat a⟩
          agenda := { m.agenda with sound := some (now + m.settings.timerPeriod) } } (pc + 2)
      else goto m (pc + 2)
    | 0x1E => goto { m with cpu := { m.cpu with i := .ofNat (i + a) } } (pc + 2)
    | 0x29 => goto { m with cpu := { m.cpu with i := .ofNat (0x50 + a % 16 * 5) } } (pc + 2)
    | 0x33 =>
      goto (withMemory m fun address =>
        if address = i then .ofNat (a / 100)
        else if address = i + 1 then .ofNat (a / 10 % 10)
        else if address = i + 2 then .ofNat (a % 10)
        else byte m address) (pc + 2)
    | 0x55 =>
      goto (withMemory m fun address =>
        if i ≤ address ∧ address ≤ i + x.val then m.cpu.v[address - i]?.getD 0
        else byte m address) (pc + 2)
    | 0x65 =>
      goto (withRegisters m fun r =>
        if r.val ≤ x.val then byte m (i + r.val) else m.cpu.register r) (pc + 2)
    | _ => undefined
  | _ => undefined

/-! ### Numbers and words -/

theorem word_eq {memory : Memory} {address : Nat} {raw : UInt16} (bound : address + 1 < 4096)
    (high : memory.bytes[address]? = some (.ofNat (raw.toNat / 256)))
    (low : memory.bytes[address + 1]? = some (.ofNat (raw.toNat % 256))) :
    memory.word address = .ok raw := by
  obtain ⟨_, first⟩ := Vector.getElem?_eq_some_iff.mp high
  obtain ⟨_, second⟩ := Vector.getElem?_eq_some_iff.mp low
  rw [Memory.word_eq memory bound, first, second]
  refine congrArg Except.ok (UInt16.toNat_inj.mp ?_)
  have small := raw.toNat_lt
  have joined := Nat.shiftLeft_add_eq_or_of_lt (show raw.toNat % 256 < 2 ^ 8 by omega)
    (raw.toNat / 256)
  simp only [Nat.shiftLeft_eq] at joined
  have bytes : raw.toNat / 256 % 256 * 256 % 65536 = raw.toNat / 256 * 2 ^ 8 := by omega
  simp [Nat.shiftLeft_eq, bytes, ← joined]
  omega

theorem category_ofWord (raw : UInt16) : (Opcode.ofWord raw).category.val = raw.toNat / 4096 := by
  have := raw.toNat_lt
  simp [Opcode.ofWord, Opcode.nibble_val, Nat.shiftRight_eq_div_pow]
  omega

theorem x_ofWord (raw : UInt16) : (Opcode.ofWord raw).x = x raw.toNat := by
  apply Fin.ext
  simp [Opcode.ofWord, Opcode.nibble_val, Nat.shiftRight_eq_div_pow, x]

theorem y_ofWord (raw : UInt16) : (Opcode.ofWord raw).y = y raw.toNat := by
  apply Fin.ext
  simp [Opcode.ofWord, Opcode.nibble_val, Nat.shiftRight_eq_div_pow, y]

theorem n_ofWord (raw : UInt16) : (Opcode.ofWord raw).n.val = raw.toNat % 16 := by
  simp [Opcode.ofWord, Opcode.nibble_val]

theorem toNat_address (addr : Address) : (UInt16.ofNat addr.val).toNat = addr.val := by
  have := addr.isLt
  simp
  omega

/-! ### Where an instruction goes -/

theorem moveOn_eq_goto (m : Machine) : .ok m.moveOn = goto m (m.cpu.pc.toNat + 2) := by
  simp [goto, Machine.moveOn, Cpu.advance]

theorem skip_eq_goto (m : Machine) (taken : Bool) :
    .ok ({ m with cpu := m.cpu.skipIf taken } : Machine).moveOn =
      goto m (if taken then m.cpu.pc.toNat + 4 else m.cpu.pc.toNat + 2) := by
  cases taken
  · exact moveOn_eq_goto m
  · simp [goto, Machine.moveOn, Cpu.skipIf, Cpu.advance, UInt16.add_assoc]

/-- Aiming two bytes early cancels the increment. -/
theorem jump_eq_goto (m : Machine) (target : UInt16) :
    .ok ({ m with cpu := { m.cpu with pc := target - 2 } } : Machine).moveOn =
      goto m target.toNat := by
  simp [goto, Machine.moveOn, Cpu.advance]

/-! ### What an instruction writes -/

theorem setV_eq {m : Machine} {v : Vector UInt8 16} {value : Register → UInt8}
    (same : ∀ r, ({ m.cpu with v } : Cpu).register r = value r) :
    { m with cpu := { m.cpu with v } } = withRegisters m value := by
  refine congrArg (fun v => { m with cpu := { m.cpu with v } }) (Vector.ext fun r bound => ?_)
  rw [Vector.getElem_ofFn]
  exact same ⟨r, bound⟩

theorem setMemory_eq {m : Machine} {memory : Memory} {value : Nat → UInt8}
    (same : ∀ address < 4096, memory.bytes[address]? = some (value address)) :
    { m with cpu := { m.cpu with memory } } = withMemory m value := by
  refine congrArg (fun bytes => { m with cpu := { m.cpu with memory := ⟨bytes⟩ } })
    (Vector.ext fun address bound => ?_)
  obtain ⟨_, cell⟩ := Vector.getElem?_eq_some_iff.mp (same address bound)
  rw [Vector.getElem_ofFn, cell]

theorem setRegister_eq_put (m : Machine) (x : Register) (value : Nat) (byte : UInt8)
    (same : byte.toNat = value % 256) :
    { m with cpu := m.cpu.setRegister x byte } = put m x value := by
  have : byte = .ofNat value := UInt8.toNat_inj.mp (by simpa using same)
  refine setV_eq fun r => (m.cpu.register_setRegister x r byte).trans ?_
  rw [this]

theorem setFlagged_eq_putFlagged (m : Machine) (x : Register) (result flag : UInt8) :
    { m with cpu := (m.cpu.setRegister x result).setRegister flagRegister flag } =
      putFlagged m x result.toNat flag.toNat := by
  refine setV_eq fun r => (Cpu.register_setRegister _ flagRegister r flag).trans ?_
  rw [Cpu.register_setRegister, UInt8.ofNat_toNat, UInt8.ofNat_toNat]
  rfl

theorem toNat_ite_one (condition : Prop) [Decidable condition] :
    (if condition then 1 else 0 : UInt8).toNat = if condition then 1 else 0 := by
  split <;> rfl

theorem toNat_carry (a b : UInt8) :
    (if 256 ≤ a.toNat + b.toNat then 1 else 0 : UInt8).toNat = (a.toNat + b.toNat) / 256 := by
  have := a.toNat_lt
  have := b.toNat_lt
  rw [toNat_ite_one]
  split <;> omega

theorem toNat_sub (a b : UInt8) : (a - b).toNat = (256 + a.toNat - b.toNat) % 256 := by
  have := a.toNat_lt
  have := b.toNat_lt
  rw [UInt8.toNat_sub]
  omega

theorem toNat_noBorrow (a b : UInt8) :
    (if b ≤ a then 1 else 0 : UInt8).toNat = (256 + a.toNat - b.toNat) / 256 := by
  have := a.toNat_lt
  have := b.toNat_lt
  rw [toNat_ite_one]
  simp only [UInt8.le_iff_toNat_le]
  split <;> omega

theorem toNat_shiftRight_one (s : UInt8) : (s >>> 1).toNat = s.toNat / 2 := by
  simp [Nat.shiftRight_eq_div_pow]

theorem toNat_and_one (s : UInt8) : (s &&& 1).toNat = s.toNat % 2 := by
  simp

theorem toNat_shiftLeft_one (s : UInt8) : (s <<< 1).toNat = 2 * s.toNat % 256 := by
  simp [Nat.shiftLeft_eq, Nat.mul_comm]

theorem toNat_shiftRight_seven (s : UInt8) : (s >>> 7).toNat = 2 * s.toNat / 256 := by
  have := s.toNat_lt
  simp [Nat.shiftRight_eq_div_pow]
  omega

theorem arithmetic_eq (n : Fin 16) (vx vy shifted : UInt8) :
    arithmetic n.val vx.toNat vy.toNat shifted.toNat =
      (RegisterOp.ofNibble? n).map fun op =>
        ((op.apply vx vy shifted).1.toNat, (op.apply vx vy shifted).2.map UInt8.toNat) := by
  have sum : (vx + vy).toNat = (vx.toNat + vy.toNat) % 256 := UInt8.toNat_add vx vy
  simp only [arithmetic, RegisterOp.ofNibble?]
  split
  case h_10 => simp only [Option.map_none]
  all_goals
    -- The digit of the case and the sum are among the hypotheses.
    simp only [*, Option.map_some, Option.map_none, RegisterOp.apply, toNat_carry, toNat_sub,
      toNat_noBorrow, toNat_shiftRight_one, toNat_and_one, toNat_shiftLeft_one,
      toNat_shiftRight_seven]
  case h_2 | h_3 | h_4 => rfl

theorem getElem?_bytes (m : Machine) (bound : address < 4096) :
    m.cpu.memory.bytes[address]? = some (byte m address) := by
  simp [byte, bound]

theorem slice_eq (m : Machine) (exist : start + length ≤ 4096) :
    m.cpu.memory.slice start length = (List.range length).map fun k => byte m (start + k) := by
  refine List.ext_getElem? fun k => ?_
  rw [Memory.getElem?_slice]
  by_cases inside : k < length
  · simp [inside, getElem?_bytes m (show start + k < 4096 by omega)]
  · simp [inside]

theorem decimalDigits_eq (value : UInt8) :
    decimalDigits value =
      [.ofNat (value.toNat / 100), .ofNat (value.toNat / 10 % 10), .ofNat (value.toNat % 10)] := by
  have := value.toNat_lt
  simp only [decimalDigits, List.cons.injEq, ← UInt8.toNat_inj]
  simp
  omega

theorem patch_decimal_eq (m : Machine) (value : UInt8) :
    { m with cpu := { m.cpu with
      memory := m.cpu.memory.patch m.cpu.i.toNat (decimalDigits value) } } =
    withMemory m fun address =>
      if address = m.cpu.i.toNat then .ofNat (value.toNat / 100)
      else if address = m.cpu.i.toNat + 1 then .ofNat (value.toNat / 10 % 10)
      else if address = m.cpu.i.toNat + 2 then .ofNat (value.toNat % 10)
      else byte m address := by
  refine setMemory_eq fun address bound => ?_
  rw [Memory.getElem?_patch, length_decimalDigits, getElem?_bytes m bound]
  by_cases first : address = m.cpu.i.toNat
  · simp [first, decimalDigits_eq]
    omega
  by_cases second : address = m.cpu.i.toNat + 1
  · simp [second, decimalDigits_eq]
    omega
  by_cases third : address = m.cpu.i.toNat + 2
  · simp [third, decimalDigits_eq]
    omega
  rw [if_neg (by omega), if_neg first, if_neg second, if_neg third]

theorem patch_registers_eq (m : Machine) (x : Register) :
    { m with cpu := { m.cpu with
      memory := m.cpu.memory.patch m.cpu.i.toNat (m.cpu.registersTo x) } } =
    withMemory m fun address =>
      if m.cpu.i.toNat ≤ address ∧ address ≤ m.cpu.i.toNat + x.val then
        m.cpu.v[address - m.cpu.i.toNat]?.getD 0
      else byte m address := by
  refine setMemory_eq fun address bound => ?_
  rw [Memory.getElem?_patch, Cpu.length_registersTo, getElem?_bytes m bound]
  have := x.isLt
  by_cases inside : m.cpu.i.toNat ≤ address ∧ address ≤ m.cpu.i.toNat + x.val
  · rw [if_pos (by omega), if_pos inside]
    have : address - m.cpu.i.toNat < 16 := by omega
    have : address - m.cpu.i.toNat < x.val + 1 := by omega
    simp [Cpu.registersTo, *]
  · rw [if_neg (by omega), if_neg inside]

theorem setRegisters_slice_eq (m : Machine) (x : Register)
    (exist : m.cpu.i.toNat + (x.val + 1) ≤ 4096) :
    { m with cpu := m.cpu.setRegisters (m.cpu.memory.slice m.cpu.i.toNat (x.val + 1)) } =
    withRegisters m fun r =>
      if r.val ≤ x.val then byte m (m.cpu.i.toNat + r.val) else m.cpu.register r := by
  refine setV_eq fun r => Option.some.inj ((Cpu.getElem?_v _ r).symm.trans ?_)
  rw [getElem?_overwrite, Memory.length_slice _ exist, Nat.zero_add, Nat.sub_zero,
    Memory.getElem?_slice]
  by_cases inside : r.val ≤ x.val
  · rw [if_pos (by omega), if_pos (by omega), if_pos inside]
    exact getElem?_bytes m (by omega)
  · rw [if_neg (by omega), if_neg inside]
    exact m.cpu.getElem?_v r

end ChipEight.Reference
