import ChipEight.Proofs.CallStack
import ChipEight.Proofs.Reference

/-! Where the bytes of memory come from. Of all instructions only two store, and what they store is
told by the index and the registers as they find them. So after any run a byte is the one that the
last store on its address left, or it is as it was. -/
namespace ChipEight

/-- A store that was carried out, with the index and what it read. -/
inductive Store
  | decimal (index : Nat) (value : UInt8)
  | registers (index : Nat) (x : Register) (v : Vector UInt8 16)
deriving DecidableEq

namespace Store

def covers (a : Nat) : Store → Bool
  | .decimal index _ => index ≤ a ∧ a ≤ index + 2
  | .registers index x _ => index ≤ a ∧ a ≤ index + x.val

/-- What a store leaves at an address that it covers. -/
def byte (a : Nat) : Store → UInt8
  | .decimal index value =>
    if a = index then .ofNat (value.toNat / 100)
    else if a = index + 1 then .ofNat (value.toNat / 10 % 10)
    else .ofNat (value.toNat % 10)
  | .registers index _ v => v[a - index]?.getD 0

end Store

namespace Machine

open Reference (byte)

def store? (m : Machine) : Instruction → Option Store
  | .decimal x => some (.decimal m.cpu.i.toNat (m.cpu.register x))
  | .store x => some (.registers m.cpu.i.toNat x m.cpu.v)
  | _ => none

/-- The stores that a run carries out, in order. -/
def stores : List Occasion → Machine → List Store
  | [], _ => []
  | occasion :: rest, m =>
    ((m.executes? occasion).bind m.store?).toList ++ stores rest (m.operate occasion)

theorem after_memory (keys : Key → Bool) (now : Instant) {m : Machine} {instruction : Instruction}
    (reads : m.store? instruction = none) :
    (m.after keys now instruction).cpu.memory = m.cpu.memory := by
  have skipped (taken : Bool) : (m.cpu.skipIf taken).memory = m.cpu.memory := by
    cases taken <;> rfl
  cases instruction with
  | decimal | store => contradiction
  | skipIfEqual | skipIfNotEqual | skipIfSame | skipIfDifferent | skipIfPressed | skipIfReleased =>
    exact skipped _
  | alu op x y =>
    obtain ⟨v, same⟩ := m.cpu.alu_registers m.settings.shiftOperand op x y
    rw [after, same]
  | _ => rfl

theorem byte_withMemory (m : Machine) (value : Nat → UInt8) {a : Nat} (bound : a < 4096) :
    byte (Reference.withMemory m value) a = value a := by
  simp [byte, Reference.withMemory, bound]

theorem byte_of_memory {m other : Machine} (same : m.cpu.memory = other.cpu.memory) (a : Nat) :
    byte m a = byte other a := by
  rw [byte, same, byte]

theorem byte_after (keys : Key → Bool) (now : Instant) {m : Machine} {instruction : Instruction}
    {store : Store} (stores : m.store? instruction = some store) {a : Nat} (bound : a < 4096) :
    byte (m.after keys now instruction) a = if store.covers a then store.byte a else byte m a := by
  cases instruction with
  | decimal x =>
    obtain rfl := Option.some.inj stores
    rw [after, Reference.patch_decimal_eq, byte_withMemory m _ bound]
    simp only [Store.covers, Store.byte, decide_eq_true_eq]
    grind
  | store x =>
    obtain rfl := Option.some.inj stores
    rw [after, Reference.patch_registers_eq, byte_withMemory m _ bound]
    simp only [Store.covers, Store.byte, decide_eq_true_eq]
  | _ => contradiction

/-- Memory after an occasion that does not load: a store, or nothing. -/
theorem byte_operate {m : Machine} {occasion : Occasion} (loadless : ¬ occasion.operation.loads)
    {a : Nat} (bound : a < 4096) :
    byte (m.operate occasion) a =
      match (m.executes? occasion).bind m.store? with
      | some store => if store.covers a then store.byte a else byte m a
      | none => byte m a := by
  cases executed : m.executes? occasion with
  | none =>
    rcases cpu_operate_idle executed with ⟨v, awaiting, same⟩ | ⟨loads, -⟩
    · exact byte_of_memory (by rw [same]) a
    · exact absurd loads loadless
  | some instruction =>
    have next := (cpu_operate executed).2
    have same : byte (m.operate occasion) a =
        byte (m.after occasion.keys occasion.now instruction) a :=
      byte_of_memory (congrArg Cpu.memory next) a
    rw [same, Option.bind_some]
    cases stored : m.store? instruction with
    | none => exact byte_of_memory (after_memory _ _ stored) a
    | some store => exact byte_after _ _ stored bound

theorem byte_run {occasions : List Occasion}
    (loadless : ∀ occasion ∈ occasions, ¬ occasion.operation.loads) (m : Machine) {a : Nat}
    (bound : a < 4096) :
    byte (run occasions m) a =
      match ((stores occasions m).filter (·.covers a)).getLast? with
      | some store => store.byte a
      | none => byte m a := by
  induction occasions generalizing m with
  | nil => rfl
  | cons occasion rest ih =>
    have later := ih (fun o member => loadless o (List.mem_cons_of_mem _ member))
      (m.operate occasion)
    rw [run, later, byte_operate (loadless occasion List.mem_cons_self) bound, stores,
      List.filter_append, List.getLast?_append]
    cases ((stores rest (m.operate occasion)).filter (·.covers a)).getLast? with
    | some store => rfl
    | none =>
      cases (m.executes? occasion).bind m.store? with
      | none => rfl
      | some store =>
        cases covered : store.covers a <;> simp [covered]

theorem byte_run_of_uncovered {occasions : List Occasion}
    (loadless : ∀ occasion ∈ occasions, ¬ occasion.operation.loads) (m : Machine) {a : Nat}
    (bound : a < 4096) (uncovered : ∀ store ∈ stores occasions m, ¬ store.covers a) :
    byte (run occasions m) a = byte m a := by
  rw [byte_run loadless m bound, List.filter_eq_nil_iff.mpr uncovered, List.getLast?_nil]

theorem byte_load (settings : Settings) (entropy : StreamKey) {program : List UInt8}
    (fits : program.length ≤ programLimit) {a : Nat} (bound : a < 4096) :
    byte (left (load program (new settings entropy))) a =
      if 0x200 ≤ a ∧ a < 0x200 + program.length then program[a - 0x200]?.getD 0
      else if 0x50 ≤ a ∧ a < 0xA0 then font[a - 0x50]?.getD 0
      else 0 := by
  have size : font.length = 80 := rfl
  rw [left_load, if_pos fits, byte, Memory.getElem?_patch]
  simp only [new, Memory.initial, Memory.getElem?_patch, programStart, fontStart, size, bound, and_true]
  split
  · rfl
  · split
    · rfl
    · simp [bound]

/-- Memory over a run that loads nothing. The byte at an address is the one that the last store
carried out on it left, a digit of a register or a register as the store found them, and if there
was none, the byte is as it was. So what was loaded, and the font, stay where nothing was
stored. A store that would pass the end of memory is a fault and changes nothing. -/
theorem run_memory (occasions : List Occasion)
    (loadless : ∀ occasion ∈ occasions, ¬ occasion.operation.loads) :
    (∀ (m : Machine) (a : Nat), a < 4096 →
      byte (run occasions m) a =
        match ((stores occasions m).filter (·.covers a)).getLast? with
        | some store => store.byte a
        | none => byte m a) ∧
    (∀ (settings : Settings) (entropy : StreamKey) (program : List UInt8),
      program.length ≤ programLimit →
      let m := left (load program (new settings entropy))
      (∀ k (glyphs : k < font.length),
        (∀ store ∈ stores occasions m, ¬ store.covers (0x50 + k)) →
        byte (run occasions m) (0x50 + k) = font[k]) ∧
      ∀ k (loaded : k < program.length),
        (∀ store ∈ stores occasions m, ¬ store.covers (0x200 + k)) →
        byte (run occasions m) (0x200 + k) = program[k]) ∧
    ∀ (keys : Key → Bool) (now : Instant) (m : Machine) (x : Register),
      (4096 < m.cpu.i.toNat + 3 →
        execute keys now (.decimal x) m = .error (.outOfBounds (max m.cpu.i.toNat 4096)) m) ∧
      (4096 < m.cpu.i.toNat + (x.val + 1) →
        execute keys now (.store x) m = .error (.outOfBounds (max m.cpu.i.toNat 4096)) m) := by
  refine ⟨fun m a bound => byte_run loadless m bound, ?_, ?_⟩
  · intro settings entropy program fits m
    have limit : program.length ≤ 3584 := fits
    constructor
    · intro k glyphs uncovered
      have size : k < 80 := glyphs
      rw [byte_run_of_uncovered loadless m (by omega) uncovered,
        byte_load settings entropy fits (by omega), if_neg (by omega), if_pos (by omega)]
      simp [glyphs]
    · intro k loaded uncovered
      rw [byte_run_of_uncovered loadless m (by omega) uncovered,
        byte_load settings entropy fits (by omega), if_pos (by omega)]
      simp [loaded]
  · intro keys now m x
    constructor
    · exact fun past => execute_refused (if_neg (Nat.not_le.2 past))
    · exact fun past => execute_refused (if_neg (Nat.not_le.2 past))

/-- About to store the digits of 254 at 0x300 and then V0 and V1 over the first two. -/
def overlapping : Machine :=
  { new {} (Vector.replicate 8 0) with
    cpu :=
      { i := 0x300
        v := overwrite (Vector.replicate 16 0) 0 [7, 9, 0, 254]
        memory := Memory.patch ⟨Vector.replicate 4096 0⟩ 0x200 [0xF3, 0x33, 0xF1, 0x55] } }

theorem run_memory_overlapping :
    let twice := List.replicate 2 ⟨fun _ => false, 0, .step⟩
    byte (run twice overlapping) 0x301 = 9 ∧ byte (run twice overlapping) 0x302 = 4 := by
  intro twice
  have stored : stores twice overlapping =
      [.decimal 0x300 254, .registers 0x300 1 overlapping.cpu.v] := by
    decide +kernel
  have bytes := (run_memory twice (by simp [twice, Operation.loads])).1 overlapping
  rw [bytes 0x301 (by decide), bytes 0x302 (by decide), stored]
  decide

end Machine
end ChipEight
