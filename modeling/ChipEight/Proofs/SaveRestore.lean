import ChipEight.Proofs.Stores

/-! Registers saved and restored. What a program puts away it finds again, as long as nothing else is
stored over it and the index comes back to the same place. What lies in between may be anything but
the loading of a program: instructions by themselves, steps of a run, keys, timers, faults. -/
namespace ChipEight

/-- The instruction at the program counter, whether or not it can be carried out. -/
def Cpu.upcoming? (cpu : Cpu) : Option Instruction := do
  let word ← cpu.fetch.toOption
  Instruction.decode? (.ofWord word)

theorem Cpu.current_of_upcoming {cpu : Cpu} {instruction : Instruction}
    (upcoming : cpu.upcoming? = some instruction) :
    cpu.current =
      match cpu.refusal? instruction with
      | some fault => .error fault
      | none => .ok instruction := by
  cases fetched : cpu.fetch with
  | error fault => simp [upcoming?, fetched, Except.toOption] at upcoming
  | ok word =>
    have decoded : Instruction.decode? (.ofWord word) = some instruction := by
      simpa [upcoming?, fetched, Except.toOption] using upcoming
    cases refused : cpu.refusal? instruction <;>
      simp [current, fetched, bind, Except.bind, Instruction.decode, decoded, refused]

/-- What a machine can go through: an instruction by itself, or an occasion. -/
inductive Act
  | alone (keys : Key → Bool) (now : Instant) (instruction : Instruction)
  | amid (occasion : Occasion)

namespace Act

open Machine (byte_operate)
open Reference (byte)

def loads : Act → Bool
  | .alone .. => false
  | .amid occasion => occasion.operation.loads

def on (m : Machine) : Act → Machine
  | .alone keys now instruction => Machine.left (Machine.execute keys now instruction m)
  | .amid occasion => m.operate occasion

def onAll : List Act → Machine → Machine
  | [], m => m
  | act :: rest, m => onAll rest (act.on m)

/-- The instruction that a machine is to carry out, whether or not it can. -/
def asks? (m : Machine) : Act → Option Instruction
  | .alone _ _ instruction => some instruction
  | .amid occasion =>
    match occasion.operation, m.cpu.awaiting with
    | .step, none | .perform .cycle _, none => m.cpu.upcoming?
    | _, _ => none

def executes? (m : Machine) : Act → Option Instruction
  | .alone keys now instruction =>
    match Machine.execute keys now instruction m with
    | .ok .. => some instruction
    | .error .. => none
  | .amid occasion => m.executes? occasion

def stores : List Act → Machine → List Store
  | [], _ => []
  | act :: rest, m => ((act.executes? m).bind m.store?).toList ++ stores rest (act.on m)

variable {m : Machine} {act : Act} {instruction : Instruction}

theorem executes?_alone (keys : Key → Bool) (now : Instant) (m : Machine)
    (instruction : Instruction) :
    (alone keys now instruction).executes? m =
      if m.cpu.refusal? instruction = none then some instruction else none := by
  rw [executes?, Machine.execute_eq]
  cases m.cpu.refusal? instruction <;> rfl

theorem executes_of_asks (asks : act.asks? m = some instruction)
    (accepted : m.cpu.refusal? instruction = none) : act.executes? m = some instruction := by
  cases act with
  | alone keys now candidate =>
    obtain rfl := Option.some.inj asks
    rw [executes?_alone, if_pos accepted]
  | amid occasion =>
    obtain ⟨keys, now, operation⟩ := occasion
    have carried (free : m.cpu.awaiting = none) (upcoming : m.cpu.upcoming? = some instruction) :
        m.carriesOut? keys now = some instruction := by
      refine Machine.carriesOut?_eq_some_iff.mpr ⟨free, ?_⟩
      rw [Cpu.current_of_upcoming upcoming, accepted]
    cases free : m.cpu.awaiting with
    | some x => cases operation <;> simp [asks?, free] at asks
    | none =>
      cases operation with
      | step =>
        simp only [asks?, free] at asks
        exact carried free asks
      | perform task due =>
        cases task with
        | cycle =>
          simp only [asks?, free] at asks
          exact (Machine.carriesOut?_agenda ..).trans (carried free asks)
        | delay | sound => simp [asks?] at asks
      | load | loadFrom | start | giveKey | receive => simp [asks?] at asks

/-- An instruction that is carried out leaves registers, index and memory as it says. -/
theorem cpu_on (executes : act.executes? m = some instruction) :
    ∃ keys now, (act.on m).cpu.v = (m.after keys now instruction).cpu.v ∧
      (act.on m).cpu.i = (m.after keys now instruction).cpu.i ∧
      (act.on m).cpu.memory = (m.after keys now instruction).cpu.memory := by
  cases act with
  | alone keys now candidate =>
    rw [executes?_alone] at executes
    split at executes
    next accepted =>
      obtain rfl := Option.some.inj executes
      refine ⟨keys, now, ?_⟩
      rw [on, Machine.execute_eq, accepted]
      exact ⟨rfl, rfl, rfl⟩
    next => contradiction
  | amid occasion =>
    refine ⟨occasion.keys, occasion.now, ?_⟩
    rw [on, (Machine.cpu_operate executes).2]
    exact ⟨rfl, rfl, rfl⟩

theorem byte_on (loadless : ¬ act.loads) {a : Nat} (bound : a < 4096)
    (uncovered : ∀ store ∈ (act.executes? m).bind m.store?, ¬ store.covers a) :
    byte (act.on m) a = byte m a := by
  cases act with
  | alone keys now candidate =>
    rw [executes?_alone] at uncovered
    rw [on, Machine.execute_eq]
    cases refused : m.cpu.refusal? candidate with
    | some fault => rfl
    | none =>
      change byte (m.after keys now candidate) a = byte m a
      cases stored : m.store? candidate with
      | none => exact Machine.byte_of_memory (Machine.after_memory keys now stored) a
      | some store =>
        have untouched : ¬ store.covers a := uncovered store (by simp [refused, stored])
        rw [Machine.byte_after keys now stored bound, if_neg untouched]
  | amid occasion =>
    rw [on, byte_operate loadless bound]
    cases stored : (m.executes? occasion).bind m.store? with
    | none => rfl
    | some store => exact if_neg (uncovered store stored)

theorem byte_onAll {acts : List Act} (loadless : ∀ act ∈ acts, ¬ act.loads) {a : Nat}
    (bound : a < 4096) (uncovered : ∀ store ∈ stores acts m, ¬ store.covers a) :
    byte (onAll acts m) a = byte m a := by
  induction acts generalizing m with
  | nil => rfl
  | cons act rest ih =>
    rw [List.forall_mem_cons] at loadless
    simp only [stores, List.mem_append, Option.mem_toList] at uncovered
    have first := byte_on loadless.1 bound fun store stored => uncovered store (.inl stored)
    have later := ih loadless.2 fun store stored => uncovered store (.inr stored)
    exact later.trans first

end Act

namespace Machine

open Reference (byte)

/-- Registers up to VY were loaded after those up to VX had been saved in `m`. What was saved is as it
was then, the rest are the bytes that lay behind that in `m`, and the load changed no other register,
no byte of memory and not the index. -/
structure Restores (x y : Register) (m later restored : Machine) : Prop where
  saved : ∀ r ≤ y, r ≤ x → restored.cpu.register r = m.cpu.register r
  loaded : ∀ r ≤ y, x < r → restored.cpu.register r = byte m (m.cpu.i.toNat + r.val)
  others : ∀ r, y < r → restored.cpu.register r = later.cpu.register r
  memory : restored.cpu.memory = later.cpu.memory
  index : restored.cpu.i = later.cpu.i

variable {m : Machine}

theorem refusal?_of_room {x : Register} (room : m.cpu.i.toNat + x.val ≤ 4095) :
    m.cpu.refusal? (.store x) = none ∧ m.cpu.refusal? (.load x) = none := by
  have exist : m.cpu.i.toNat + (x.val + 1) ≤ memorySize := Nat.succ_le_succ room
  exact ⟨if_pos exist, if_pos exist⟩

theorem refusal?_of_no_room {x : Register} (past : 4095 < m.cpu.i.toNat + x.val) :
    m.cpu.refusal? (.store x) = some (.outOfBounds (max m.cpu.i.toNat 4096)) ∧
      m.cpu.refusal? (.load x) = some (.outOfBounds (max m.cpu.i.toNat 4096)) := by
  have outside : ¬ m.cpu.i.toNat + (x.val + 1) ≤ memorySize := Nat.not_le.mpr (Nat.succ_lt_succ past)
  exact ⟨if_neg outside, if_neg outside⟩

theorem byte_saved {x : Register} {first : Act} (stores : first.executes? m = some (.store x))
    {between : List Act} (loadless : ∀ act ∈ between, ¬ act.loads) {k : Nat}
    (bound : m.cpu.i.toNat + k < 4096)
    (uncovered : ∀ store ∈ Act.stores between (first.on m), ¬ store.covers (m.cpu.i.toNat + k)) :
    byte (Act.onAll between (first.on m)) (m.cpu.i.toNat + k) =
      if k ≤ x.val then m.cpu.v[k]?.getD 0 else byte m (m.cpu.i.toNat + k) := by
  obtain ⟨keys, now, -, -, written⟩ := Act.cpu_on stores
  have left : byte (first.on m) (m.cpu.i.toNat + k) =
      byte (m.after keys now (.store x)) (m.cpu.i.toNat + k) := byte_of_memory written _
  rw [Act.byte_onAll loadless bound uncovered, left, byte_after keys now rfl bound]
  simp [Store.covers, Store.byte]

theorem register_loaded {y : Register} {last : Act} (loads : last.executes? m = some (.load y))
    (room : m.cpu.i.toNat + y.val ≤ 4095) (r : Register) :
    (last.on m).cpu.register r =
      if r ≤ y then byte m (m.cpu.i.toNat + r.val) else m.cpu.register r := by
  obtain ⟨keys, now, read, -, -⟩ := Act.cpu_on loads
  rw [Cpu.register, read, after, Reference.setRegisters_slice_eq m y (by omega)]
  exact Vector.getElem_ofFn r.isLt

/-- What is saved is found again. A save and a load that have room are carried out, and after
them, whatever was done in between, the registers that both of them took are as they were. A save
or a load that would pass the end of memory faults and changes nothing, not even the part for which
there was room. -/
theorem save_restore (x y : Register) (m : Machine) :
    (m.cpu.i.toNat + max x.val y.val ≤ 4095 →
      ∀ first : Act, first.asks? m = some (.store x) →
        let saved := first.on m
        first.executes? m = some (.store x) ∧ saved.cpu.i = m.cpu.i ∧
        ∀ between : List Act, (∀ act ∈ between, ¬ act.loads) →
          (∀ store ∈ Act.stores between saved, ∀ a, m.cpu.i.toNat ≤ a →
            a ≤ m.cpu.i.toNat + max x.val y.val → ¬ store.covers a) →
          let later := Act.onAll between saved
          later.cpu.i = m.cpu.i →
          ∀ last : Act, last.asks? later = some (.load y) →
            last.executes? later = some (.load y) ∧ Restores x y m later (last.on later)) ∧
    ∀ (z : Register) (instruction : Instruction), instruction = .store z ∨ instruction = .load z →
      4095 < m.cpu.i.toNat + z.val →
      ∀ (keys : Key → Bool) (now : Instant),
        execute keys now instruction m = .error (.outOfBounds (max m.cpu.i.toNat 4096)) m ∧
        (m.cpu.awaiting = none → m.cpu.upcoming? = some instruction →
          step keys now m = .error (.outOfBounds (max m.cpu.i.toNat 4096)) m) := by
  constructor
  · intro room first asks saved
    have stores := Act.executes_of_asks asks (refusal?_of_room (by omega)).1
    obtain ⟨_, _, -, kept, -⟩ := Act.cpu_on stores
    refine ⟨stores, kept, ?_⟩
    intro between loadless uncovered later index last asked
    have roomy : later.cpu.i.toNat + y.val ≤ 4095 := by
      rw [index]
      omega
    have loads := Act.executes_of_asks asked (refusal?_of_room roomy).2
    obtain ⟨_, _, -, back, unwritten⟩ := Act.cpu_on loads
    have register := register_loaded loads roomy
    -- Up to the longer of the two spans nothing but the save was stored.
    have found (k : Nat) (inside : k ≤ max x.val y.val) :
        byte later (m.cpu.i.toNat + k) =
          if k ≤ x.val then m.cpu.v[k]?.getD 0 else byte m (m.cpu.i.toNat + k) :=
      byte_saved stores loadless (by omega) fun store member =>
        uncovered store member _ (by omega) (by omega)
    rw [index] at register
    refine ⟨loads, ?_, ?_, ?_, unwritten, back⟩
    · intro r within both
      have inside : r.val ≤ x.val := both
      rw [register, if_pos within, found r.val (by omega), if_pos inside, Cpu.getElem?_v]
      rfl
    · intro r within beyond
      have inside : r.val ≤ y.val := within
      have outside : ¬ r.val ≤ x.val := Nat.not_le.mpr beyond
      rw [register, if_pos within, found r.val (by omega), if_neg outside]
    · intro r beyond
      rw [register, if_neg (Fin.not_le.mpr beyond)]
  · intro z instruction either past keys now
    have refused : m.cpu.refusal? instruction = some (.outOfBounds (max m.cpu.i.toNat 4096)) := by
      rcases either with rfl | rfl
      · exact (refusal?_of_no_room past).1
      · exact (refusal?_of_no_room past).2
    refine ⟨execute_refused refused, fun free upcoming => ?_⟩
    rw [step_eq, free, Cpu.current_of_upcoming upcoming, refused]

/-- With 7, 9 and 5 in V0 to V2, and the index at 0x300. -/
def laden : Machine :=
  { new {} (Vector.replicate 8 0) with
    cpu :=
      { i := 0x300
        v := overwrite (Vector.replicate 16 0) 0 [7, 9, 5]
        memory := ⟨Vector.replicate 4096 0⟩ } }

/-- V0 and V1 saved, V0 overwritten, V0 to V2 loaded. -/
theorem save_restore_laden :
    let act : Instruction → Act := .alone (fun _ => false) 0
    let restored := Act.onAll [act (.store 1), act (.set 0 0), act (.load 2)] laden
    restored.cpu.register 0 = 7 ∧ restored.cpu.register 1 = 9 ∧ restored.cpu.register 2 = 0 := by
  intro act restored
  have room : laden.cpu.i.toNat + 2 ≤ 4095 := by decide
  obtain ⟨-, -, load⟩ := (save_restore 1 2 laden).1 room (act (.store 1)) rfl
  have unstored : Act.stores [act (.set 0 0)] ((act (.store 1)).on laden) = [] := rfl
  obtain ⟨-, restores⟩ := load [act (.set 0 0)] (by simp [act, Act.loads])
    (by simp [unstored]) rfl (act (.load 2)) rfl
  refine ⟨restores.saved 0 (by decide) (by decide), restores.saved 1 (by decide) (by decide), ?_⟩
  exact (restores.loaded 2 (by decide) (by decide)).trans (by simp [byte, laden])

end Machine
end ChipEight
