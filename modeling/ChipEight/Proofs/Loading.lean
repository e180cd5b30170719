import ChipEight.Proofs.Reference
import ChipEight.Proofs.Run

/-! Programs on their way into memory. One that fits is put in its place byte by byte and nothing else
changes; one that does not fit changes nothing. A file that ends gives what its bytes give, in however
many reads they come; a file that fails, at whatever byte, gives nothing. -/
namespace ChipEight

/-- A file delivers these bytes, and then it ends or a read of it fails. -/
inductive Reads.Delivers : Reads → List UInt8 → Option FileError → Prop
  | exhausted : Delivers [] [] none
  | emptyRead (rest : Reads) : Delivers (.ok [] :: rest) [] none
  | failedRead {cause : FileError} (lasting : cause.isInterrupted = false) (rest : Reads) :
    Delivers (.error cause :: rest) [] (some cause)
  | interrupted {cause : FileError} {bytes : List UInt8} {rest : Reads} {failure : Option FileError}
    (passing : cause.isInterrupted = true) (delivers : Delivers rest bytes failure) :
    Delivers (.error cause :: rest) bytes failure
  | read {bytes later : List UInt8} {rest : Reads} {failure : Option FileError}
    (filled : bytes ≠ []) (delivers : Delivers rest later failure) :
    Delivers (.ok bytes :: rest) (bytes ++ later) failure

namespace Reads

theorem exists_delivers (reads : Reads) : ∃ bytes failure, reads.Delivers bytes failure := by
  induction reads with
  | nil => exact ⟨[], none, .exhausted⟩
  | cons read rest ih =>
    cases read with
    | error cause =>
      obtain ⟨bytes, failure, delivers⟩ := ih
      cases passing : cause.isInterrupted with
      | true => exact ⟨bytes, failure, .interrupted passing delivers⟩
      | false => exact ⟨[], some cause, .failedRead passing rest⟩
    | ok bytes =>
      by_cases filled : bytes = []
      · exact ⟨[], none, filled ▸ .emptyRead rest⟩
      · obtain ⟨later, failure, delivers⟩ := ih
        exact ⟨bytes ++ later, failure, .read filled delivers⟩

theorem gather_read {bytes : List UInt8} (filled : bytes ≠ []) (rest : Reads) :
    gather (.ok bytes :: rest) = (gather rest).map (bytes :: ·) := by
  cases bytes with
  | nil => contradiction
  | cons byte more => rfl

theorem Delivers.gather {reads : Reads} {bytes : List UInt8} {failure : Option FileError}
    (delivers : reads.Delivers bytes failure) :
    reads.gather.map List.flatten = failure.elim (.ok bytes) .error := by
  induction delivers with
  | exhausted | emptyRead => rfl
  | failedRead lasting rest => simp [Reads.gather, lasting, Except.map]
  | interrupted passing delivers ih => simpa [Reads.gather, passing] using ih
  | @read bytes later rest failure filled delivers ih =>
    have flattened (gathered : Except FileError (List (List UInt8))) :
        (gathered.map (bytes :: ·)).map List.flatten =
          (gathered.map List.flatten).map (bytes ++ ·) := by
      cases gathered <;> rfl
    rw [gather_read filled, flattened, ih]
    cases failure <;> rfl

end Reads

theorem Memory.word_patch (memory : Memory) {start k : Nat} {bytes : List UInt8}
    (fits : start + bytes.length ≤ 4096) (inside : k + 1 < bytes.length) :
    ∃ word, (memory.patch start bytes).word (start + k) = .ok word ∧
      word.toNat = bytes[k].toNat * 256 + bytes[k + 1].toNat := by
  have high := bytes[k].toNat_lt
  have low := bytes[k + 1].toNat_lt
  have spelt := UInt16.toNat_ofNat_of_lt
    (show bytes[k].toNat * 256 + bytes[k + 1].toNat < 65536 by omega)
  refine ⟨_, Reference.word_eq (by omega) ?_ ?_, spelt⟩
  · have place : start + k - start = k := by omega
    have first : (bytes[k].toNat * 256 + bytes[k + 1].toNat) / 256 = bytes[k].toNat := by omega
    rw [getElem?_patch, if_pos (by omega), place, spelt, first, UInt8.ofNat_toNat]
    exact List.getElem?_eq_getElem _
  · have place : start + k + 1 - start = k + 1 := by omega
    have second : (bytes[k].toNat * 256 + bytes[k + 1].toNat) % 256 = bytes[k + 1].toNat := by
      omega
    rw [getElem?_patch, if_pos (by omega), place, spelt, second, UInt8.ofNat_toNat]
    exact List.getElem?_eq_getElem _

namespace Machine

theorem loadFrom_of_delivers {reads : Reads} {program : List UInt8} {failure : Option FileError}
    (delivers : reads.Delivers program failure) (m : Machine) :
    loadFrom reads m =
      failure.elim (load program m) fun cause => .error (.unreadable cause) m := by
  have gathered := delivers.gather
  rw [loadFrom_eq]
  cases found : reads.gather with
  | error cause =>
    rw [found] at gathered
    cases failure with
    | none => cases gathered
    | some other =>
      obtain rfl : cause = other := Except.error.inj gathered
      rfl
  | ok pieces =>
    rw [found] at gathered
    cases failure with
    | none =>
      obtain rfl : pieces.flatten = program := Except.ok.inj gathered
      rfl
    | some other => cases gathered

/-- Loading a program, as bytes or from a file. A program of at most 3584 bytes is taken: its bytes
stand from 0x200 on, all the rest of memory and of the machine is as it was, and each two of its bytes
are fetched as one opcode. A longer one is refused with its size and leaves no trace. A file that
delivers the bytes and ends has the same result and the same effect in whatever pieces it delivers
them, and one that fails after them leaves the machine as it was. -/
theorem load_exact (m : Machine) (program : List UInt8) :
    (program.length ≤ 3584 → ∃ memory,
      load program m = .ok () { m with cpu := { m.cpu with memory } } ∧
      (∀ j (inside : j < program.length), memory.bytes[0x200 + j]? = some program[j]) ∧
      (∀ a, ¬ (0x200 ≤ a ∧ a < 0x200 + program.length) →
        memory.bytes[a]? = m.cpu.memory.bytes[a]?) ∧
      ∀ j (inside : 2 * j + 1 < program.length), ∃ word,
        { m.cpu with memory, pc := .ofNat (0x200 + 2 * j) }.fetch = .ok word ∧
        word.toNat = program[2 * j].toNat * 256 + program[2 * j + 1].toNat) ∧
    (3584 < program.length → load program m = .error (.tooLarge program.length) m) ∧
    (∀ reads : Reads, ∃ delivered failure, reads.Delivers delivered failure) ∧
    ∀ reads : Reads,
      (reads.Delivers program none → loadFrom reads m = load program m) ∧
      ∀ cause, reads.Delivers program (some cause) →
        loadFrom reads m = .error (.unreadable cause) m := by
  refine ⟨?_, ?_, Reads.exists_delivers, ?_⟩
  · intro fits
    have span : programStart + program.length ≤ 4096 := Nat.add_le_add_left fits 0x200
    refine ⟨m.cpu.memory.patch programStart program, ?_, ?_, ?_, ?_⟩
    · exact (load_eq program m).trans (if_pos fits)
    · intro j inside
      have place : 0x200 + j - programStart = j := Nat.add_sub_cancel_left ..
      have within : 0x200 + j < programStart + program.length := Nat.add_lt_add_left inside 0x200
      rw [Memory.getElem?_patch, if_pos ⟨Nat.le_add_right .., within, by omega⟩, place]
      exact List.getElem?_eq_getElem _
    · intro a outside
      rw [Memory.getElem?_patch, if_neg]
      exact fun within => outside ⟨within.1, within.2.1⟩
    · intro j inside
      have place : (UInt16.ofNat (0x200 + 2 * j)).toNat = programStart + 2 * j :=
        UInt16.toNat_ofNat_of_lt (by show _ < 65536; omega)
      rw [Cpu.fetch, place]
      exact Memory.word_patch _ span inside
  · intro large
    exact (load_eq program m).trans (if_neg (Nat.not_le.2 large))
  · intro reads
    constructor
    · exact fun delivers => loadFrom_of_delivers delivers m
    · exact fun cause delivers => loadFrom_of_delivers delivers m

/-- With a longer program in memory than the one that is to replace it. -/
def preloaded : Machine := left (load [0xAA, 0xAA, 0xAA] (new {} (Vector.replicate 8 0)))

theorem load_exact_preloaded :
    (∃ memory, load [0x12, 0x34] preloaded =
        .ok () { preloaded with cpu := { preloaded.cpu with memory } } ∧
      memory.bytes[0x201]? = some 0x34 ∧ memory.bytes[0x202]? = some 0xAA) ∧
    (∃ memory, load (List.replicate 3584 0xBB) preloaded =
        .ok () { preloaded with cpu := { preloaded.cpu with memory } } ∧
      memory.bytes[4095]? = some 0xBB) ∧
    load (List.replicate 3585 0xBB) preloaded = .error (.tooLarge 3585) preloaded ∧
    loadFrom [.ok [0x12], .error (.other (some 4) "Interrupted" "Interrupted system call"),
      .ok [0x34], .ok [], .ok [0x56]] preloaded = load [0x12, 0x34] preloaded ∧
    loadFrom [.ok [0x12, 0x34], .error .deviceFault] preloaded =
      .error (.unreadable .deviceFault) preloaded := by
  have length (n : Nat) : (List.replicate n (0xBB : UInt8)).length = n := List.length_replicate
  obtain ⟨short, -, -, read⟩ := load_exact preloaded [0x12, 0x34]
  obtain ⟨memory, taken, placed, kept, -⟩ := short (by decide)
  obtain ⟨limit, -⟩ := load_exact preloaded (List.replicate 3584 0xBB)
  obtain ⟨full, filled, last, -⟩ := limit (Nat.le_of_eq (length 3584))
  obtain ⟨-, large, -⟩ := load_exact preloaded (List.replicate 3585 0xBB)
  refine ⟨⟨memory, taken, placed 1 (by decide), ?_⟩, ⟨full, filled, ?_⟩, ?_, ?_, ?_⟩
  · exact (kept 0x202 (by decide)).trans (by decide +kernel)
  · have within : 3583 < (List.replicate 3584 (0xBB : UInt8)).length := by rw [length]; decide
    rw [last 3583 within, List.getElem_replicate]
  · have beyond := large (by rw [length]; decide)
    rwa [length] at beyond
  · exact (read _).1 (.read (by simp) (.interrupted rfl (.read (by simp) (.emptyRead _))))
  · exact (read _).2 .deviceFault (.read (by simp) (.failedRead rfl _))

end Machine
end ChipEight
