import ChipEight.Fault

/-! The 4096 bytes of memory. Low memory holds the glyphs of the sixteen hexadecimal digits and
a program starts at 0x200. A span is refused if it ends past the last byte; the fault names the
first address of the span that does not exist, or its start if that lies further on. -/
namespace ChipEight

def memorySize : Nat := 4096
def programStart : Nat := 0x200
def programLimit : Nat := memorySize - programStart

/-- Where the glyph of digit 0 lies; each glyph has five rows. -/
def fontStart : Nat := 0x50
def glyphSize : Nat := 5

def font : List UInt8 := [
  0xF0, 0x90, 0x90, 0x90, 0xF0,
  0x20, 0x60, 0x20, 0x20, 0x70,
  0xF0, 0x10, 0xF0, 0x80, 0xF0,
  0xF0, 0x10, 0xF0, 0x10, 0xF0,
  0x90, 0x90, 0xF0, 0x10, 0x10,
  0xF0, 0x80, 0xF0, 0x10, 0xF0,
  0xF0, 0x80, 0xF0, 0x90, 0xF0,
  0xF0, 0x10, 0x20, 0x40, 0x40,
  0xF0, 0x90, 0xF0, 0x90, 0xF0,
  0xF0, 0x90, 0xF0, 0x10, 0xF0,
  0xF0, 0x90, 0xF0, 0x90, 0x90,
  0xE0, 0x90, 0xE0, 0x90, 0xE0,
  0xF0, 0x80, 0x80, 0x80, 0xF0,
  0xE0, 0x90, 0x90, 0x90, 0xE0,
  0xF0, 0x80, 0xF0, 0x80, 0xF0,
  0xF0, 0x80, 0xF0, 0x80, 0x80]

/-- Puts the bytes at `start` and after; those past the end are dropped. -/
def overwrite {n : Nat} (cells : Vector UInt8 n) (start : Nat) : List UInt8 → Vector UInt8 n
  | [] => cells
  | byte :: rest => overwrite (cells.setIfInBounds start byte) (start + 1) rest

theorem getElem?_overwrite {n : Nat} (cells : Vector UInt8 n) (start : Nat) (bytes : List UInt8) (a : Nat) :
    (overwrite cells start bytes)[a]? =
      if start ≤ a ∧ a < start + bytes.length ∧ a < n then bytes[a - start]? else cells[a]? := by
  induction bytes generalizing cells start with
  | nil => simp [overwrite]; omega
  | cons byte rest ih =>
    simp only [overwrite, ih, List.length_cons, Vector.getElem?_setIfInBounds]
    rcases Nat.lt_trichotomy a start with h | rfl | h
    · grind
    · grind
    · have shift : a - start = a - (start + 1) + 1 := by omega
      grind

structure Memory where
  bytes : Vector UInt8 4096
deriving DecidableEq

namespace Memory

def patch (memory : Memory) (start : Nat) (bytes : List UInt8) : Memory :=
  { memory with bytes := overwrite memory.bytes start bytes }

/-- The `length` bytes from `start` on that exist. -/
def slice (memory : Memory) (start length : Nat) : List UInt8 :=
  (memory.bytes.toArray.extract start (start + length)).toList

def initial : Memory := patch ⟨Vector.replicate 4096 0⟩ fontStart font

def checkSpan (start length : Nat) : Except Fault Unit :=
  if start + length ≤ memorySize then .ok () else .error (.outOfBounds (max start memorySize))

def read (memory : Memory) (start length : Nat) : Except Fault (List UInt8) := do
  checkSpan start length
  return memory.slice start length

def write (memory : Memory) (start : Nat) (bytes : List UInt8) : Except Fault Memory := do
  checkSpan start bytes.length
  return memory.patch start bytes

/-- The number that two bytes spell, the high byte first. -/
def word (memory : Memory) (start : Nat) : Except Fault UInt16 :=
  if h : start + 2 ≤ memorySize then
    have h : start + 1 < 4096 := h
    .ok (memory.bytes[start].toUInt16 <<< 8 ||| memory.bytes[start + 1].toUInt16)
  else .error (.outOfBounds (max start memorySize))

theorem getElem?_patch (memory : Memory) (start : Nat) (bytes : List UInt8) (a : Nat) :
    (memory.patch start bytes).bytes[a]? =
      if start ≤ a ∧ a < start + bytes.length ∧ a < 4096 then bytes[a - start]?
      else memory.bytes[a]? := getElem?_overwrite ..

theorem getElem?_slice (memory : Memory) (start length k : Nat) :
    (memory.slice start length)[k]? = if k < length then memory.bytes[start + k]? else none := by
  rw [slice, Array.getElem?_toList, Array.getElem?_extract, Vector.size_toArray]
  by_cases inside : k < length
  · rw [if_pos inside]
    by_cases exist : start + k < 4096
    · rw [if_pos (by omega), Vector.getElem?_toArray]
    · rw [if_neg (by omega), Vector.getElem?_eq_none (by omega)]
  · rw [if_neg inside, if_neg (by omega)]

theorem slice_two (memory : Memory) (bound : start + 1 < 4096) :
    memory.slice start 2 = [memory.bytes[start], memory.bytes[start + 1]] := by
  refine List.ext_getElem? fun k => ?_
  rw [getElem?_slice]
  match k with
  | 0 | 1 => simp
  | k + 2 => rw [if_neg (by omega)]; simp

theorem word_eq (memory : Memory) (bound : start + 1 < 4096) :
    memory.word start =
      .ok (memory.bytes[start].toUInt16 <<< 8 ||| memory.bytes[start + 1].toUInt16) := dif_pos bound

theorem length_slice (memory : Memory) {start length : Nat} (exist : start + length ≤ memorySize) :
    (memory.slice start length).length = length := by
  have : start + length ≤ 4096 := exist
  simp only [slice, Array.length_toList, Array.size_extract, Vector.size_toArray]
  omega

end Memory
end ChipEight
