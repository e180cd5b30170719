import ChipEight.ChaCha

/-! Random bytes: byte `k` is the lowest of word `k` of a keystream. Any function from keys and
numbers to blocks of words makes such a stream; the bytes of a machine come from the one that
ChaCha makes. A seed of 64 bits is stretched to a key by a permuted congruential generator. -/
namespace ChipEight

/-- A place in the keystream of `blocks`. `block` is the one that holds the next word. -/
structure StreamSource {K : Type} (blocks : K → Nat → Vector UInt32 16) where
  key : K
  position : Nat := 0
  block : Vector UInt32 16 := blocks key (position / 16)
  block_eq : block = blocks key (position / 16) := by rfl
deriving DecidableEq

namespace StreamSource

variable {K : Type} {blocks : K → Nat → Vector UInt32 16}

def byteAt (blocks : K → Nat → Vector UInt32 16) (key : K) (position : Nat) : UInt8 :=
  (blocks key (position / 16))[position % 16].toUInt8

def next (source : StreamSource blocks) : UInt8 × StreamSource blocks :=
  (source.block[source.position % 16].toUInt8,
    if same : (source.position + 1) / 16 = source.position / 16 then
      { source with position := source.position + 1, block_eq := by rw [same, source.block_eq] }
    else { key := source.key, position := source.position + 1 })

theorem fst_next (source : StreamSource blocks) :
    source.next.1 = byteAt blocks source.key source.position := by
  simp only [next, byteAt, source.block_eq]

theorem key_next (source : StreamSource blocks) : source.next.2.key = source.key := by
  simp only [next]; split <;> rfl

theorem position_next (source : StreamSource blocks) :
    source.next.2.position = source.position + 1 := by
  simp only [next]; split <;> rfl

end StreamSource

namespace SeedStretch

def advance (state : UInt64) : UInt64 := state * 6364136223846793005 + 11634580027462260723

def output (state : UInt64) : UInt32 :=
  let folded := (((state >>> 18) ^^^ state) >>> 27).toUInt32
  let turn := (state >>> 59).toUInt32
  (folded >>> turn) ||| (folded <<< ((32 - turn) % 32))

def word (seed : UInt64) (index : Nat) : UInt32 := output (Nat.repeat advance (index + 1) seed)

def key (seed : UInt64) : StreamKey := Vector.ofFn fun index => word seed index.val

end SeedStretch

abbrev RandomSource := StreamSource ChaCha.block

namespace RandomSource

def seeded (seed : UInt64) : RandomSource := { key := SeedStretch.key seed }

abbrev byteAt : StreamKey → Nat → UInt8 := StreamSource.byteAt ChaCha.block

end RandomSource
end ChipEight
