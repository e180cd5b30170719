/-! The ChaCha keystream with twelve rounds: blocks of sixteen words, each a function of the key
and the block's number. -/
namespace ChipEight

abbrev StreamKey := Vector UInt32 8

namespace ChaCha

def rotate (word amount : UInt32) : UInt32 := (word <<< amount) ||| (word >>> (32 - amount))

def quarter (s : Vector UInt32 16) (a b c d : Fin 16) : Vector UInt32 16 :=
  let s := s.set a (s[a] + s[b])
  let s := s.set d (rotate (s[d] ^^^ s[a]) 16)
  let s := s.set c (s[c] + s[d])
  let s := s.set b (rotate (s[b] ^^^ s[c]) 12)
  let s := s.set a (s[a] + s[b])
  let s := s.set d (rotate (s[d] ^^^ s[a]) 8)
  let s := s.set c (s[c] + s[d])
  s.set b (rotate (s[b] ^^^ s[c]) 7)

/-- One round over the columns and one over the diagonals. -/
def doubleRound (s : Vector UInt32 16) : Vector UInt32 16 :=
  let s := quarter s 0 4 8 12
  let s := quarter s 1 5 9 13
  let s := quarter s 2 6 10 14
  let s := quarter s 3 7 11 15
  let s := quarter s 0 5 10 15
  let s := quarter s 1 6 11 12
  let s := quarter s 2 7 8 13
  quarter s 3 4 9 14

/-- The input of block `index`: constants, key, block number (low word first) and two zeros. -/
def start (key : StreamKey) (index : Nat) : Vector UInt32 16 :=
  #v[0x61707865, 0x3320646e, 0x79622d32, 0x6b206574,
    key[0], key[1], key[2], key[3], key[4], key[5], key[6], key[7],
    .ofNat index, .ofNat (index / 0x100000000), 0, 0]

def block (key : StreamKey) (index : Nat) : Vector UInt32 16 :=
  let input := start key index
  (Nat.repeat doubleRound 6 input).zipWith (· + ·) input

end ChaCha

end ChipEight
