/-! An eight-bit timer. It can be set only while it stands at zero; setting and ticking also
say whether another tick is wanted. -/
namespace ChipEight

structure Countdown where
  value : UInt8 := 0
deriving DecidableEq

namespace Countdown

def isActive (timer : Countdown) : Bool := timer.value != 0

/-- Starts an idle timer and says whether it now runs; a running one keeps its value. -/
def set (timer : Countdown) (value : UInt8) : Countdown × Bool :=
  if timer.value = 0 then (⟨value⟩, value != 0) else (timer, false)

def tick (timer : Countdown) : Countdown × Bool :=
  let next : Countdown := ⟨if timer.value = 0 then 0 else timer.value - 1⟩
  (next, next.isActive)

theorem set_eq (timer : Countdown) (value : UInt8) :
    timer.set value =
      if timer.value = 0 ∧ value ≠ 0 then (⟨value⟩, true) else (timer, false) := by
  unfold set
  by_cases idle : timer.value = 0
  · by_cases zero : value = 0
    · rw [if_pos idle, if_neg fun both => both.2 zero, zero, ← idle]
      simp
    · rw [if_pos idle, if_pos ⟨idle, zero⟩, bne_iff_ne.mpr zero]
  · rw [if_neg idle, if_neg fun both => idle both.1]

def cancel (_ : Countdown) : Countdown := ⟨0⟩

end Countdown
end ChipEight
