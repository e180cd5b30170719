import ChipEight.Screen.Basic

/-! The screen as its viewer sees it: `dirty` says that something may have been drawn since the
last frame was taken. A new display counts as drawn. -/
namespace ChipEight

structure Display where
  screen : Screen := .blank
  dirty : Bool := true
deriving DecidableEq

namespace Display

/-- The screen, if it may differ from the last frame taken. -/
def frame (display : Display) : Option Screen × Display :=
  (if display.dirty then some display.screen else none, { display with dirty := false })

def clear (_ : Display) : Display := { screen := .blank, dirty := true }

/-- Draws a sprite and says whether it erased a pixel. A sprite that starts off the screen
leaves the display as it is. -/
def draw (display : Display) (x y : UInt8) (sprite : List UInt8) : Display × Bool :=
  if x.toNat < 64 ∧ y.toNat < 32 then
    ({ screen := display.screen.draw x.toNat y.toNat sprite, dirty := true },
      display.screen.hits x.toNat y.toNat sprite)
  else (display, false)

end Display
end ChipEight
