/-! The 64 by 32 grid of pixels and the drawing of sprites. A row is one word whose most
significant bit is the leftmost pixel. Sprites are combined by exclusive or and cut off at the
right and lower edges; nothing wraps. -/
namespace ChipEight

structure Screen where
  rows : Vector (BitVec 64) 32 := Vector.replicate 32 0
deriving DecidableEq

namespace Screen

def width : Nat := 64
def height : Nat := 32

def blank : Screen := {}

/-- Whether the pixel at `row` and `column` is lit; there are none outside the grid. -/
def lit (screen : Screen) (row column : Nat) : Bool :=
  match screen.rows[row]? with
  | some pixels => pixels.getMsbD column
  | none => false

/-- A sprite's byte moved to column `x`; what passes the right edge is lost. -/
def span (byte : UInt8) (x : Nat) : BitVec 64 := (byte.toBitVec ++ 0#56) >>> x

/-- What a sprite at column `x`, row `y` adds to `row`. -/
def layer (x y : Nat) (sprite : List UInt8) (row : Nat) : BitVec 64 :=
  if y ≤ row then
    match sprite[row - y]? with
    | some byte => span byte x
    | none => 0
  else 0

/-- The row `y`; rows below the grid are blank. -/
def row (screen : Screen) (y : Nat) : BitVec 64 := screen.rows[y]?.getD 0

def draw (screen : Screen) (x y : Nat) : List UInt8 → Screen
  | [] => screen
  | byte :: rest => draw ⟨screen.rows.setIfInBounds y (screen.row y ^^^ span byte x)⟩ x (y + 1) rest

def hits (screen : Screen) (x y : Nat) : List UInt8 → Bool
  | [] => false
  | byte :: rest => screen.row y &&& span byte x != 0 || hits screen x (y + 1) rest

theorem row_of_le (screen : Screen) {y : Nat} (h : 32 ≤ y) : screen.row y = 0 := by
  simp [row, h]

theorem lit_eq (screen : Screen) (row column : Nat) :
    screen.lit row column = (screen.row row).getMsbD column := by
  unfold lit Screen.row
  cases screen.rows[row]? <;> simp

theorem eq_of_lit {screen other : Screen}
    (same : ∀ row < 32, ∀ column < 64, screen.lit row column = other.lit row column) :
    screen = other := by
  have rows : screen.rows = other.rows := by
    refine Vector.ext fun row inside => BitVec.eq_of_getMsbD_eq fun column across => ?_
    simpa [lit, inside] using same row inside column across
  cases screen
  cases other
  exact congrArg Screen.mk rows

theorem layer_of_lt (x : Nat) {y row : Nat} (sprite : List UInt8) (h : row < y) :
    layer x y sprite row = 0 := by
  simp [layer, Nat.not_le.2 h]

theorem layer_cons_self (x y : Nat) (byte : UInt8) (rest : List UInt8) :
    layer x y (byte :: rest) y = span byte x := by
  simp [layer]

theorem layer_cons_of_lt (x : Nat) {y row : Nat} (byte : UInt8) (rest : List UInt8) (h : y < row) :
    layer x y (byte :: rest) row = layer x (y + 1) rest row := by
  have shift : row - y = row - (y + 1) + 1 := by omega
  simp [layer, Nat.le_of_lt h, Nat.succ_le_of_lt h, shift]

theorem row_draw (screen : Screen) (x y : Nat) (sprite : List UInt8) (row : Nat) :
    (screen.draw x y sprite).row row =
      if row < 32 then screen.row row ^^^ layer x y sprite row else 0 := by
  induction sprite generalizing screen y with
  | nil =>
    split
    next => simp [draw, layer]
    next outside => exact row_of_le _ (Nat.not_lt.1 outside)
  | cons byte rest ih =>
    rw [draw, ih]
    split
    next inside =>
      rcases Nat.lt_trichotomy row y with h | rfl | h
      · simp [Screen.row, layer_of_lt x _ h, layer_of_lt x _ (Nat.lt_succ_of_lt h), Nat.ne_of_gt h]
      · simp [Screen.row, layer_cons_self, layer_of_lt x _ (Nat.lt_succ_self row), inside]
      · simp [Screen.row, layer_cons_of_lt x _ _ h, Nat.ne_of_lt h]
    next => rfl

theorem lit_draw (screen : Screen) (x y : Nat) (sprite : List UInt8) (row column : Nat) :
    (screen.draw x y sprite).lit row column =
      (screen.lit row column ^^ (decide (row < 32) && (layer x y sprite row).getMsbD column)) := by
  rw [lit_eq, lit_eq, row_draw]
  split
  next inside => simp [inside]
  next outside => simp [outside, row_of_le screen (Nat.not_lt.1 outside)]

end Screen
end ChipEight
