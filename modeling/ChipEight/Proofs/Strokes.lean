import ChipEight.Proofs.Drawing
import Mathlib.Data.Nat.Bits

/-! Draws one after another. Every stroke inverts the pixels that it falls on, so after a sequence
of strokes a pixel differs from what it was just if an odd number of them fell on it: the order
does not matter and what is drawn twice is gone. -/
namespace ChipEight

structure Stroke where
  x : UInt8
  y : UInt8
  sprite : List UInt8

def Stroke.strikes (stroke : Stroke) (row column : Nat) : Bool :=
  Screen.strikes stroke.x.toNat stroke.y.toNat stroke.sprite row column

namespace Screen

theorem strikes_of_above (x : Nat) {y row : Nat} (sprite : List UInt8) (column : Nat)
    (above : row < y) : strikes x y sprite row column = false := by
  simp [strikes, Nat.not_le.2 above]

theorem strikes_of_below (x : Nat) {y row : Nat} {sprite : List UInt8} (column : Nat)
    (below : y + sprite.length ≤ row) : strikes x y sprite row column = false := by
  simp [strikes, Nat.not_lt.2 below]

/-- The lower part of a sprite strikes as a sprite of its own does, also if the seam lies below the
grid, where neither strikes. -/
theorem strikes_append (x y : Nat) (top bottom : List UInt8) {row : Nat} (inside : row < 32)
    (column : Nat) :
    strikes x y (top ++ bottom) row column =
      (strikes x y top row column || strikes x (y + top.length) bottom row column) := by
  rcases Nat.lt_or_ge row y with above | start
  · simp only [strikes_of_above x _ column above,
      strikes_of_above x bottom column (Nat.lt_add_right top.length above), Bool.or_false]
  rcases Nat.lt_or_ge row (y + top.length) with upper | lower
  · rw [strikes_of_above x bottom column upper, Bool.or_false]
    have byte : (top ++ bottom)[row - y]? = top[row - y]? :=
      List.getElem?_append_left (by omega)
    have longer : row < y + (top ++ bottom).length := by
      rw [List.length_append]
      omega
    simp only [strikes, byte, longer, upper]
  · rw [strikes_of_below x column lower, Bool.false_or]
    have byte : (top ++ bottom)[row - y]? = bottom[row - (y + top.length)]? := by
      rw [List.getElem?_append_right (by omega), Nat.sub_sub]
    have ends : y + (top ++ bottom).length = y + top.length + bottom.length := by
      rw [List.length_append, Nat.add_assoc]
    have origins : y < 32 ∧ y + top.length < 32 := by omega
    simp only [strikes, byte, ends, origins.1, origins.2, start, lower, true_and]

theorem strikes_apart {x y row column : Nat} {top bottom : List UInt8}
    (struck : strikes x (y + top.length) bottom row column) :
    strikes x y top row column = false := by
  refine strikes_of_below x column (Nat.le_of_not_lt fun above => ?_)
  simp [strikes_of_above x bottom column above] at struck

end Screen

namespace Display

def drawAll (display : Display) : List Stroke → Display
  | [] => display
  | stroke :: rest => (display.draw stroke.x stroke.y stroke.sprite).1.drawAll rest

theorem drawAll_append (display : Display) (strokes later : List Stroke) :
    display.drawAll (strokes ++ later) = (display.drawAll strokes).drawAll later := by
  induction strokes generalizing display with
  | nil => rfl
  | cons stroke rest ih => exact ih _

theorem lit_drawAll (display : Display) (strokes : List Stroke) {row column : Nat}
    (inside : row < 32) (across : column < 64) :
    (display.drawAll strokes).screen.lit row column =
      (display.screen.lit row column ^^
        (strokes.countP fun stroke => stroke.strikes row column).bodd) := by
  induction strokes generalizing display with
  | nil => simp [drawAll]
  | cons stroke rest ih =>
    rw [drawAll, ih, lit_draw display _ _ _ inside across, List.countP_cons, ← Stroke.strikes,
      Nat.bodd_add]
    cases stroke.strikes row column <;> simp

theorem drawAll_perm (display : Display) {strokes shuffled : List Stroke}
    (perm : strokes.Perm shuffled) :
    (display.drawAll shuffled).screen = (display.drawAll strokes).screen := by
  refine Screen.eq_of_lit fun row inside column across => ?_
  rw [lit_drawAll _ _ inside across, lit_drawAll _ _ inside across, perm.countP_eq]

theorem drawAll_cancel (display : Display) {strokes shuffled : List Stroke}
    (perm : strokes.Perm shuffled) :
    ((display.drawAll strokes).drawAll shuffled).screen = display.screen := by
  refine Screen.eq_of_lit fun row inside column across => ?_
  rw [← drawAll_append, lit_drawAll _ _ inside across, List.countP_append, perm.countP_eq,
    Nat.bodd_add, Bool.xor_self, Bool.xor_false]

/-- Of a stroke and its repetition one erases a pixel, unless no pixel is struck at all: what the
first lights the second finds lit. -/
theorem erases_repeated (display : Display) (x y : UInt8) (sprite : List UInt8) :
    let first := display.draw x y sprite
    (first.2 || (first.1.draw x y sprite).2) ↔
      ∃ row < 32, ∃ column < 64, Screen.strikes x.toNat y.toNat sprite row column := by
  intro first
  rw [Bool.or_eq_true, erases_iff, erases_iff]
  constructor
  · rintro (⟨row, inside, column, across, struck, -⟩ | ⟨row, inside, column, across, struck, -⟩)
    · exact ⟨row, inside, column, across, struck⟩
    · exact ⟨row, inside, column, across, struck⟩
  · rintro ⟨row, inside, column, across, struck⟩
    cases lit : display.screen.lit row column with
    | true => exact .inl ⟨row, inside, column, across, struck, lit⟩
    | false =>
      refine .inr ⟨row, inside, column, across, struck, ?_⟩
      rw [lit_draw display x y sprite inside across, struck, lit, Bool.false_xor]

theorem draw_append (display : Display) (x y : UInt8) (top bottom : List UInt8)
    (fits : y.toNat + top.length ≤ 255) :
    let first := display.draw x y top
    let second := first.1.draw x (y + .ofNat top.length) bottom
    (display.draw x y (top ++ bottom)).1.screen = second.1.screen ∧
      (display.draw x y (top ++ bottom)).2 = (first.2 || second.2) := by
  intro first second
  have seam : (y + .ofNat top.length).toNat = y.toNat + top.length := by
    rw [UInt8.toNat_add, UInt8.toNat_ofNat']
    omega
  constructor
  · refine Screen.eq_of_lit fun row inside column across => ?_
    rw [lit_draw _ _ _ _ inside across, lit_draw _ _ _ _ inside across,
      lit_draw _ _ _ _ inside across, seam, Screen.strikes_append _ _ _ _ inside, Bool.xor_assoc]
    cases struck : Screen.strikes x.toNat (y.toNat + top.length) bottom row column with
    | false => simp
    | true => simp [Screen.strikes_apart struck]
  · rw [Bool.eq_iff_iff, Bool.or_eq_true, erases_iff, erases_iff, erases_iff, seam]
    -- The lower part meets what was there before the upper part was drawn.
    have kept {row column : Nat} (inside : row < 32) (across : column < 64)
        (struck : Screen.strikes x.toNat (y.toNat + top.length) bottom row column) :
        first.1.screen.lit row column = display.screen.lit row column := by
      rw [lit_draw _ _ _ _ inside across, Screen.strikes_apart struck, Bool.xor_false]
    constructor
    · rintro ⟨row, inside, column, across, struck, lit⟩
      rw [Screen.strikes_append _ _ _ _ inside, Bool.or_eq_true] at struck
      rcases struck with upper | lower
      · exact .inl ⟨row, inside, column, across, upper, lit⟩
      · exact .inr ⟨row, inside, column, across, lower, (kept inside across lower).trans lit⟩
    · rintro (⟨row, inside, column, across, upper, lit⟩ | ⟨row, inside, column, across, lower, lit⟩)
      · refine ⟨row, inside, column, across, ?_, lit⟩
        rw [Screen.strikes_append _ _ _ _ inside, upper, Bool.true_or]
      · refine ⟨row, inside, column, across, ?_, (kept inside across lower).symm.trans lit⟩
        rw [Screen.strikes_append _ _ _ _ inside, lower, Bool.or_true]

/-- Drawing is exclusive or. The pixels after a sequence of strokes do not depend on its order, and
the same strokes once more, in any order, restore them. Of a stroke and its repetition one erases
a pixel just if any is struck. A sprite in two parts, the lower one drawn where the upper one ends,
gives the pixels of the whole, and the whole erases just if one of the parts does. -/
theorem draws_compose (display : Display) :
    (∀ strokes shuffled : List Stroke, strokes.Perm shuffled →
      (display.drawAll shuffled).screen = (display.drawAll strokes).screen ∧
      ((display.drawAll strokes).drawAll shuffled).screen = display.screen) ∧
    (∀ (x y : UInt8) (sprite : List UInt8),
      let first := display.draw x y sprite
      let second := first.1.draw x y sprite
      (first.2 || second.2) ↔
        ∃ row < 32, ∃ column < 64, Screen.strikes x.toNat y.toNat sprite row column) ∧
    ∀ (x y : UInt8) (top bottom : List UInt8), y.toNat + top.length ≤ 255 →
      let first := display.draw x y top
      let second := first.1.draw x (y + .ofNat top.length) bottom
      (display.draw x y (top ++ bottom)).1.screen = second.1.screen ∧
      (display.draw x y (top ++ bottom)).2 = (first.2 || second.2) :=
  ⟨fun _ _ perm => ⟨display.drawAll_perm perm, display.drawAll_cancel perm⟩,
    display.erases_repeated, display.draw_append⟩

/-- Overlapping strokes at the lower right corner and one off the screen, and a sprite whose seam
lies on the lower edge. -/
theorem draws_compose_edge :
    let strokes : List Stroke := [⟨62, 30, [0xFF, 0xFF, 0xFF]⟩, ⟨60, 31, [0xF0]⟩, ⟨64, 0, [0x80]⟩]
    let display : Display := {}
    let first := display.draw 62 31 [0x80]
    let second := first.1.draw 62 32 [0xC0]
    (display.drawAll strokes.reverse).screen = (display.drawAll strokes).screen ∧
    ((display.drawAll strokes).drawAll strokes.reverse).screen = display.screen ∧
    (display.draw 62 31 [0x80, 0xC0]).1.screen = second.1.screen ∧
    (display.draw 62 31 [0x80, 0xC0]).2 = (first.2 || second.2) := by
  intro strokes display first second
  obtain ⟨orders, -, parts⟩ := draws_compose display
  have order := orders strokes strokes.reverse strokes.reverse_perm.symm
  exact ⟨order.1, order.2, parts 62 31 [0x80] [0xC0] (by decide)⟩

end Display
end ChipEight
