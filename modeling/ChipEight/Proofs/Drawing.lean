import ChipEight.Proofs.Reference

/-! Sprites pixel by pixel. A sprite changes the pixels that its set bits fall on, as far as they lie
on the grid, and hits if one of these was lit. The rows of the screen are words; `strikes` says the
same of one pixel without them. -/
namespace ChipEight

namespace Screen

/-- Whether a set bit of a sprite falls on a pixel. If the origin lies off the grid, none does. -/
def strikes (x y : Nat) (sprite : List UInt8) (row column : Nat) : Bool :=
  decide (x < 64 ∧ y < 32 ∧ y ≤ row ∧ row < y + sprite.length ∧ x ≤ column ∧ column < x + 8) &&
    (sprite[row - y]?.getD 0).toNat.testBit (7 - (column - x))

theorem getMsbD_span (byte : UInt8) (x : Nat) {column : Nat} (across : column < 64) :
    (span byte x).getMsbD column =
      (decide (x ≤ column ∧ column < x + 8) && byte.toNat.testBit (7 - (column - x))) := by
  have bit : byte.toNat.testBit (7 - (column - x)) = byte.toBitVec.getLsbD (7 - (column - x)) :=
    BitVec.testBit_toNat byte.toBitVec
  rw [span, BitVec.getMsbD_ushiftRight, BitVec.getMsbD_append, bit]
  by_cases left : column < x
  · simp [left, Nat.not_le.2 left]
  by_cases right : 8 ≤ column - x
  · have beyond : ¬ column < x + 8 := by omega
    simp [right, beyond]
  · have within : x ≤ column ∧ column < x + 8 := by omega
    have place : column - x < 8 := by omega
    simp [left, right, across, within, place, BitVec.getMsbD_eq_getLsbD]

theorem getMsbD_layer (x y : Nat) (sprite : List UInt8) (row : Nat) {column : Nat}
    (across : column < 64) :
    (layer x y sprite row).getMsbD column =
      (decide (y ≤ row ∧ row < y + sprite.length ∧ x ≤ column ∧ column < x + 8) &&
        (sprite[row - y]?.getD 0).toNat.testBit (7 - (column - x))) := by
  unfold layer
  by_cases below : y ≤ row
  · cases found : sprite[row - y]? with
    | none =>
      have past : ¬ row < y + sprite.length := by
        have := List.getElem?_eq_none_iff.mp found
        omega
      simp [below, past]
    | some byte =>
      have reached : row < y + sprite.length := by
        have := (List.getElem?_eq_some_iff.mp found).1
        omega
      simp [below, reached, getMsbD_span byte x across]
  · simp [below]

/-- If the origin lies on the grid, what is struck is the layer that drawing adds. -/
theorem strikes_eq_layer {x y : Nat} (left : x < 64) (top : y < 32) (sprite : List UInt8) (row : Nat)
    {column : Nat} (across : column < 64) :
    strikes x y sprite row column = (layer x y sprite row).getMsbD column := by
  simp only [strikes, getMsbD_layer x y sprite row across, left, top, true_and]

theorem strikes_of_off {x y : Nat} (off : ¬ (x < 64 ∧ y < 32)) (sprite : List UInt8)
    (row column : Nat) : strikes x y sprite row column = false := by
  simp only [strikes, Bool.and_eq_false_iff, decide_eq_false_iff_not]
  exact .inl fun within => off ⟨within.1, within.2.1⟩

theorem hits_iff_layer (screen : Screen) (x y : Nat) (sprite : List UInt8) :
    screen.hits x y sprite ↔ ∃ row, screen.row row &&& layer x y sprite row ≠ 0 := by
  induction sprite generalizing y with
  | nil => simp [hits, layer]
  | cons byte rest ih =>
    simp only [hits, Bool.or_eq_true, bne_iff_ne, ih]
    constructor
    · rintro (here | ⟨row, later⟩)
      · exact ⟨y, by rwa [layer_cons_self]⟩
      · refine ⟨row, ?_⟩
        by_cases below : y < row
        · rwa [layer_cons_of_lt x byte rest below]
        · simp [layer_of_lt x rest (Nat.lt_succ_of_le (Nat.not_lt.1 below))] at later
    · rintro ⟨row, meets⟩
      rcases Nat.lt_trichotomy row y with above | rfl | below
      · simp [layer_of_lt x (byte :: rest) above] at meets
      · exact .inl (by rwa [layer_cons_self] at meets)
      · exact .inr ⟨row, by rwa [layer_cons_of_lt x byte rest below] at meets⟩

theorem pixels_ne_zero_iff {pixels : BitVec 64} :
    pixels ≠ 0 ↔ ∃ column < 64, pixels.getMsbD column := by
  constructor
  · intro some
    refine Classical.byContradiction fun none => some (BitVec.eq_of_getMsbD_eq fun column across => ?_)
    simpa using fun lit => none ⟨column, across, lit⟩
  · rintro ⟨column, -, lit⟩ rfl
    simp at lit

theorem hits_iff {x y : Nat} (left : x < 64) (top : y < 32) (screen : Screen) (sprite : List UInt8) :
    screen.hits x y sprite ↔
      ∃ row < 32, ∃ column < 64, strikes x y sprite row column ∧ screen.lit row column := by
  have meets (row : Nat) {column : Nat} (across : column < 64) :
      (screen.row row &&& layer x y sprite row).getMsbD column ↔
        strikes x y sprite row column ∧ screen.lit row column := by
    rw [BitVec.getMsbD_and, Bool.and_eq_true, lit_eq, strikes_eq_layer left top sprite row across,
      and_comm]
  rw [hits_iff_layer]
  constructor
  · rintro ⟨row, common⟩
    obtain ⟨column, across, both⟩ := pixels_ne_zero_iff.mp common
    refine ⟨row, Nat.lt_of_not_le fun below => ?_, column, across, (meets row across).mp both⟩
    simp [row_of_le screen below] at common
  · rintro ⟨row, -, column, across, both⟩
    exact ⟨row, pixels_ne_zero_iff.mpr ⟨column, across, (meets row across).mpr both⟩⟩

end Screen

namespace Display

theorem lit_draw (display : Display) (x y : UInt8) (sprite : List UInt8) {row column : Nat}
    (inside : row < 32) (across : column < 64) :
    (display.draw x y sprite).1.screen.lit row column =
      (display.screen.lit row column ^^ Screen.strikes x.toNat y.toNat sprite row column) := by
  unfold draw
  split
  next on =>
    simp [Screen.lit_draw, Screen.strikes_eq_layer on.1 on.2 sprite row across, inside]
  next off => rw [Screen.strikes_of_off off, Bool.xor_false]

theorem erases_iff (display : Display) (x y : UInt8) (sprite : List UInt8) :
    (display.draw x y sprite).2 ↔
      ∃ row < 32, ∃ column < 64,
        Screen.strikes x.toNat y.toNat sprite row column ∧ display.screen.lit row column := by
  unfold draw
  split
  next on => exact Screen.hits_iff on.1 on.2 display.screen sprite
  next off => simp [Screen.strikes_of_off off]

end Display

namespace Machine

/-- Drawing, pixel by pixel and as an instruction. A sprite inverts exactly the pixels that its set
bits fall on and says whether one of them was lit. The instruction `DXYN` draws the `n` bytes from
`I` on, if they exist, at the place that VX and VY held before it, puts the flag into VF and
otherwise only moves on. -/
theorem draws_exactly :
    (∀ (display : Display) (x y : UInt8) (sprite : List UInt8),
      let drawn := display.draw x y sprite
      (∀ row < 32, ∀ column < 64,
        drawn.1.screen.lit row column =
          (display.screen.lit row column ^^ Screen.strikes x.toNat y.toNat sprite row column)) ∧
      (drawn.2 ↔ ∃ row < 32, ∃ column < 64,
        Screen.strikes x.toNat y.toNat sprite row column ∧ display.screen.lit row column)) ∧
    ∀ (keys : Key → Bool) (now : Instant) (m : Machine) (x y : Register) (n : Fin 16),
      m.cpu.i.toNat + n.val ≤ 4096 →
      let sprite := (List.range n.val).map fun k => Reference.byte m (m.cpu.i.toNat + k)
      let drawn := m.display.draw (m.cpu.register x) (m.cpu.register y) sprite
      let v := m.cpu.v.set 0xF (if drawn.2 then 1 else 0)
      execute keys now (.draw x y n) m =
        .ok () { m with display := drawn.1, cpu := { m.cpu with v } } ∧
      ∀ word, m.cpu.awaiting = none → m.cpu.fetch = .ok word → Opcode.ofWord word = ⟨0xD, x, y, n⟩ →
        step keys now m =
          .ok () { m with display := drawn.1, cpu := { m.cpu with v, pc := m.cpu.pc + 2 } } := by
  refine ⟨fun display x y sprite => ⟨?_, display.erases_iff x y sprite⟩, ?_⟩
  · intro row inside column across
    exact display.lit_draw x y sprite inside across
  · intro keys now m x y n exist sprite drawn v
    have accepted : m.cpu.refusal? (.draw x y n) = none := if_pos exist
    have next : m.after keys now (.draw x y n) =
        { m with display := drawn.1, cpu := { m.cpu with v } } := by
      simp only [after, Reference.slice_eq m exist]
      rfl
    refine ⟨by rw [execute_eq, accepted, attempt, next], fun word free fetched fields => ?_⟩
    have decoded : Instruction.decode (.ofWord word) = .ok (.draw x y n) := by
      rw [fields]
      rfl
    have current : m.cpu.current = .ok (.draw x y n) := by
      simp only [Cpu.current, fetched, decoded, bind, Except.bind, accepted]
    simp only [step_eq, free, current, next, moveOn, Cpu.advance]

/-- About to draw the last three bytes of memory across the lower right corner of the screen, whose
pixel is lit. The flag register says in which column. -/
def cornered : Machine :=
  { new {} (Vector.replicate 8 0) with
    display := { screen := { rows := (Vector.replicate 32 0).setIfInBounds 31 1 } }
    cpu :=
      { i := 4093
        v := overwrite (Vector.replicate 16 0) 0xE [30, 62]
        memory := Memory.patch ⟨Vector.replicate 4096 0xFF⟩ 0x200 [0xDF, 0xE3] } }

theorem draws_exactly_cornered :
    let drawn := cornered.display.draw 62 30 [0xFF, 0xFF, 0xFF]
    let v := cornered.cpu.v.set 0xF 1
    drawn.1.screen.rows = ((Vector.replicate 32 0).set 30 3).set 31 2 ∧
    step (fun _ => false) 0 cornered =
      .ok () { cornered with display := drawn.1, cpu := { cornered.cpu with v, pc := 0x202 } } := by
  have last : (List.range 3).map (fun k => Reference.byte cornered (4093 + k)) =
      [0xFF, 0xFF, 0xFF] := by
    simp [Reference.byte, cornered, List.range_succ, Memory.patch, overwrite]
  have fetched : cornered.cpu.fetch = .ok 0xDFE3 := by
    simp [Cpu.fetch, Memory.word, cornered, programStart, memorySize, Memory.patch, overwrite]
    rfl
  have draws := (draws_exactly.2 (fun _ => false) 0 cornered 0xF 0xE 3 (by decide)).2 0xDFE3 rfl
    fetched rfl
  have same : cornered.display.draw (cornered.cpu.register 0xF) (cornered.cpu.register 0xE)
      ((List.range (3 : Fin 16).val).map fun k => Reference.byte cornered (cornered.cpu.i.toNat + k)) =
      cornered.display.draw 62 30 [0xFF, 0xFF, 0xFF] := by
    rw [← last]
    rfl
  have erased : (cornered.display.draw 62 30 [0xFF, 0xFF, 0xFF]).2 = true := by decide
  simp only [same, erased] at draws
  exact ⟨by decide, draws⟩

end Machine
end ChipEight
