import ChipEight.Screen.Texture

/-! The picture as a code of the screen. Byte `j` belongs to the pixel at row `j / 192` and column
`j / 3 % 64`, and the first byte of each pixel is enough to read the screen back. -/
namespace ChipEight.Screen

/-- With pixels counted row by row, a pixel's byte does not depend on the channel. -/
theorem getElem?_texture_pixel (screen : Screen) {pixel channel : Nat} (within : pixel < 2048)
    (primary : channel < 3) :
    screen.texture[3 * pixel + channel]? = some (shade (screen.lit (pixel / 64) (pixel % 64))) := by
  have place : 3 * pixel + channel < 6144 := by omega
  have row : (3 * pixel + channel) / 192 = pixel / 64 := by omega
  have count : (3 * pixel + channel) / 3 = pixel := by omega
  rw [getElem?_texture screen place, row, count]

/-- The screen that a texture shows, by the first byte of every three. Bytes that are missing count
as black. -/
def ofTexture (bytes : List UInt8) : Screen :=
  ⟨Vector.ofFn fun row : Fin 32 =>
    (BitVec.ofBoolListBE ((List.range 64).map fun column =>
      bytes[3 * (64 * row.val + column)]? == some 255)).cast (by simp)⟩

theorem lit_ofTexture (bytes : List UInt8) {row column : Nat} (inside : row < 32)
    (across : column < 64) :
    (ofTexture bytes).lit row column = (bytes[3 * (64 * row + column)]? == some 255) := by
  simp [lit, ofTexture, inside, across]

theorem shade_beq_white (lit : Bool) : (some (shade lit) == some 255) = lit := by
  cases lit <;> rfl

theorem ofTexture_texture : Function.LeftInverse ofTexture texture := by
  intro screen
  refine eq_of_lit fun row inside column across => ?_
  have first := screen.getElem?_texture_pixel (show 64 * row + column < 2048 by omega)
    (show 0 < 3 by decide)
  have place : (64 * row + column) / 64 = row ∧ (64 * row + column) % 64 = column := by omega
  rw [Nat.add_zero, place.1, place.2] at first
  rw [lit_ofTexture _ inside across, first, shade_beq_white]

/-- The texture has 6144 bytes. Byte `j` is 255 if the pixel at row `j / 192` and column `j / 3 % 64`
is lit and 0 otherwise. The three bytes of a pixel are equal, every third byte gives the screen
back, and no two screens have the same texture. -/
theorem texture_exact :
    (∀ screen : Screen,
      screen.texture.length = 6144 ∧
      (∀ j < 6144, screen.texture[j]? =
        some (if screen.lit (j / 192) (j / 3 % 64) then 255 else 0)) ∧
      (∀ pixel < 2048,
        screen.texture[3 * pixel + 1]? = screen.texture[3 * pixel]? ∧
        screen.texture[3 * pixel + 2]? = screen.texture[3 * pixel]?) ∧
      ofTexture screen.texture = screen) ∧
    Function.Injective texture := by
  refine ⟨fun screen => ⟨screen.length_texture, fun j within => screen.getElem?_texture within,
    fun pixel within => ?_, ofTexture_texture screen⟩, ofTexture_texture.injective⟩
  have byte {channel : Nat} (primary : channel < 3) :=
    screen.getElem?_texture_pixel within primary
  have red := byte (show 0 < 3 by decide)
  exact ⟨(byte (by decide)).trans red.symm, (byte (by decide)).trans red.symm⟩

def upperRight : Screen := ⟨(Vector.replicate 32 0).setIfInBounds 0 1⟩

def lowerLeft : Screen := ⟨(Vector.replicate 32 0).setIfInBounds 31 (1 <<< 63)⟩

/-- Two corners that a texture written column by column would show in each other's place. -/
theorem texture_exact_corners :
    upperRight.texture.length = 6144 ∧
    upperRight.texture[188]? = some 0 ∧ upperRight.texture[189]? = some 255 ∧
    upperRight.texture[191]? = upperRight.texture[189]? ∧ upperRight.texture[192]? = some 0 ∧
    lowerLeft.texture[5952]? = some 255 ∧ ofTexture lowerLeft.texture = lowerLeft ∧
    lowerLeft.texture ≠ upperRight.texture := by
  obtain ⟨encodes, distinct⟩ := texture_exact
  obtain ⟨length, byte, alike, -⟩ := encodes upperRight
  obtain ⟨-, lower, -, back⟩ := encodes lowerLeft
  exact ⟨length, byte 188 (by decide), byte 189 (by decide), (alike 63 (by decide)).2,
    byte 192 (by decide), lower 5952 (by decide), back,
    fun same => absurd (distinct same) (by decide)⟩

end ChipEight.Screen
