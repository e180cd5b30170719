import ChipEight.Screen.Basic

/-! The screen as a picture for a renderer: row by row, three bytes a pixel. Its layout can be read
off a type, which gives its length and the pixel that each byte belongs to. -/
namespace ChipEight

theorem toList_flatMap {α β : Type} {n m : Nat} (xs : Vector α n) (f : α → Vector β m) :
    (xs.flatMap f).toList = xs.toList.flatMap fun a => (f a).toList := by
  rw [← Vector.toList_toArray, ← Vector.flatMap_toArray, Array.toList_flatMap]
  rfl

namespace Screen

def shade (lit : Bool) : UInt8 := if lit then 255 else 0

def texture (screen : Screen) : List UInt8 :=
  (List.range 32).flatMap fun row =>
    (List.range 64).flatMap fun column =>
      List.replicate 3 (shade (screen.lit row column))

/-- The texture with its layout in the type: 32 rows of 64 pixels of three bytes. -/
def texels (screen : Screen) : Vector UInt8 (32 * (64 * 3)) :=
  (Vector.range 32).flatMap fun row =>
    (Vector.range 64).flatMap fun column =>
      Vector.replicate 3 (shade (screen.lit row column))

theorem toList_texels (screen : Screen) : screen.texels.toList = screen.texture := by
  simp only [texels, texture, toList_flatMap, Vector.toList_range, Vector.toList_replicate]

theorem getElem_texels (screen : Screen) {j : Nat} (within : j < 6144) :
    screen.texels[j] = shade (screen.lit (j / 192) (j / 3 % 64)) := by
  -- The column is counted within the row's 192 bytes.
  have column : j % 192 / 3 = j / 3 % 64 := Nat.mod_mul_right_div_self j 3 64
  rw [texels, Vector.getElem_flatMap, Vector.getElem_flatMap, Vector.getElem_replicate,
    Vector.getElem_range, Vector.getElem_range, ← column]

theorem length_texture (screen : Screen) : screen.texture.length = 6144 := by
  rw [← toList_texels, Vector.length_toList]

theorem getElem?_texture (screen : Screen) {j : Nat} (within : j < 6144) :
    screen.texture[j]? = some (shade (screen.lit (j / 192) (j / 3 % 64))) := by
  rw [← toList_texels, Vector.getElem?_toList, Vector.getElem?_eq_getElem within,
    getElem_texels screen within]

end Screen
end ChipEight
