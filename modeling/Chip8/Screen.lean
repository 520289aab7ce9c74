/-!
# The screen

Sixty-four columns and thirty-two rows of pixels that are on or off, kept row by row, and a flag
that tells a renderer that something may have changed since it last looked.  Coordinates wrap
around the edges, so every pair of bytes names a pixel.
-/

namespace Chip8

def Screen.width : Nat := 64

def Screen.height : Nat := 32

/-- The pixels and the renderer's flag. -/
structure Screen where
  pixels : Vector Bool 2048
  isDirty : Bool
deriving DecidableEq

namespace Screen

def blank : Screen where
  pixels := Vector.replicate 2048 false
  isDirty := false

/-- The place of the pixel in column `x` and row `y`, both wrapped around the edges. -/
def index (x y : UInt8) : Fin 2048 :=
  ⟨y.toNat % 32 * 64 + x.toNat % 64, by omega⟩

def pixel (s : Screen) (x y : UInt8) : Bool :=
  s.pixels[index x y]

/-- Switch the pixel in column `x` and row `y` over. -/
def flip (s : Screen) (x y : UInt8) : Screen where
  pixels := s.pixels.set (index x y).val (!s.pixel x y)
  isDirty := true

/-- Combine a pixel with `value` by exclusive or: a false value does nothing at all.  The answer
says whether a pixel that was on went off. -/
def xorPixel (s : Screen) (x y : UInt8) (value : Bool) : Bool × Screen :=
  if value then (s.pixel x y, s.flip x y) else (false, s)

def markDirty (s : Screen) : Screen :=
  { s with isDirty := true }

def clearDirty (s : Screen) : Screen :=
  { s with isDirty := false }

/-- Every pixel off, for the renderer to see. -/
def clear (_ : Screen) : Screen :=
  blank.markDirty

/-- The pixels of the row `y`, from left to right. -/
def row (s : Screen) (y : Nat) : List Bool :=
  (List.range width).map fun x => s.pixels[y * width + x]?.getD false

def rows (s : Screen) : List (List Bool) :=
  (List.range height).map s.row

/-! ## What the operations do to the pixels -/

/-- Two pairs of coordinates name one pixel exactly when they agree up to the edges. -/
theorem index_eq_index_iff
    (x y x' y' : UInt8) :
    index x y = index x' y' ↔
      x.toNat % 64 = x'.toNat % 64 ∧ y.toNat % 32 = y'.toNat % 32 := by
  simp only [index, Fin.mk.injEq]
  omega

/-- The pixels are told apart by their coordinates. -/
theorem pixels_eq_of_pixel_eq
    {s t : Screen} (h : ∀ x y, s.pixel x y = t.pixel x y) :
    s.pixels = t.pixels := by
  ext place hplace
  have hpixel := h (UInt8.ofNat (place % 64)) (UInt8.ofNat (place / 64))
  have hindex : (index (UInt8.ofNat (place % 64)) (UInt8.ofNat (place / 64))).val = place := by
    simp only [index, UInt8.toNat_ofNat']
    omega
  simpa [pixel, hindex] using hpixel

theorem pixel_flip
    (s : Screen) (x y x' y' : UInt8) :
    (s.flip x y).pixel x' y' =
      if index x y = index x' y' then !s.pixel x' y' else s.pixel x' y' := by
  by_cases h : index x y = index x' y'
  · simp [flip, pixel, h]
  · have hval : (index x y).val ≠ (index x' y').val := fun heq => h (Fin.ext heq)
    simp [flip, pixel, h, hval]

theorem pixel_clear (s : Screen) (x y : UInt8) : s.clear.pixel x y = false := by
  simp [clear, markDirty, blank, pixel]

end Screen

end Chip8
