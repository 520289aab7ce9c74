import Chip8.Screen

/-!
# Sprites

A sprite is a list of bytes, one for each row from the top, whose bits are the eight pixels of the
row with the most significant on the left.  Drawing one switches over every screen pixel under a
lit sprite pixel, and reports a collision if that put out a pixel that was on.
-/

namespace Chip8

namespace Sprite

/-- The columns of the lit pixels of one sprite row whose left end is at column `x`. -/
def litColumns (x row : UInt8) : List UInt8 :=
  ((List.range 8).filter fun column => row.toNat.testBit (7 - column)).map fun column =>
    x + UInt8.ofNat column

/-- The screen coordinates of the lit pixels of a sprite whose corner is at (`x`, `y`), row by
row. -/
def litPixels (x : UInt8) : UInt8 → List UInt8 → List (UInt8 × UInt8)
  | _, [] => []
  | y, row :: rows => (litColumns x row).map (fun column => (column, y)) ++ litPixels x (y + 1) rows

end Sprite

namespace Screen

/-- Switch over one pixel after the other.  The answer says whether one of them was on when its turn
came. -/
def flipAll : Screen → List (UInt8 × UInt8) → Bool × Screen
  | s, [] => (false, s)
  | s, (x, y) :: rest =>
    let wasOn := s.pixel x y
    let (collision, s) := (s.flip x y).flipAll rest
    (wasOn || collision, s)

/-- Draw a sprite with its corner at (`x`, `y`).  The answer says whether it put out a pixel. -/
def draw (s : Screen) (x y : UInt8) (sprite : List UInt8) : Bool × Screen :=
  let (collision, s) := s.flipAll (Sprite.litPixels x y sprite)
  (collision, s.markDirty)

end Screen

end Chip8
