import Chip8.Reply
import Chip8.Screen

/-!
# Requests to the screen

What a host may ask of the screen, as data.
-/

namespace Chip8

/-- One request to the screen. -/
inductive ScreenAction where
  /-- Combine a pixel with a value by exclusive or. -/
  | xor (x y : UInt8) (value : Bool)
  /-- Ask whether a pixel is on. -/
  | pixel (x y : UInt8)
  /-- Ask for the place of a pixel. -/
  | index (x y : UInt8)
  /-- Ask whether the pixel at a place is on. -/
  | at (place : Fin 2048)
  | size
  | clear
  | markDirty
  | clearDirty
deriving DecidableEq

/-- Carry out a request. -/
def Screen.perform (s : Screen) : ScreenAction → Reply × Screen
  | .xor x y value =>
    let (wentOff, s) := s.xorPixel x y value
    (.truth wentOff, s)
  | .pixel x y => (.truth (s.pixel x y), s)
  | .index x y => (.number (Screen.index x y).val, s)
  | .at place => (.truth s.pixels[place], s)
  | .size => (.size s.pixels.size (s.pixels.size == 0), s)
  | .clear => (.done, s.clear)
  | .markDirty => (.done, s.markDirty)
  | .clearDirty => (.done, s.clearDirty)

end Chip8
