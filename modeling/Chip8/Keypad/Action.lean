import Chip8.Reply

/-!
# Requests to the keypad

What a host may ask of the keypad, as data.
-/

namespace Chip8

/-- One request to the keypad. -/
inductive KeypadAction where
  | press (key : Key)
  | release (key : Key)
  /-- Bring the keys to where the host's keyboard has them. -/
  | update (held : List Key)
  /-- Ask for the key of an index. -/
  | read (index : Nat)
  | listen
  | take
  | stopListening
  | reset
deriving DecidableEq

/-- Carry out a request.  A press and a release are answered by whether the key moved. -/
def Keypad.perform (p : Keypad) : KeypadAction → Reply × Keypad
  | .press key => (.truth !(p.isDown key.val), p.press key)
  | .release key => (.truth (p.isDown key.val), p.release key)
  | .update held => (.done, p.update held)
  | .read index => (.truth (p.isDown index), p)
  | .listen => (.done, p.listen)
  | .take =>
    let (key, p) := p.takePress
    (.press key, p)
  | .stopListening => (.done, p.stopListening)
  | .reset => (.done, Keypad.released)

end Chip8
