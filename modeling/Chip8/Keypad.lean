/-!
# The keypad

Sixteen keys, each up or down, and a latch that catches one key press for a program that waits for
it.  Only a key that goes from up to down counts as a press, so a key that is already held when the
latch is armed is not caught.
-/

namespace Chip8

/-- One of the sixteen keys, by the hexadecimal digit printed on it. -/
abbrev Key := Fin 16

namespace Key

def all : List Key :=
  List.finRange 16

def ofByte? (byte : UInt8) : Option Key :=
  if h : byte.toNat < 16 then some ⟨byte.toNat, h⟩ else none

/-- The name under which a key is recorded: the decimal digits carry the word `Key` before them. -/
def name (key : Key) : String :=
  if key.val < 10 then "Key" ++ toString key.val
  else String.singleton (Char.ofNat ('A'.toNat + (key.val - 10)))

end Key

/-- What becomes of the next key press. -/
inductive Latch where
  | idle
  | armed
  /-- A press of `key` has been caught, and nobody has taken it yet. -/
  | caught (key : Key)
deriving DecidableEq

namespace Latch

/-- The latch after a press of `key`: the first press stays. -/
def offer (key : Key) : Latch → Latch
  | armed => caught key
  | latch => latch

/-- A latch that is armed or has caught a press has somebody waiting. -/
def isListening : Latch → Bool
  | idle => false
  | _ => true

end Latch

structure Keypad where
  down : Vector Bool 16
  latch : Latch
deriving DecidableEq

namespace Keypad

def released : Keypad where
  down := Vector.replicate 16 false
  latch := .idle

/-- Whether the key of an index is down; of the index only the last hexadecimal digit counts. -/
def isDown (p : Keypad) (index : Nat) : Bool :=
  p.down.get ⟨index % 16, Nat.mod_lt _ (by decide)⟩

/-- Put a key down.  A key that was up is offered to the latch. -/
def press (p : Keypad) (key : Key) : Keypad where
  down := p.down.set key.val true
  latch := if p.down[key] then p.latch else p.latch.offer key

def release (p : Keypad) (key : Key) : Keypad :=
  { p with down := p.down.set key.val false }

def setKey (p : Keypad) (key : Key) (isHeld : Bool) : Keypad :=
  if isHeld then p.press key else p.release key

/-- Bring every key to where the host's keyboard has it, in the order of the digits. -/
def update (p : Keypad) (held : List Key) : Keypad :=
  Key.all.foldl (fun p key => p.setKey key (held.contains key)) p

/-- Wait for the next press, forgetting one that was caught before. -/
def listen (p : Keypad) : Keypad :=
  { p with latch := .armed }

/-- Stop waiting, forgetting a press that was caught. -/
def stopListening (p : Keypad) : Keypad :=
  { p with latch := .idle }

/-- Take the press that was caught; with none to take, the latch stays as it is. -/
def takePress (p : Keypad) : Option Key × Keypad :=
  match p.latch with
  | .caught key => (some key, p.stopListening)
  | _ => (none, p)

/-- The keys that are down, as a number whose bit `k` stands for key `k`. -/
def mask (p : Keypad) : Nat :=
  (Key.all.filter fun key => p.down[key]).foldl (fun mask key => mask + 1 <<< key.val) 0

/-! ## What the operations do to the keys -/

theorem isDown_val (p : Keypad) (key : Key) : p.isDown key.val = p.down[key] := by
  have h : key.val % 16 = key.val := Nat.mod_eq_of_lt key.isLt
  simp [isDown, Vector.get, h]

theorem isDown_press
    (p : Keypad) (key other : Key) :
    (p.press key).isDown other.val = (decide (key = other) || p.isDown other.val) := by
  simp only [isDown_val, press, Fin.getElem_fin, Vector.getElem_set]
  by_cases h : key = other
  · simp [h]
  · have hval : key.val ≠ other.val := fun heq => h (Fin.ext heq)
    simp [h, hval]

theorem isDown_release
    (p : Keypad) (key other : Key) :
    (p.release key).isDown other.val = (!decide (key = other) && p.isDown other.val) := by
  simp only [isDown_val, release, Fin.getElem_fin, Vector.getElem_set]
  by_cases h : key = other
  · simp [h]
  · have hval : key.val ≠ other.val := fun heq => h (Fin.ext heq)
    simp [h, hval]

end Keypad

end Chip8
