import Chip8.Proofs.KeypadHistory
import Chip8.Proofs.Polling

/-!
# A latch of two fields

A `Latch` is one of three things, so that it cannot have caught a press that nobody waits for.  A
keyboard may as well keep two fields, one that tells whether somebody waits and one for the press
that has been caught, and write to them separately.  Of the four ways in which the fields can stand
the one that no latch stands for is then excluded by nothing but the order of the writes.

Here the keypad is carried out once more with two fields.  `ofKeypad` gives the fields for a keypad,
every operation commutes with it, and so do whole histories with every answer in them.  A keyboard
that starts out new therefore never comes to stand in the fourth way.
-/

namespace Chip8

/-- A keypad with a latch of two fields. -/
structure Keyboard where
  down : Vector Bool 16
  /-- Somebody waits for a press. -/
  listening : Bool
  /-- The first key that was pressed while somebody waited. -/
  latchedPress : Option Key
deriving DecidableEq

namespace Keyboard

/-! ## The operations -/

def new : Keyboard where
  down := Vector.replicate 16 false
  listening := false
  latchedPress := none

theorem lastDigit_lt (index : Nat) : index % 16 < 16 :=
  Nat.mod_lt index (Nat.succ_pos 15)

theorem val_lt (key : Key) : key.val < 16 :=
  key.isLt

def keyState (k : Keyboard) (index : Nat) : Bool :=
  k.down.get ⟨index % 16, lastDigit_lt index⟩

/-- Put a key down, and tell whether it was up. -/
def keyDown (k : Keyboard) (key : Key) : Bool × Keyboard :=
  let wasDown := k.down.get key
  let k := { k with down := k.down.set key.val true (val_lt key) }
  let k :=
    if !wasDown && k.listening && k.latchedPress.isNone then { k with latchedPress := some key }
    else k
  (!wasDown, k)

/-- Let a key up, and tell whether it was down. -/
def keyUp (k : Keyboard) (key : Key) : Bool × Keyboard :=
  let wasDown := k.down.get key
  (wasDown, { k with down := k.down.set key.val false (val_lt key) })

/-- Bring a key to where the host's keyboard has it.  Nothing happens to a key that is there. -/
def follow (k : Keyboard) (key : Key) (isHeld : Bool) : Keyboard :=
  if isHeld && !k.keyState key.val then (k.keyDown key).2
  else if !isHeld && k.keyState key.val then (k.keyUp key).2
  else k

def update (k : Keyboard) (held : List Key) : Keyboard :=
  Key.all.foldl (fun k key => k.follow key (held.contains key)) k

def listen (k : Keyboard) : Keyboard :=
  { k with listening := true, latchedPress := none }

/-- Take the press that was caught.  The waiting is over if there was one. -/
def takePress (k : Keyboard) : Option Key × Keyboard :=
  let press := k.latchedPress
  let k := { k with latchedPress := none }
  (press, if press.isSome then { k with listening := false } else k)

def stopListening (k : Keyboard) : Keyboard :=
  { k with listening := false, latchedPress := none }

/-- Carry out a request. -/
def perform (k : Keyboard) : KeypadAction → Reply × Keyboard
  | .press key =>
    let (wasUp, k) := k.keyDown key
    (.truth wasUp, k)
  | .release key =>
    let (wasDown, k) := k.keyUp key
    (.truth wasDown, k)
  | .update held => (.done, k.update held)
  | .read index => (.truth (k.keyState index), k)
  | .listen => (.done, k.listen)
  | .take =>
    let (press, k) := k.takePress
    (.press press, k)
  | .stopListening => (.done, k.stopListening)
  | .reset => (.done, new)

/-- The keyboard after some requests. -/
def after (k : Keyboard) (actions : List KeypadAction) : Keyboard :=
  actions.foldl (fun k action => (k.perform action).2) k

/-! ## The two fields of a latch -/

/-- The keyboard that stands for a keypad. -/
def ofKeypad (p : Keypad) : Keyboard where
  down := p.down
  listening := p.latch.isListening
  latchedPress := p.latch.caught?

/-- No two keypads are kept in the same way. -/
theorem ofKeypad_injective
    {p q : Keypad} (h : ofKeypad p = ofKeypad q) :
    p = q := by
  obtain ⟨down, latch⟩ := p
  obtain ⟨down', latch'⟩ := q
  simp only [ofKeypad, mk.injEq] at h
  obtain ⟨rfl, hlistening, hcaught⟩ := h
  cases latch <;> cases latch' <;> simp_all [Latch.isListening, Latch.caught?]

/-- The keyboards that stand for no keypad are those with a press that nobody waits for. -/
theorem exists_ofKeypad_iff
    (k : Keyboard) :
    (∃ p, ofKeypad p = k) ↔ (k.latchedPress.isSome = true → k.listening = true) := by
  constructor
  · rintro ⟨⟨down, latch⟩, rfl⟩ hcaught
    cases latch with
    | caught key => rfl
    | _ => cases hcaught
  · obtain ⟨down, listening, latchedPress⟩ := k
    intro h
    cases latchedPress with
    | some key =>
        obtain rfl : listening = true := h rfl
        exact ⟨⟨down, .caught key⟩, rfl⟩
    | none =>
        cases listening with
        | false => exact ⟨⟨down, .idle⟩, rfl⟩
        | true => exact ⟨⟨down, .armed⟩, rfl⟩

/-! ## One operation -/

variable (p : Keypad)

theorem keyState_ofKeypad (index : Nat) : (ofKeypad p).keyState index = p.isDown index := rfl

theorem keyDown_ofKeypad
    (key : Key) :
    (ofKeypad p).keyDown key = (!p.isDown key.val, ofKeypad (p.press key)) := by
  obtain ⟨down, latch⟩ := p
  have hget : down.get key = down[key] := rfl
  rw [Keypad.isDown_val]
  cases hdown : down[key] <;> cases latch <;>
    simp [keyDown, ofKeypad, Keypad.press, Latch.offer, Latch.isListening, Latch.caught?, hget,
      hdown]

theorem keyUp_ofKeypad
    (key : Key) :
    (ofKeypad p).keyUp key = (p.isDown key.val, ofKeypad (p.release key)) := by
  rw [Keypad.isDown_val]
  rfl

theorem follow_ofKeypad
    (key : Key) (isHeld : Bool) :
    (ofKeypad p).follow key isHeld = ofKeypad (p.follow key isHeld) := by
  simp only [follow, Keypad.follow, keyState_ofKeypad, keyDown_ofKeypad, keyUp_ofKeypad]
  split
  next => rfl
  next => split <;> rfl

/-- The loop over the sixteen keys keeps to the keypad key by key. -/
theorem foldl_follow_ofKeypad
    (held keys : List Key) :
    keys.foldl (fun k key => k.follow key (held.contains key)) (ofKeypad p) =
      ofKeypad (keys.foldl (fun p key => p.follow key (held.contains key)) p) := by
  induction keys generalizing p with
  | nil => rfl
  | cons key keys ih =>
      rw [List.foldl_cons, List.foldl_cons, follow_ofKeypad]
      exact ih _

theorem update_ofKeypad
    (held : List Key) :
    (ofKeypad p).update held = ofKeypad (p.update held) := by
  rw [Keypad.update_eq_foldl_follow]
  exact foldl_follow_ofKeypad p held Key.all

theorem takePress_ofKeypad :
    (ofKeypad p).takePress = (p.takePress.1, ofKeypad p.takePress.2) := by
  obtain ⟨down, latch⟩ := p
  cases latch <;> rfl

/-- Every request is answered alike and leaves both in the same way. -/
theorem perform_ofKeypad
    (action : KeypadAction) :
    (ofKeypad p).perform action = ((p.perform action).1, ofKeypad (p.perform action).2) := by
  cases action with
  | press key =>
      rw [perform, keyDown_ofKeypad]
      rfl
  | release key =>
      rw [perform, keyUp_ofKeypad]
      rfl
  | update held =>
      rw [perform, update_ofKeypad]
      rfl
  | take =>
      rw [perform, takePress_ofKeypad]
      rfl
  | read | listen | stopListening | reset => rfl

/-! ## Histories -/

theorem after_ofKeypad
    (actions : List KeypadAction) :
    (ofKeypad p).after actions = ofKeypad (p.after actions) := by
  induction actions generalizing p with
  | nil => rfl
  | cons action actions ih =>
      rw [after, List.foldl_cons, perform_ofKeypad]
      exact ih _

/-- Whatever has been asked of a new keyboard, it stands where a keypad stands of which the same was
asked, and it answers the next request as the keypad does.  In particular no press has been caught
that nobody waits for. -/
theorem new_follows_released
    (actions : List KeypadAction) :
    let k := new.after actions
    let p := Keypad.released.after actions
    k = ofKeypad p ∧
      (∀ action, k.perform action = ((p.perform action).1, ofKeypad (p.perform action).2)) ∧
      (k.latchedPress.isSome = true → k.listening = true) := by
  intro k p
  have hkept : k = ofKeypad p := after_ofKeypad Keypad.released actions
  refine ⟨hkept, ?_, ?_⟩
  · intro action
    rw [hkept]
    exact perform_ofKeypad p action
  · exact (exists_ofKeypad_iff k).mp ⟨p, hkept.symm⟩

end Keyboard

end Chip8
