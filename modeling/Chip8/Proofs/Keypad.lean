import Chip8.Keypad
import Mathlib.Data.List.Find

/-!
# The keypad from the outside

Whatever moves the keys, the latch is told of one press: the first key, in the order of the digits,
that is up before and down after.  `latch_press`, `latch_release`, `latch_setKey` and
`latch_update` say so of the four ways to move keys, and `isDown_update` says where a poll of the
host's keyboard leaves them.
-/

namespace Chip8

namespace Latch

/-- The press that has been caught, if there is one. -/
def caught? : Latch → Option Key
  | caught key => some key
  | _ => none

/-- Offer a press to the latch, if there is one. -/
def offer? (press : Option Key) (latch : Latch) : Latch :=
  press.elim latch fun key => latch.offer key

/-- An offer changes what has been caught, but not whether somebody waits for it. -/
theorem isListening_offer?
    (press : Option Key) (latch : Latch) :
    (latch.offer? press).isListening = latch.isListening := by
  cases press <;> cases latch <;> rfl

/-- Of two offers only the first press counts. -/
theorem offer?_offer?
    (first second : Option Key) (latch : Latch) :
    (latch.offer? first).offer? second = latch.offer? (first.or second) := by
  cases first
  · rfl
  · cases second <;> cases latch <;> rfl

end Latch

namespace Key

theorem mem_all (key : Key) : key ∈ all :=
  List.mem_finRange key

/-- The first key for which `p` holds, in the order of the digits, if there is only one. -/
theorem find?_all_eq_some
    {p : Key → Bool} {key : Key}
    (hkey : p key = true) (honly : ∀ other, p other = true → other = key) :
    all.find? p = some key := by
  cases h : all.find? p with
  | none =>
      have hnot := List.find?_eq_none.mp h key key.mem_all
      exact absurd hkey hnot
  | some other => rw [honly other (List.find?_some h)]

end Key

namespace Keypad

/-- The first key, in the order of the digits, that is up before and down after. -/
def firstPressed? (before after : Keypad) : Option Key :=
  Key.all.find? fun key => !before.isDown key.val && after.isDown key.val

theorem firstPressed?_of_isDown_le
    {before after : Keypad}
    (h : ∀ key : Key, after.isDown key.val = true → before.isDown key.val = true) :
    before.firstPressed? after = none := by
  rw [firstPressed?, List.find?_eq_none]
  intro key _
  have hkey := h key
  cases hafter : after.isDown key.val <;> simp_all

theorem firstPressed?_self (p : Keypad) : p.firstPressed? p = none :=
  firstPressed?_of_isDown_le fun _ hdown => hdown

/-! ## One key -/

theorem firstPressed?_press
    (p : Keypad) (key : Key) :
    p.firstPressed? (p.press key) = if p.isDown key.val then none else some key := by
  split
  next hdown =>
    apply firstPressed?_of_isDown_le
    intro other hother
    rw [isDown_press, Bool.or_eq_true, decide_eq_true_eq] at hother
    rcases hother with rfl | hother
    · exact hdown
    · exact hother
  next hup =>
    apply Key.find?_all_eq_some
    · simp [isDown_press, hup]
    · intro other hother
      simp only [isDown_press, Bool.and_eq_true, Bool.not_eq_true', Bool.or_eq_true,
        decide_eq_true_eq] at hother
      obtain ⟨hother, rfl | hdown⟩ := hother
      · rfl
      · simp [hother] at hdown

theorem firstPressed?_release
    (p : Keypad) (key : Key) :
    p.firstPressed? (p.release key) = none := by
  apply firstPressed?_of_isDown_le
  intro other hother
  rw [isDown_release, Bool.and_eq_true] at hother
  exact hother.2

theorem latch_press
    (p : Keypad) (key : Key) :
    (p.press key).latch = p.latch.offer? (p.firstPressed? (p.press key)) := by
  rw [firstPressed?_press, isDown_val]
  by_cases hdown : p.down[key] = true <;> simp [press, hdown, Latch.offer?]

theorem latch_release
    (p : Keypad) (key : Key) :
    (p.release key).latch = p.latch.offer? (p.firstPressed? (p.release key)) := by
  rw [firstPressed?_release]
  rfl

theorem firstPressed?_setKey
    (p : Keypad) (key : Key) (isHeld : Bool) :
    p.firstPressed? (p.setKey key isHeld) =
      if !p.isDown key.val && isHeld then some key else none := by
  cases isHeld
  · simpa [setKey] using p.firstPressed?_release key
  · rw [setKey, if_pos rfl, firstPressed?_press]
    cases p.isDown key.val <;> rfl

theorem latch_setKey
    (p : Keypad) (key : Key) (isHeld : Bool) :
    (p.setKey key isHeld).latch = p.latch.offer? (p.firstPressed? (p.setKey key isHeld)) := by
  cases isHeld
  · exact p.latch_release key
  · exact p.latch_press key

theorem isDown_setKey
    (p : Keypad) (key other : Key) (isHeld : Bool) :
    (p.setKey key isHeld).isDown other.val =
      if key = other then isHeld else p.isDown other.val := by
  cases isHeld
  · by_cases h : key = other <;> simp [setKey, isDown_release, h]
  · by_cases h : key = other <;> simp [setKey, isDown_press, h]

/-! ## All keys -/

/-- Bring some keys to where the host's keyboard has them, one after the other. -/
def updateKeys (p : Keypad) (held keys : List Key) : Keypad :=
  keys.foldl (fun p key => p.setKey key (held.contains key)) p

theorem updateKeys_cons
    (p : Keypad) (held keys : List Key) (key : Key) :
    p.updateKeys held (key :: keys) = (p.setKey key (held.contains key)).updateKeys held keys :=
  rfl

theorem isDown_updateKeys
    (p : Keypad) (held keys : List Key) (other : Key) :
    (p.updateKeys held keys).isDown other.val =
      if keys.contains other then held.contains other else p.isDown other.val := by
  induction keys generalizing p with
  | nil => simp [updateKeys]
  | cons key keys ih =>
      rw [updateKeys_cons, ih, isDown_setKey]
      by_cases hkeys : other ∈ keys
      · simp [hkeys]
      · by_cases hkey : key = other
        · simp [hkey]
        · have hne : other ≠ key := fun heq => hkey heq.symm
          simp [hkeys, hkey, hne]

/-- The latch is offered the first listed key that is up. -/
theorem latch_updateKeys
    (p : Keypad) (held : List Key) {keys : List Key} (hnodup : keys.Nodup) :
    (p.updateKeys held keys).latch =
      p.latch.offer? (keys.find? fun key => !p.isDown key.val && held.contains key) := by
  induction keys generalizing p with
  | nil => rfl
  | cons key keys ih =>
      obtain ⟨hkey, hkeys⟩ := List.nodup_cons.mp hnodup
      -- No other listed key is this one, so moving it does not change what is found behind it.
      have hrest :
          (keys.find? fun other =>
            !(p.setKey key (held.contains key)).isDown other.val && held.contains other) =
          keys.find? fun other => !p.isDown other.val && held.contains other := by
        apply List.find?_congr
        intro other hother
        have hne : key ≠ other := fun heq => hkey (heq ▸ hother)
        rw [isDown_setKey, if_neg hne]
      rw [updateKeys_cons, ih _ hkeys, hrest, latch_setKey, firstPressed?_setKey, List.find?_cons]
      cases !p.isDown key.val && held.contains key with
      | false => rfl
      | true => exact Latch.offer?_offer? (some key) _ p.latch

theorem isDown_update
    (p : Keypad) (held : List Key) (key : Key) :
    (p.update held).isDown key.val = held.contains key := by
  have h := p.isDown_updateKeys held Key.all key
  rwa [if_pos (List.contains_iff_mem.mpr key.mem_all)] at h

theorem latch_update
    (p : Keypad) (held : List Key) :
    (p.update held).latch = p.latch.offer? (p.firstPressed? (p.update held)) := by
  have h := p.latch_updateKeys held (List.nodup_finRange 16)
  simp only [firstPressed?, isDown_update]
  exact h

end Keypad

end Chip8
