import Chip8.Proofs.History
import Chip8.Proofs.Keypad
import Mathlib.Order.Bounds.Basic

/-!
# Polling the host's keyboard

A poll brings all keys to where the host's keyboard has them, and on the way it may bring a press to
the latch.  Of the list of keys that the host gives it matters only which keys are in it.  A key
that is already where it is to go takes no notice of being moved there, so a poll comes to the same
as one event for each key that has moved, and as one event for each of the sixteen keys.
-/

namespace Chip8

namespace Latch

/-- A latch that is not armed takes no notice of a press. -/
theorem offer?_of_ne_armed
    {latch : Latch} (h : latch ≠ .armed) (press : Option Key) :
    latch.offer? press = latch := by
  cases press with
  | none => rfl
  | some key =>
      cases latch with
      | armed => exact absurd rfl h
      | _ => rfl

end Latch

namespace Key

/-- In the order of the digits the first key for which `p` holds is the least. -/
theorem isLeast_of_find?_all
    {p : Key → Bool} {key : Key} (h : all.find? p = some key) :
    IsLeast {key : Key | p key = true} key := by
  obtain ⟨hkey, before, behind, hall, hbefore⟩ := List.find?_eq_some_iff_append.mp h
  refine ⟨hkey, ?_⟩
  intro other hother
  have hsorted : (before ++ key :: behind).Pairwise (· < ·) := by
    rw [← hall]
    exact List.pairwise_lt_finRange 16
  have hmem : other ∈ before ++ key :: behind := by
    rw [← hall]
    exact other.mem_all
  rw [List.mem_append, List.mem_cons] at hmem
  rcases hmem with hmem | rfl | hmem
  · have hnot := hbefore other hmem
    rw [show p other = true from hother] at hnot
    cases hnot
  · exact Fin.le_refl other
  · have hbehind := (List.pairwise_append.mp hsorted).2.1
    exact Fin.le_of_lt ((List.pairwise_cons.mp hbehind).1 other hmem)

end Key

namespace Keypad

/-- What a poll with the keys `held` comes to: these are the keys that are down, and the first of
them that was up is caught if the latch was armed. -/
structure Polled (before : Keypad) (held : List Key) (after : Keypad) : Prop where
  keys : ∀ key : Key, after.isDown key.val = true ↔ key ∈ held
  caught :
    before.latch = .armed → (∃ key ∈ held, before.isDown key.val = false) →
      ∃ key, IsLeast {key : Key | key ∈ held ∧ before.isDown key.val = false} key ∧
        after.latch = .caught key
  kept :
    ¬ (before.latch = .armed ∧ ∃ key ∈ held, before.isDown key.val = false) →
      after.latch = before.latch

/-- Move a key to where the host's keyboard has it, unless it is there already. -/
def follow (p : Keypad) (key : Key) (isHeld : Bool) : Keypad :=
  if isHeld && !p.isDown key.val then p.press key
  else if !isHeld && p.isDown key.val then p.release key
  else p

/-- Tell the keypad of a key whether it is held, whether or not it has moved. -/
def report (p : Keypad) (held : List Key) (key : Key) : Keypad :=
  if key ∈ held then p.press key else p.release key

/-- Keypads are told apart by their keys and their latches. -/
theorem eq_of_isDown_eq
    {p q : Keypad} (hkeys : ∀ key : Key, p.isDown key.val = q.isDown key.val)
    (hlatch : p.latch = q.latch) :
    p = q := by
  have hdown : p.down = q.down := by
    apply Vector.ext
    intro index hindex
    have hkey := hkeys ⟨index, hindex⟩
    rwa [isDown_val, isDown_val] at hkey
  obtain ⟨down, latch⟩ := p
  obtain ⟨down', latch'⟩ := q
  rw [mk.injEq]
  exact ⟨hdown, hlatch⟩

variable (p : Keypad) (held : List Key)

/-! ## Keys that stay where they are -/

/-- To move a key to where it is changes nothing. -/
theorem setKey_isDown
    (key : Key) :
    p.setKey key (p.isDown key.val) = p := by
  apply eq_of_isDown_eq
  · intro other
    rw [isDown_setKey]
    split
    next h => rw [h]
    next => rfl
  · rw [latch_setKey, firstPressed?_setKey, Bool.not_and_self]
    rfl

theorem follow_eq_setKey
    (key : Key) (isHeld : Bool) :
    p.follow key isHeld = p.setKey key isHeld := by
  have hstays := p.setKey_isDown key
  cases isHeld <;> cases hdown : p.isDown key.val <;> simp_all [follow, setKey]

theorem report_eq_setKey
    (key : Key) :
    p.report held key = p.setKey key (held.contains key) := by
  by_cases h : key ∈ held <;> simp [report, setKey, h]

/-! ## One poll -/

/-- A poll offers the latch the first key in the list that is up. -/
theorem latch_update_eq_find?
    (p : Keypad) (held : List Key) :
    (p.update held).latch =
      p.latch.offer? (Key.all.find? fun key => !p.isDown key.val && held.contains key) := by
  rw [latch_update]
  simp only [firstPressed?, isDown_update]

theorem polled_update : p.Polled held (p.update held) where
  keys := by
    intro key
    rw [isDown_update, List.contains_iff_mem]
  caught := by
    rintro harmed ⟨key, hheld, hup⟩
    rw [latch_update_eq_find?, harmed]
    cases hfirst : Key.all.find? fun key => !p.isDown key.val && held.contains key with
    | none =>
        have hnot := List.find?_eq_none.mp hfirst key key.mem_all
        simp [hup, hheld] at hnot
    | some first =>
        refine ⟨first, ?_, rfl⟩
        have hleast := Key.isLeast_of_find?_all hfirst
        simpa [and_comm] using hleast
  kept := by
    intro hkept
    by_cases harmed : p.latch = .armed
    · have hnone : (Key.all.find? fun key => !p.isDown key.val && held.contains key) = none := by
        rw [List.find?_eq_none]
        intro key _ hkey
        apply hkept
        refine ⟨harmed, key, ?_⟩
        simpa [and_comm] using hkey
      rw [latch_update_eq_find?, hnone]
      rfl
    · rw [latch_update, Latch.offer?_of_ne_armed harmed]

/-- Of the list only the set of its keys matters. -/
theorem update_congr
    {first second : List Key} (h : ∀ key, key ∈ first ↔ key ∈ second) :
    p.update first = p.update second := by
  have hcontains : ∀ key, first.contains key = second.contains key := by
    intro key
    rw [Bool.eq_iff_iff, List.contains_iff_mem, List.contains_iff_mem]
    exact h key
  simp only [update, hcontains]

/-- After a poll no key of the list is up, so the same poll finds nothing to do. -/
theorem update_update : (p.update held).update held = p.update held := by
  apply eq_of_isDown_eq
  · intro key
    rw [isDown_update, isDown_update]
  · have hnone : (p.update held).firstPressed? ((p.update held).update held) = none := by
      apply firstPressed?_of_isDown_le
      intro key hdown
      rwa [isDown_update] at hdown ⊢
    rw [latch_update, hnone]
    rfl

theorem update_eq_foldl_follow :
    p.update held = Key.all.foldl (fun p key => p.follow key (held.contains key)) p := by
  simp only [follow_eq_setKey]
  rfl

theorem update_eq_foldl_report :
    p.update held = Key.all.foldl (fun p key => p.report held key) p := by
  simp only [report_eq_setKey]
  rfl

end Keypad

/-! ## Polls of an emulator -/

namespace Machine

/-- The event that tells of a key whether it is held. -/
def keyEvent (held : List Key) (key : Key) : Action :=
  if key ∈ held then .press key else .release key

/-- One event for each of some keys. -/
def reports (held keys : List Key) : List Action :=
  keys.map (keyEvent held)

theorem perform_keyEvent
    (m : Machine) (held : List Key) (key : Key) :
    m.perform (keyEvent held key) =
      answer .done { m with keypad := m.keypad.report held key } := by
  unfold keyEvent Keypad.report
  split <;> rfl

theorem performAll_reports
    (m : Machine) (held keys : List Key) :
    (m.performAll (reports held keys)).machine =
      { m with keypad := keys.foldl (fun p key => p.report held key) m.keypad } := by
  induction keys generalizing m with
  | nil => rfl
  | cons key keys ih =>
      rw [reports, List.map_cons, performAll_cons, perform_keyEvent]
      exact ih _

end Machine

namespace Emulator

theorem perform_pollKeys
    (e : Emulator) (held : List Key) :
    e.perform (.pollKeys held) =
      (⟨.done, [], []⟩,
        { e with machine := { e.machine with keypad := e.machine.keypad.update held } }) := by
  have hheard : e.heard [] = [] := by
    unfold heard
    split <;> rfl
  have hkept : e.kept [] = [] := by
    unfold kept
    split <;> rfl
  simp only [perform, Machine.perform, Machine.answer, deliver, hheard, hkept]

/-- A poll of the host's keyboard depends only on which keys are held.  These are the keys that are
down after it, and the least of them that was up is caught by an armed latch, which is all that
becomes of the latch.  So neither order nor repetition in the list makes a difference, the same poll
a second time changes nothing, and it comes to the same whether each key is told of or only those
that have moved.  A poll of an emulator is a poll of its keypad, and nothing else of the emulator is
changed, heard or logged. -/
theorem poll_depends_on_keys_held
    (held : List Key) :
    (∀ p : Keypad,
      let polled := p.update held
      p.Polled held polled ∧
        (∀ other : List Key, (∀ key, key ∈ other ↔ key ∈ held) → p.update other = polled) ∧
        polled.update held = polled ∧
        polled = Key.all.foldl (fun p key => p.follow key (held.contains key)) p ∧
        polled = Key.all.foldl (fun p key => p.report held key) p) ∧
    ∀ e : Emulator,
      let polled := (e.perform (.pollKeys held)).2
      (e.perform (.pollKeys held)).1 = ⟨.done, [], []⟩ ∧
        polled =
          { e with machine := { e.machine with keypad := polled.machine.keypad } } ∧
        e.machine.keypad.Polled held polled.machine.keypad ∧
        (∀ other : List Key, (∀ key, key ∈ other ↔ key ∈ held) →
          (e.perform (.pollKeys other)).2 = polled) ∧
        (polled.perform (.pollKeys held)).2 = polled ∧
        (e.performAll (Machine.reports held Key.all)).2 = polled := by
  constructor
  · intro p polled
    exact ⟨p.polled_update held, fun other hsame => p.update_congr hsame, p.update_update held,
      p.update_eq_foldl_follow held, p.update_eq_foldl_report held⟩
  · intro e polled
    have hpolled : polled =
        { e with machine := { e.machine with keypad := e.machine.keypad.update held } } :=
      congrArg Prod.snd (e.perform_pollKeys held)
    have hkeypad : polled.machine.keypad = e.machine.keypad.update held := by rw [hpolled]
    refine ⟨by rw [perform_pollKeys], ?_, ?_, ?_, ?_, ?_⟩
    · rw [hkeypad]
      exact hpolled
    · rw [hkeypad]
      exact e.machine.keypad.polled_update held
    · intro other hsame
      rw [perform_pollKeys, e.machine.keypad.update_congr hsame, hpolled]
    · rw [perform_pollKeys, hkeypad, hpolled, Keypad.update_update]
    · rw [hpolled, Keypad.update_eq_foldl_report, ← Machine.performAll_reports]
      rfl

/-- Key 9 is held when the latch is armed.  A poll that finds the keys 9, 12 and 4 held catches key
4, whatever the order in which they are told, and a second one changes nothing. -/
theorem poll_catches_least_key :
    let p := (Keypad.released.press 9).listen
    let polled := p.update [12, 9, 4, 12]
    (∀ key, key ∈ [4, 9, 12] ↔ key ∈ ([12, 9, 4, 12] : List Key)) ∧
      p.update [4, 9, 12] = polled ∧
      p.latch = .armed ∧ polled.latch = .caught 4 ∧
      polled.update [12, 9, 4, 12] = polled ∧
      let e : Emulator :=
        { machine := { Machine.powerOn (Random.Stream.ofSeed 0) with keypad := p }
          speaker := some .full
          threshold := none }
      (e.perform (.pollKeys [4, 9, 12])).2 = (e.perform (.pollKeys [12, 9, 4, 12])).2 := by
  intro p polled
  have hsame : ∀ key, key ∈ [4, 9, 12] ↔ key ∈ ([12, 9, 4, 12] : List Key) := by decide
  obtain ⟨hkeypad, hemulator⟩ := poll_depends_on_keys_held [12, 9, 4, 12]
  obtain ⟨hpolled, hset, hagain, -⟩ := hkeypad p
  obtain ⟨key, ⟨⟨hheld, -⟩, hleast⟩, hcaught⟩ :=
    hpolled.caught rfl ⟨4, by decide, by decide⟩
  have hfour : ∀ key ∈ ([12, 9, 4, 12] : List Key), key ≤ 4 → key = 4 := by decide
  have hkey : key = 4 := hfour key hheld (hleast ⟨by decide, by decide⟩)
  refine ⟨hsame, hset _ hsame, rfl, hkey ▸ hcaught, hagain, ?_⟩
  intro e
  obtain ⟨-, -, -, hset', -⟩ := hemulator e
  exact hset' _ hsame

end Emulator

end Chip8
