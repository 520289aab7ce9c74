import Chip8.Keypad.Action
import Chip8.Proofs.Keypad
import Chip8.Proofs.Since

/-!
# The keypad as a function of its history

What a keypad is can be told from the requests that were made of it since it was new.  A key is
where the last request that concerned it left it, and only a reset makes that forgotten.  The latch
holds the first key that has gone down since the latch was last armed, provided that nothing in
between has ended the listening.  `latch_after` follows the latch from where it is armed, and
`exists_listen_of_isListening` finds that place in a history.
-/

namespace Chip8

namespace KeypadAction

/-- Where a request leaves a key, if it concerns the key. -/
def leaves? : KeypadAction → Key → Option Bool
  | press pressed, key => if pressed = key then some true else none
  | release released, key => if released = key then some false else none
  | update held, key => some (held.contains key)
  | _, _ => none

/-- Where a key was left by the last request since the last reset that concerned it. -/
def lastLeft? (actions : List KeypadAction) (key : Key) : Option Bool :=
  ((since reset actions).filterMap (·.leaves? key)).getLast?

theorem lastLeft?_concat_reset
    (actions : List KeypadAction) (key : Key) :
    lastLeft? (actions ++ [reset]) key = none := by
  rw [lastLeft?, since_concat_self]
  rfl

theorem lastLeft?_concat
    (actions : List KeypadAction) {action : KeypadAction} (haction : action ≠ reset) (key : Key) :
    lastLeft? (actions ++ [action]) key = (action.leaves? key).or (lastLeft? actions key) := by
  rw [lastLeft?, since_concat haction, List.filterMap_append, List.getLast?_append]
  cases hleft : action.leaves? key <;> simp [hleft, lastLeft?]

end KeypadAction

open KeypadAction

namespace Keypad

/-- The keypad after some requests. -/
def after (p : Keypad) (actions : List KeypadAction) : Keypad :=
  actions.foldl (fun p action => (p.perform action).2) p

/-- Whether a request ends the listening for a press.  Of the attempts to take a press only one that
finds a press does so. -/
def endsListening (p : Keypad) : KeypadAction → Bool
  | .take => p.takePress.1.isSome
  | .stopListening => true
  | .reset => true
  | _ => false

/-- No request of a history ends the listening for a press. -/
def keepsListening : Keypad → List KeypadAction → Bool
  | _, [] => true
  | p, action :: actions =>
    !p.endsListening action && (p.perform action).2.keepsListening actions

/-- The key that goes down first in the course of some requests, if any does. -/
def firstPress? : Keypad → List KeypadAction → Option Key
  | _, [] => none
  | p, action :: actions =>
    let next := (p.perform action).2
    (p.firstPressed? next).or (next.firstPress? actions)

variable {p : Keypad} {action : KeypadAction} {actions : List KeypadAction}

theorem after_cons
    (p : Keypad) (action : KeypadAction) (actions : List KeypadAction) :
    p.after (action :: actions) = (p.perform action).2.after actions :=
  rfl

theorem after_append
    (p : Keypad) (first second : List KeypadAction) :
    p.after (first ++ second) = (p.after first).after second :=
  List.foldl_append

theorem after_concat
    (p : Keypad) (actions : List KeypadAction) (action : KeypadAction) :
    p.after (actions ++ [action]) = ((p.after actions).perform action).2 :=
  p.after_append actions [action]

/-! ## The keys -/

theorem isDown_perform
    (p : Keypad) (haction : action ≠ .reset) (key : Key) :
    (p.perform action).2.isDown key.val = (action.leaves? key).getD (p.isDown key.val) := by
  cases action with
  | press pressed =>
      simp only [perform, isDown_press, leaves?]
      by_cases h : pressed = key <;> simp [h]
  | release released =>
      simp only [perform, isDown_release, leaves?]
      by_cases h : released = key <;> simp [h]
  | update held => exact p.isDown_update held key
  | take =>
      simp only [perform, takePress]
      split <;> rfl
  | reset => exact absurd rfl haction
  | read | listen | stopListening => rfl

theorem isDown_released (key : Key) : released.isDown key.val = false := by
  simp [isDown_val, released]

theorem isDown_after
    (actions : List KeypadAction) (key : Key) :
    (released.after actions).isDown key.val = (lastLeft? actions key).getD false := by
  induction actions using List.reverseRecOn with
  | nil => exact isDown_released key
  | append_singleton actions action ih =>
      rw [after_concat]
      by_cases haction : action = .reset
      · rw [haction, lastLeft?_concat_reset]
        exact isDown_released key
      · rw [isDown_perform _ haction, lastLeft?_concat _ haction, ih]
        cases action.leaves? key <;> rfl

theorem down_after_iff
    (actions : List KeypadAction) (key : Key) :
    (released.after actions).isDown key.val = true ↔ lastLeft? actions key = some true := by
  rw [isDown_after]
  cases lastLeft? actions key <;> simp

/-- A press is answered by whether it moved the key. -/
theorem perform_press_answer
    (p : Keypad) (key : Key) :
    (p.perform (.press key)).1 =
      .truth (decide ((p.perform (.press key)).2.isDown key.val ≠ p.isDown key.val)) := by
  have hdown : (p.press key).isDown key.val = true := by simp [isDown_press]
  simp only [perform, hdown]
  cases p.isDown key.val <;> rfl

/-- A release is answered by whether it moved the key. -/
theorem perform_release_answer
    (p : Keypad) (key : Key) :
    (p.perform (.release key)).1 =
      .truth (decide ((p.perform (.release key)).2.isDown key.val ≠ p.isDown key.val)) := by
  have hup : (p.release key).isDown key.val = false := by simp [isDown_release]
  simp only [perform, hup]
  cases p.isDown key.val <;> rfl

/-! ## The latch -/

theorem takePress_eq_some_iff
    {key : Key} :
    p.takePress.1 = some key ↔ p.latch = .caught key := by
  unfold takePress
  cases p.latch <;> simp

theorem takePress_of_eq_none
    (h : p.takePress.1 = none) :
    p.takePress.2 = p := by
  unfold takePress at h ⊢
  cases hlatch : p.latch with
  | caught key =>
      rw [hlatch] at h
      cases h
  | _ => rfl

theorem isListening_takePress_of_isSome
    (h : p.takePress.1.isSome = true) :
    p.takePress.2.latch.isListening = false := by
  obtain ⟨key, hkey⟩ := Option.isSome_iff_exists.mp h
  rw [takePress, takePress_eq_some_iff.mp hkey]
  rfl

/-- A request that neither arms the latch nor ends the listening offers it the key that goes down,
if one does. -/
theorem latch_perform
    (hlisten : action ≠ .listen) (hkeeps : p.endsListening action = false) :
    (p.perform action).2.latch = p.latch.offer? (p.firstPressed? (p.perform action).2) := by
  cases action with
  | press key => exact p.latch_press key
  | release key => exact p.latch_release key
  | update held => exact p.latch_update held
  | read index => rw [perform, firstPressed?_self, Latch.offer?, Option.elim_none]
  | take =>
      have hnone : p.takePress.1 = none :=
        Option.not_isSome_iff_eq_none.mp (Bool.eq_false_iff.mp hkeeps)
      have htake : (p.perform .take).2 = p := takePress_of_eq_none hnone
      rw [htake, firstPressed?_self, Latch.offer?, Option.elim_none]
  | listen => exact absurd rfl hlisten
  | stopListening | reset => cases hkeeps

theorem isListening_perform
    (hlisten : action ≠ .listen) :
    (p.perform action).2.latch.isListening =
      (p.latch.isListening && !p.endsListening action) := by
  cases hends : p.endsListening action with
  | false =>
      rw [latch_perform hlisten hends, Latch.isListening_offer?, Bool.not_false, Bool.and_true]
  | true =>
      rw [Bool.not_true, Bool.and_false]
      cases action with
      | take => exact isListening_takePress_of_isSome hends
      | stopListening | reset => rfl
      | _ => cases hends

theorem keepsListening_concat
    (p : Keypad) (actions : List KeypadAction) (action : KeypadAction) :
    p.keepsListening (actions ++ [action]) =
      (p.keepsListening actions && !(p.after actions).endsListening action) := by
  induction actions generalizing p with
  | nil => simp [keepsListening, after]
  | cons first actions ih =>
      rw [List.cons_append, keepsListening, ih, keepsListening, after_cons, Bool.and_assoc]

/-- As long as nothing arms the latch or ends the listening, what counts is the first press. -/
theorem latch_after
    (hlisten : .listen ∉ actions) (hkeeps : p.keepsListening actions = true) :
    (p.after actions).latch = p.latch.offer? (p.firstPress? actions) := by
  induction actions generalizing p with
  | nil => rfl
  | cons action actions ih =>
      rw [List.mem_cons, not_or] at hlisten
      rw [keepsListening, Bool.and_eq_true, Bool.not_eq_true'] at hkeeps
      rw [after_cons, ih hlisten.2 hkeeps.2, latch_perform (Ne.symm hlisten.1) hkeeps.1,
        Latch.offer?_offer?]
      rfl

/-- Nobody listens unless the latch is armed. -/
theorem isListening_after_eq_false
    (hidle : p.latch.isListening = false) (hlisten : .listen ∉ actions) :
    (p.after actions).latch.isListening = false := by
  induction actions generalizing p with
  | nil => exact hidle
  | cons action actions ih =>
      rw [List.mem_cons, not_or] at hlisten
      apply ih _ hlisten.2
      rw [isListening_perform (Ne.symm hlisten.1), hidle, Bool.false_and]

/-- Where somebody listens, the latch was armed at some place, and since then it has neither been
armed again nor has the listening ended. -/
theorem exists_listen_of_isListening
    (h : (released.after actions).latch.isListening = true) :
    ∃ before later, actions = before ++ .listen :: later ∧ .listen ∉ later ∧
      (released.after before).listen.keepsListening later = true := by
  induction actions using List.reverseRecOn with
  | nil => cases h
  | append_singleton actions action ih =>
      by_cases haction : action = .listen
      · exact ⟨actions, [], by rw [haction], List.not_mem_nil, rfl⟩
      · rw [after_concat, isListening_perform haction, Bool.and_eq_true] at h
        obtain ⟨before, later, rfl, hlisten, hkeeps⟩ := ih h.1
        rw [after_append] at h
        refine ⟨before, later ++ [action], by simp, ?_, ?_⟩
        · rw [List.mem_append, List.mem_singleton, not_or]
          exact ⟨hlisten, Ne.symm haction⟩
        · rw [keepsListening_concat, hkeeps, Bool.true_and]
          exact h.2

theorem offer?_armed_eq_caught_iff
    {press : Option Key} {key : Key} :
    Latch.armed.offer? press = .caught key ↔ press = some key := by
  cases press <;> simp [Latch.offer?, Latch.offer]

/-- A press can be taken exactly if the latch was armed, the listening has not ended since it was
last armed, and the key of the press is the first that has gone down since. -/
theorem takePress_after_eq_some_iff
    {key : Key} :
    (released.after actions).takePress.1 = some key ↔
      ∃ before later, actions = before ++ .listen :: later ∧ .listen ∉ later ∧
        (released.after before).listen.keepsListening later = true ∧
        (released.after before).listen.firstPress? later = some key := by
  rw [takePress_eq_some_iff]
  have hlatch : ∀ before later, .listen ∉ later →
      (released.after before).listen.keepsListening later = true →
      (released.after (before ++ .listen :: later)).latch =
        Latch.armed.offer? ((released.after before).listen.firstPress? later) := by
    intro before later hlisten hkeeps
    rw [after_append, after_cons]
    exact latch_after hlisten hkeeps
  constructor
  · intro hcaught
    obtain ⟨before, later, rfl, hlisten, hkeeps⟩ :=
      exists_listen_of_isListening (by rw [hcaught]; rfl)
    rw [hlatch before later hlisten hkeeps, offer?_armed_eq_caught_iff] at hcaught
    exact ⟨before, later, rfl, hlisten, hkeeps, hcaught⟩
  · rintro ⟨before, later, rfl, hlisten, hkeeps, hpress⟩
    rw [hlatch before later hlisten hkeeps, offer?_armed_eq_caught_iff]
    exact hpress

/-- The keypad is a function of its history.  A key is down exactly if the last request since the
last reset that concerned it left it down, and a press and a release say whether they moved their
key.  A press can be taken exactly if the latch was armed, no stop, no reset and no press taken has
ended the listening since, and its key is the first that has gone from up to down since the latch
was last armed.  An attempt that finds no press changes nothing, and after one that finds a press
there is none until the latch is armed again. -/
theorem keypad_is_function_of_history
    (actions : List KeypadAction) :
    let p := released.after actions
    (∀ key : Key, p.isDown key.val = true ↔ lastLeft? actions key = some true) ∧
      (∀ key : Key,
        (p.perform (.press key)).1 =
            .truth (decide ((p.perform (.press key)).2.isDown key.val ≠ p.isDown key.val)) ∧
          (p.perform (.release key)).1 =
            .truth (decide ((p.perform (.release key)).2.isDown key.val ≠ p.isDown key.val))) ∧
      (∀ key : Key,
        p.takePress.1 = some key ↔
          ∃ before later, actions = before ++ .listen :: later ∧ .listen ∉ later ∧
            (released.after before).listen.keepsListening later = true ∧
            (released.after before).listen.firstPress? later = some key) ∧
      (p.takePress.1 = none → p.takePress.2 = p) ∧
      (p.takePress.1 ≠ none →
        ∀ later : List KeypadAction, .listen ∉ later →
          (p.takePress.2.after later).takePress.1 = none) := by
  intro p
  refine ⟨down_after_iff actions, ?_, fun key => takePress_after_eq_some_iff,
    takePress_of_eq_none, ?_⟩
  · intro key
    exact ⟨p.perform_press_answer key, p.perform_release_answer key⟩
  · intro hsome later hlisten
    have htaken := isListening_takePress_of_isSome (Option.isSome_iff_ne_none.mpr hsome)
    have hidle := isListening_after_eq_false htaken hlisten
    rw [Option.eq_none_iff_forall_ne_some]
    intro key hkey
    rw [takePress_eq_some_iff.mp hkey] at hidle
    cases hidle

/-- Key 5 is held when the latch is armed and does not count.  Of the keys 10 and 11, which go down
in one poll, 10 is caught, but the latch is armed again before it is taken, so what counts is that
key 3 goes down after that. -/
theorem keypad_after_second_listen :
    let before : List KeypadAction := [.press 5, .listen, .press 5, .take, .update [11, 5, 10]]
    let p := released.after (before ++ [.listen, .press 10, .press 3, .release 3, .press 1])
    p.isDown 5 = true ∧ p.isDown 3 = false ∧
      (released.after before).takePress.1 = some 10 ∧
      p.takePress.1 = some 3 ∧
      (p.takePress.2.after [.release 1, .press 1, .update [2]]).takePress.1 = none ∧
      (released.after [.press 5, .listen]).takePress.2 = released.after [.press 5, .listen] := by
  intro before p
  obtain ⟨hkeys, -, htake, -, htaken⟩ := keypad_is_function_of_history
    (before ++ [.listen, .press 10, .press 3, .release 3, .press 1])
  obtain ⟨-, -, htake', -, -⟩ := keypad_is_function_of_history before
  obtain ⟨-, -, -, hnone, -⟩ := keypad_is_function_of_history [.press 5, .listen]
  have hthree : p.takePress.1 = some 3 :=
    (htake 3).mpr ⟨before, [.press 10, .press 3, .release 3, .press 1], rfl, by decide,
      by decide, by decide⟩
  have hten : (released.after before).takePress.1 = some 10 :=
    (htake' 10).mpr ⟨[.press 5], [.press 5, .take, .update [11, 5, 10]], rfl, by decide,
      by decide, by decide⟩
  have hup : ¬ p.isDown 3 = true := fun h => absurd ((hkeys 3).mp h) (by decide)
  refine ⟨(hkeys 5).mpr (by decide), Bool.eq_false_of_not_eq_true hup, hten, hthree, ?_,
    hnone (by decide)⟩
  exact htaken (by rw [hthree]; exact Option.some_ne_none 3) _ (by decide)

end Keypad

end Chip8
