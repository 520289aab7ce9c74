import Chip8.Proofs.Since
import Chip8.Proofs.Sprite
import Chip8.Screen.Action

/-!
# The screen as a function of its history

A pixel remembers of its history only whether it was switched over an odd number of times since the
screen was last cleared, and the flag only whether anything was done to the screen since the flag
was last lowered.  Coordinates that name different pixels have different places, so no pixel is
switched over through the coordinates of another.
-/

namespace Chip8

namespace ScreenAction

/-- Whether a request switches over the pixel in column `x` and row `y`, both up to the edges. -/
def flips (x y : UInt8) : ScreenAction → Bool
  | xor x' y' value =>
    value && decide (x'.toNat % 64 = x.toNat % 64 ∧ y'.toNat % 32 = y.toNat % 32)
  | _ => false

/-- Whether a request raises the flag. -/
def raises : ScreenAction → Bool
  | xor _ _ value => value
  | clear => true
  | markDirty => true
  | _ => false

/-- How often a pixel was switched over since the screen was last cleared. -/
def flipCount (actions : List ScreenAction) (x y : UInt8) : Nat :=
  (since clear actions).countP (·.flips x y)

theorem flips_xor_true
    (x' y' x y : UInt8) :
    (xor x' y' true).flips x y = decide (Screen.index x' y' = Screen.index x y) := by
  simp only [flips, Bool.true_and, Screen.index_eq_index_iff]

theorem flipCount_concat_clear
    (actions : List ScreenAction) (x y : UInt8) :
    flipCount (actions ++ [clear]) x y = 0 := by
  rw [flipCount, since_concat_self, List.countP_nil]

theorem flipCount_concat
    (actions : List ScreenAction) {action : ScreenAction} (haction : action ≠ clear) (x y : UInt8) :
    flipCount (actions ++ [action]) x y =
      flipCount actions x y + if action.flips x y = true then 1 else 0 := by
  rw [flipCount, since_concat haction, List.countP_append, List.countP_singleton, flipCount]

end ScreenAction

open ScreenAction

namespace Screen

/-- The screen after some requests. -/
def after (s : Screen) (actions : List ScreenAction) : Screen :=
  actions.foldl (fun s action => (s.perform action).2) s

theorem after_concat
    (s : Screen) (actions : List ScreenAction) (action : ScreenAction) :
    s.after (actions ++ [action]) = ((s.after actions).perform action).2 :=
  List.foldl_append

/-! ## One request -/

/-- A request other than to clear the screen switches a pixel over or leaves it alone. -/
theorem pixel_perform
    (s : Screen) {action : ScreenAction} (haction : action ≠ .clear) (x y : UInt8) :
    (s.perform action).2.pixel x y = (s.pixel x y ^^ action.flips x y) := by
  cases action with
  | xor x' y' value =>
      cases value with
      | false => simp [perform, xorPixel, flips]
      | true =>
          have hflip : (s.perform (.xor x' y' true)).2 = s.flip x' y' := rfl
          rw [hflip, pixel_flip, flips_xor_true]
          by_cases hindex : index x' y' = index x y <;> simp [hindex]
  | clear => exact absurd rfl haction
  | _ => simp [perform, flips, markDirty, clearDirty, pixel]

/-- A request other than to lower the flag raises it or leaves it alone. -/
theorem isDirty_perform
    (s : Screen) {action : ScreenAction} (haction : action ≠ .clearDirty) :
    (s.perform action).2.isDirty = (s.isDirty || action.raises) := by
  cases action with
  | clearDirty => exact absurd rfl haction
  | xor x y value =>
      cases value with
      | false => exact (Bool.or_false s.isDirty).symm
      | true => exact (Bool.or_true s.isDirty).symm
  | clear | markDirty => exact (Bool.or_true s.isDirty).symm
  | _ => exact (Bool.or_false s.isDirty).symm

/-- The pixels stand row by row. -/
theorem val_index
    (x y : UInt8) :
    (index x y).val = 64 * (y.toNat % 32) + x.toNat % 64 :=
  congrArg (· + x.toNat % 64) (Nat.mul_comm (y.toNat % 32) 64)

theorem pixels_getElem?_index
    (s : Screen) (x y : UInt8) :
    s.pixels[64 * (y.toNat % 32) + x.toNat % 64]? = some (s.pixel x y) := by
  rw [← val_index, Vector.getElem?_eq_getElem (index x y).isLt]
  rfl

theorem xorPixel_eq
    (s : Screen) (x y : UInt8) (value : Bool) :
    (s.xorPixel x y value).1 = (value && s.pixel x y) := by
  cases value <;> rfl

/-- At most the pixel at the place of the coordinates is changed. -/
theorem eq_index_of_xorPixel_ne
    {s : Screen} {x y : UInt8} {value : Bool} {place : Fin 2048}
    (h : (s.xorPixel x y value).2.pixels.get place ≠ s.pixels.get place) :
    place = index x y := by
  cases value with
  | false => exact absurd rfl h
  | true =>
      by_contra hne
      apply h
      have hval : (index x y).val ≠ place.val := fun heq => hne (Fin.ext heq.symm)
      exact Vector.getElem_set_ne (index x y).isLt place.isLt hval

/-! ## A whole history -/

theorem pixel_after
    (actions : List ScreenAction) (x y : UInt8) :
    (blank.after actions).pixel x y = decide (Odd (flipCount actions x y)) := by
  induction actions using List.reverseRecOn with
  | nil =>
      have hblank : (blank.after []).pixel x y = false := by simp [after, blank, pixel]
      rw [hblank]
      rfl
  | append_singleton actions action ih =>
      rw [after_concat]
      by_cases haction : action = .clear
      · rw [haction, flipCount_concat_clear]
        exact (blank.after actions).pixel_clear x y
      · rw [pixel_perform _ haction, ih, flipCount_concat _ haction, decide_odd_add]
        cases action.flips x y <;> rfl

theorem isDirty_after
    (actions : List ScreenAction) :
    (blank.after actions).isDirty = (since .clearDirty actions).any (·.raises) := by
  induction actions using List.reverseRecOn with
  | nil => rfl
  | append_singleton actions action ih =>
      rw [after_concat]
      by_cases haction : action = .clearDirty
      · rw [haction, since_concat_self]
        rfl
      · rw [isDirty_perform _ haction, ih, since_concat haction, List.any_append, List.any_cons,
          List.any_nil, Bool.or_false]

/-- The screen is a function of its history.  A pixel is on exactly if it was switched over an odd
number of times since the screen was last cleared, counting every request with coordinates that
agree with those of the pixel up to the edges; it is what the screen answers for the coordinates,
for their place and in the list of all pixels.  An exclusive or says whether it put out a pixel that
was on, and changes at most the pixel at its coordinates.  The flag is up exactly if the screen was
cleared or marked or some pixel was switched over since the flag was last lowered. -/
theorem screen_is_function_of_history
    (actions : List ScreenAction) :
    let s := blank.after actions
    (∀ x y : UInt8,
      (s.pixel x y = true ↔ Odd (flipCount actions x y)) ∧
        (s.perform (.pixel x y)).1 = .truth (s.pixel x y) ∧
        (s.perform (.index x y)).1 = .number (64 * (y.toNat % 32) + x.toNat % 64) ∧
        (s.perform (.at (index x y))).1 = .truth (s.pixel x y) ∧
        s.pixels[64 * (y.toNat % 32) + x.toNat % 64]? = some (s.pixel x y)) ∧
      (∀ (x y : UInt8) (value : Bool),
        (s.perform (.xor x y value)).1 = .truth (value && s.pixel x y) ∧
          ∀ place : Fin 2048,
            (s.perform (.xor x y value)).2.pixels.get place ≠ s.pixels.get place →
              place = index x y) ∧
      (s.isDirty = true ↔ ∃ action ∈ since .clearDirty actions, action.raises = true) := by
  intro s
  refine ⟨?_, ?_, ?_⟩
  · intro x y
    refine ⟨?_, rfl, ?_, rfl, s.pixels_getElem?_index x y⟩
    · rw [pixel_after, decide_eq_true_eq]
    · rw [perform, ← val_index]
  · intro x y value
    exact ⟨congrArg Reply.truth (s.xorPixel_eq x y value), fun place => eq_index_of_xorPixel_ne⟩
  · rw [isDirty_after, List.any_eq_true]

/-- The pixel in column 3 and row 4 is switched over once before the screen is cleared and twice
after it, the second time with coordinates that go round both edges, and a false value does nothing
at all.  A third time puts it on. -/
theorem pixel_switched_over_round_the_edges :
    let actions : List ScreenAction :=
      [.xor 3 4 true, .clear, .xor 3 4 true, .xor 67 36 true, .clearDirty, .xor 3 4 false]
    let s := blank.after actions
    let next := (s.perform (.xor 131 4 true)).2
    flipCount actions 3 4 = 2 ∧ s.pixel 3 4 = false ∧ s.isDirty = false ∧
      next.pixels.get 259 ≠ s.pixels.get 259 ∧ 259 = index 131 4 ∧
      next.pixel 3 4 = true ∧ next.isDirty = true := by
  intro actions s next
  obtain ⟨hpixels, hxor, hdirty⟩ := screen_is_function_of_history actions
  obtain ⟨hpixels', -, hdirty'⟩ :=
    screen_is_function_of_history (actions ++ [.xor 131 4 true])
  have hcount : flipCount actions 3 4 = 2 := by decide
  have hoff : ¬ s.pixel 3 4 = true := by
    rw [(hpixels 3 4).1, hcount]
    decide
  have hlow : ¬ s.isDirty = true := by
    rw [hdirty]
    decide
  have hchanged : next.pixels.get 259 ≠ s.pixels.get 259 := by
    decide +kernel
  exact ⟨hcount, Bool.eq_false_iff.mpr hoff, Bool.eq_false_iff.mpr hlow, hchanged,
    (hxor 131 4 true).2 259 hchanged, (hpixels' 3 4).1.mpr (by decide), hdirty'.mpr (by decide)⟩

end Screen

end Chip8
