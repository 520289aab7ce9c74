import Chip8.Proofs.Drawing

/-!
# Sprites drawn one after the other

A number of sprites, drawn one after the other, switch each pixel over as often as a lit pixel falls
on it in all.  This number depends neither on the order of the sprites nor on what was on the
screen, although each collision on the way does.  So sprites may be drawn in any order, and two
equal ones might as well not have been drawn.
-/

namespace Chip8

/-- A sprite in memory, and where on the screen it is to be drawn. -/
structure Stamp where
  index : UInt16
  column : UInt8
  row : UInt8
  height : UInt8
deriving DecidableEq

namespace Stamp

/-- The sprite lies in memory. -/
def Fits (t : Stamp) : Prop :=
  t.height = 0 ∨ t.index.toNat + t.height.toNat ≤ Memory.size

instance (t : Stamp) : Decidable t.Fits :=
  inferInstanceAs (Decidable (t.height = 0 ∨ t.index.toNat + t.height.toNat ≤ Memory.size))

/-- The rows of the sprite. -/
def sprite (t : Stamp) (memory : Memory) : List UInt8 :=
  memory.read t.index.toNat t.height.toNat

/-- The places that the lit pixels of some sprites fall on, as often as they do. -/
def places (memory : Memory) (stamps : List Stamp) : List (Fin 2048) :=
  stamps.flatMap fun t => Screen.places (Sprite.litPixels t.column t.row (t.sprite memory))

/-- Whether a place is switched over in all. -/
def isFlipped (memory : Memory) (stamps : List Stamp) (place : Fin 2048) : Bool :=
  decide (Odd ((places memory stamps).count place))

variable {memory : Memory} {first second : List Stamp}

theorem pixel_draw
    (memory : Memory) (t : Stamp) (s : Screen) (x y : UInt8) :
    (s.draw t.column t.row (t.sprite memory)).2.pixel x y =
      (s.pixel x y ^^ isFlipped memory [t] (Screen.index x y)) := by
  rw [Screen.pixel_draw_eq_xor_odd, isFlipped, places, List.flatMap_singleton]

theorem isFlipped_append
    (memory : Memory) (first second : List Stamp) (place : Fin 2048) :
    isFlipped memory (first ++ second) place =
      (isFlipped memory first place ^^ isFlipped memory second place) := by
  rw [isFlipped, places, List.flatMap_append, List.count_append, decide_odd_add]
  rfl

/-- The order of the sprites does not matter. -/
theorem isFlipped_of_perm
    (h : first.Perm second) :
    isFlipped memory first = isFlipped memory second := by
  funext place
  rw [isFlipped, isFlipped, places, places, (h.flatMap_right _).count_eq]

/-- Two equal sprites do nothing. -/
theorem isFlipped_cons_cons
    (t : Stamp) (stamps : List Stamp) :
    isFlipped memory (t :: t :: stamps) = isFlipped memory stamps := by
  funext place
  have hsplit : t :: t :: stamps = [t] ++ ([t] ++ stamps) := rfl
  rw [hsplit, isFlipped_append, isFlipped_append, ← Bool.xor_assoc, Bool.xor_self, Bool.false_xor]

end Stamp

/-- A sprite to be drawn, and the two registers that are to hold its coordinates. -/
structure Drawing extends Stamp where
  x : Register
  y : Register
  distinct : x ≠ y

namespace Machine

/-- Point the index register at a sprite and put its coordinates into the registers. -/
def aim (m : Machine) (d : Drawing) : Machine :=
  ({ m with index := d.index }.setRegister d.x d.column).setRegister d.y d.row

/-- Aim and draw. -/
def drawOne (m : Machine) (d : Drawing) : Except Fault Machine := do
  let drawn ← (m.aim d).execute (.draw d.x d.y d.height)
  return drawn.machine

/-- Draw one sprite after the other. -/
def drawAll (m : Machine) (drawings : List Drawing) : Except Fault Machine :=
  drawings.foldlM drawOne m

variable {m : Machine}

theorem register_aim
    (m : Machine) (d : Drawing) :
    (m.aim d).register d.x = d.column ∧ (m.aim d).register d.y = d.row := by
  constructor
  · rw [aim, register_setRegister, if_neg d.distinct.symm, register_setRegister, if_pos rfl]
  · rw [aim, register_setRegister, if_pos rfl]

theorem drawOne_of_fits
    (m : Machine) {d : Drawing} (hfits : d.Fits) :
    let drawn := m.screen.draw d.column d.row (d.sprite m.memory)
    ∃ after, m.drawOne d = .ok after ∧
      after.memory = m.memory ∧
      after.screen = drawn.2 ∧
      after.register Register.flag = drawn.1.toUInt8 := by
  intro drawn
  obtain ⟨hx, hy⟩ := m.register_aim d
  obtain ⟨e, hexecute, hmachine, hflag, -⟩ := (m.aim d).execute_draw_of_fits d.x d.y hfits
  rw [hx, hy] at hmachine hflag
  refine ⟨e.machine, ?_, ?_, ?_, hflag⟩
  · rw [drawOne, hexecute]
    rfl
  · rw [hmachine]
    rfl
  · rw [hmachine]
    rfl

/-- However many sprites are drawn, a pixel ends up switched over if lit pixels fall on it an odd
number of times. -/
theorem drawAll_of_fits
    (m : Machine) {drawings : List Drawing} (hfits : ∀ d ∈ drawings, d.Fits) :
    ∃ after, m.drawAll drawings = .ok after ∧
      ∀ x y,
        after.screen.pixel x y =
          (m.screen.pixel x y ^^
            Stamp.isFlipped m.memory (drawings.map Drawing.toStamp) (Screen.index x y)) := by
  induction drawings generalizing m with
  | nil => exact ⟨m, rfl, by simp [Stamp.isFlipped, Stamp.places]⟩
  | cons d drawings ih =>
      rw [List.forall_mem_cons] at hfits
      obtain ⟨next, hnext, hmemory, hscreen, -⟩ := m.drawOne_of_fits hfits.1
      obtain ⟨after, hafter, hpixels⟩ := ih next hfits.2
      refine ⟨after, ?_, ?_⟩
      · rw [drawAll, List.foldlM_cons, hnext]
        exact hafter
      · intro x y
        have hcons : (d :: drawings).map Drawing.toStamp =
            [d.toStamp] ++ drawings.map Drawing.toStamp := rfl
        rw [hpixels, hscreen, Stamp.pixel_draw, hmemory, Bool.xor_assoc, hcons,
          Stamp.isFlipped_append]

/-- Drawings that switch over the same pixels leave the same pixels. -/
theorem exists_drawAll_of_isFlipped_eq
    {drawings others : List Drawing} {after : Machine}
    (hafter : m.drawAll drawings = .ok after)
    (hfits : ∀ d ∈ drawings, d.Fits) (hfits' : ∀ d ∈ others, d.Fits)
    (hflipped : Stamp.isFlipped m.memory (others.map Drawing.toStamp) =
      Stamp.isFlipped m.memory (drawings.map Drawing.toStamp)) :
    ∃ after', m.drawAll others = .ok after' ∧ after'.screen.pixels = after.screen.pixels := by
  obtain ⟨_, hdrawings, hpixels⟩ := m.drawAll_of_fits hfits
  obtain ⟨after', hothers, hpixels'⟩ := m.drawAll_of_fits hfits'
  rw [hafter] at hdrawings
  cases hdrawings
  refine ⟨after', hothers, Screen.pixels_eq_of_pixel_eq ?_⟩
  intro x y
  rw [hpixels, hpixels', hflipped]

/-- When a sprite of at most 32 rows is drawn twice, the second time puts out what the first time
lit, and reports it. -/
theorem drawOne_twice
    (m : Machine) {first second : Drawing} (hsame : first.toStamp = second.toStamp)
    (hfits : first.Fits) :
    ∃ once twice, m.drawOne first = .ok once ∧ once.drawOne second = .ok twice ∧
      twice.screen.pixels = m.screen.pixels ∧
      (first.height.toNat ≤ 32 →
        (twice.register Register.flag = 1 ↔
          ∃ x y, m.screen.pixel x y = false ∧ once.screen.pixel x y = true)) := by
  have hfits' : second.Fits := hsame ▸ hfits
  obtain ⟨once, honce, hmemory, hscreen, -⟩ := m.drawOne_of_fits hfits
  obtain ⟨twice, htwice, -, hscreen', hflag⟩ := once.drawOne_of_fits hfits'
  rw [← hsame, hmemory] at hscreen' hflag
  have hpixels : ∀ x y, twice.screen.pixel x y = m.screen.pixel x y := by
    intro x y
    rw [hscreen', Stamp.pixel_draw, hscreen, Stamp.pixel_draw, Bool.xor_assoc, Bool.xor_self,
      Bool.xor_false]
  refine ⟨once, twice, honce, htwice, Screen.pixels_eq_of_pixel_eq hpixels, ?_⟩
  intro hheight
  have hlength : (first.sprite m.memory).length ≤ 32 := by
    rw [Stamp.sprite, Memory.length_read]
    exact hheight
  rw [hflag, toUInt8_eq_one_iff, once.screen.draw_collision_iff _ _ hlength, ← hscreen']
  simp only [hpixels, and_comm]

/-- Drawing sprites is a commutative involution on the pixels.  Whatever sprites are drawn, they can
be drawn in any order, and two equal ones can be left out, and the pixels come out the same.  So a
sprite drawn twice leaves the pixels as they were; and if it has at most 32 rows, the second time
reports in VF exactly whether the first time lit a pixel. -/
theorem drawing_is_commutative_involution
    (m : Machine) :
    (∀ drawings : List Drawing, (∀ d ∈ drawings, d.Fits) →
      ∃ after, m.drawAll drawings = .ok after ∧
        (∀ others : List Drawing,
          (others.map Drawing.toStamp).Perm (drawings.map Drawing.toStamp) →
          ∃ after', m.drawAll others = .ok after' ∧
            after'.screen.pixels = after.screen.pixels) ∧
        ∀ (t : Stamp) (others : List Drawing),
          (t :: t :: others.map Drawing.toStamp).Perm (drawings.map Drawing.toStamp) →
          ∃ after', m.drawAll others = .ok after' ∧
            after'.screen.pixels = after.screen.pixels) ∧
    ∀ first second : Drawing, first.toStamp = second.toStamp → first.Fits →
      ∃ once twice, m.drawOne first = .ok once ∧ once.drawOne second = .ok twice ∧
        twice.screen.pixels = m.screen.pixels ∧
        (first.height.toNat ≤ 32 →
          (twice.register Register.flag = 1 ↔
            ∃ x y, m.screen.pixel x y = false ∧ once.screen.pixel x y = true)) := by
  refine ⟨?_, fun first second => m.drawOne_twice⟩
  intro drawings hfits
  have hfits' : ∀ t ∈ drawings.map Drawing.toStamp, t.Fits := List.forall_mem_map.mpr hfits
  obtain ⟨after, hafter, -⟩ := m.drawAll_of_fits hfits
  refine ⟨after, hafter, ?_, ?_⟩
  · intro others hperm
    have hothers : ∀ d ∈ others, d.Fits := by
      intro d hd
      exact hfits' _ (hperm.subset (List.mem_map_of_mem hd))
    exact exists_drawAll_of_isFlipped_eq hafter hfits hothers (Stamp.isFlipped_of_perm hperm)
  · intro t others hperm
    have hothers : ∀ d ∈ others, d.Fits := by
      intro d hd
      have hmem : d.toStamp ∈ others.map Drawing.toStamp := List.mem_map_of_mem hd
      exact hfits' _ (hperm.subset (List.mem_cons_of_mem t (List.mem_cons_of_mem t hmem)))
    apply exists_drawAll_of_isFlipped_eq hafter hfits hothers
    rw [← Stamp.isFlipped_cons_cons t, Stamp.isFlipped_of_perm hperm]

/-- Two zeros over the lower right corner, one before and one after a one that overlaps with them,
leave what they leave when both come last, and what the one alone leaves; and of two zeros in a row
the second reports a collision. -/
theorem two_zeros_leave_overlapping_one :
    let zero : Drawing :=
      { index := 0x50, column := 62, row := 30, height := 5, x := 0, y := 1, distinct := by decide }
    let again : Drawing := { zero with x := 14, y := 2, distinct := by decide }
    let one : Drawing := { zero with index := 0x55, column := 60 }
    let m := powerOn (Random.Stream.ofSeed 0)
    (∀ d ∈ [zero, one, again], d.Fits) ∧
      ([one, again, zero].map Drawing.toStamp).Perm ([zero, one, again].map Drawing.toStamp) ∧
      [zero.toStamp, zero.toStamp, one.toStamp].Perm ([zero, one, again].map Drawing.toStamp) ∧
      (∃ after reordered alone,
        m.drawAll [zero, one, again] = .ok after ∧
          (m.drawAll [one, again, zero] = .ok reordered ∧
            reordered.screen.pixels = after.screen.pixels) ∧
          m.drawAll [one] = .ok alone ∧ alone.screen.pixels = after.screen.pixels) ∧
      ∃ once twice,
        m.drawOne zero = .ok once ∧ once.drawOne again = .ok twice ∧
          twice.screen.pixels = m.screen.pixels ∧
          once.screen.pixel 1 2 = true ∧
          twice.register Register.flag = 1 := by
  intro zero again one m
  have hfits : ∀ d ∈ [zero, one, again], d.Fits := by decide
  have hreorder : ([one, again, zero].map Drawing.toStamp).Perm
      ([zero, one, again].map Drawing.toStamp) := by decide
  have hremove : [zero.toStamp, zero.toStamp, one.toStamp].Perm
      ([zero, one, again].map Drawing.toStamp) := by decide
  obtain ⟨hlists, hpairs⟩ := m.drawing_is_commutative_involution
  obtain ⟨after, hafter, hreordered, hremoved⟩ := hlists [zero, one, again] hfits
  obtain ⟨reordered, hordered⟩ := hreordered [one, again, zero] hreorder
  obtain ⟨alone, halone⟩ := hremoved zero.toStamp [one] hremove
  obtain ⟨once, twice, honce, htwice, hrestored, hflag⟩ :=
    hpairs zero again rfl (hfits zero List.mem_cons_self)
  have hoff : m.screen.pixel 1 2 = false := by decide +kernel
  have hon : once.screen.pixel 1 2 = true := by
    have hcorner : (m.drawOne zero).toOption.map (fun once => once.screen.pixel 1 2) =
        some true := by
      decide +kernel
    rw [honce] at hcorner
    exact Option.some.inj hcorner
  refine ⟨hfits, hreorder, hremove, ⟨after, reordered, alone, hafter, hordered, halone⟩, once,
    twice, honce, htwice, hrestored, hon, ?_⟩
  exact (hflag (by decide)).mpr ⟨1, 2, hoff, hon⟩

end Machine

end Chip8
