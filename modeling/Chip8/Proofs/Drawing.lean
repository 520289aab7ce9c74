import Chip8.Proofs.History
import Chip8.Proofs.Sprite

/-!
# Drawing instructions

An instruction that draws takes its sprite from memory and its coordinates from two registers, and
reports in VF whether it put a pixel out.  `execute_draw_of_fits` says what it comes to in terms of
the screen, and `draw_is_exclusive_or` in terms of single pixels and of the bits in memory.
-/

namespace Chip8

namespace Memory

theorem getElem?_read
    (m : Memory) (start length k : Nat) :
    (m.read start length)[k]? = if k < length then some (m.byte (start + k)) else none := by
  by_cases hk : k < length
  · simp [read, hk]
  · simp [read, hk]

/-- The lit pixels of a sprite in memory are the bits of its bytes. -/
theorem isLit_read
    (m : Memory) (start length column row : Nat) :
    Sprite.isLit (m.read start length) column row =
      decide (column < 8 ∧ row < length ∧
        (m.byte (start + row)).toNat.testBit (7 - column) = true) := by
  rw [Sprite.isLit, getElem?_read]
  by_cases hrow : row < length
  · simp [hrow]
  · simp [hrow]

end Memory

namespace Machine

variable (m : Machine)

/-! ## One instruction -/

/-- What an instruction that draws comes to, in terms of the screen. -/
theorem execute_draw_of_fits
    (x y : Register) {n : UInt8} (hfits : n = 0 ∨ m.index.toNat + n.toNat ≤ Memory.size) :
    let drawn := m.screen.draw (m.register x) (m.register y) (m.memory.read m.index.toNat n.toNat)
    ∃ e, m.execute (.draw x y n) = .ok e ∧
      e.machine = { m with v := e.machine.v, screen := drawn.2, pc := m.pc + 2 } ∧
      e.machine.register Register.flag = drawn.1.toUInt8 ∧
      (∀ z, z ≠ Register.flag → e.machine.register z = m.register z) ∧
      e.events = [] := by
  intro drawn
  have hrange : Memory.checkRange m.index.toNat n.toNat = .ok () := by
    rw [Memory.checkRange_eq_ok_iff]
    refine hfits.imp_left ?_
    rintro rfl
    rfl
  let shown : Machine := { m with screen := drawn.2 }
  let after := (shown.setRegister Register.flag drawn.1.toUInt8).advance
  have hexecute : m.execute (.draw x y n) = .ok (silently after) := by
    rw [execute, draw, hrange]
    rfl
  have hregister : ∀ z,
      after.register z = if Register.flag = z then drawn.1.toUInt8 else m.register z := by
    intro z
    rw [register_advance, register_setRegister]
    rfl
  refine ⟨silently after, hexecute, rfl, ?_, ?_, rfl⟩
  · exact (hregister Register.flag).trans (if_pos rfl)
  · intro z hz
    exact (hregister z).trans (if_neg hz.symm)

theorem toUInt8_eq_one_iff {b : Bool} : b.toUInt8 = 1 ↔ b = true := by
  cases b <;> decide

theorem toUInt8_eq_zero_iff {b : Bool} : b.toUInt8 = 0 ↔ ¬ b = true := by
  cases b <;> decide

/-- Drawing a sprite of at most 32 rows that lies in memory is an exclusive or.  A pixel is switched
over exactly if the sprite has a lit pixel at its distance from the corner, going round the edges of
the screen; VF says whether some pixel was put out; and nothing else is changed but the program
counter and the flag of the screen. -/
theorem draw_is_exclusive_or
    (x y : Register) {n : UInt8} (hheight : n.toNat ≤ 32)
    (hfits : n = 0 ∨ m.index.toNat + n.toNat ≤ Memory.size) :
    ∃ e, m.execute (.draw x y n) = .ok e ∧
      (∀ cx cy : UInt8,
        let dx := Screen.distance 64 (m.register x) cx
        let dy := Screen.distance 32 (m.register y) cy
        e.machine.screen.pixel cx cy =
          (m.screen.pixel cx cy ^^
            decide (dx < 8 ∧ dy < n.toNat ∧
              (m.memory.byte (m.index.toNat + dy)).toNat.testBit (7 - dx) = true))) ∧
      (let isPutOut :=
        ∃ cx cy, m.screen.pixel cx cy = true ∧ e.machine.screen.pixel cx cy = false
      (e.machine.register Register.flag = 1 ↔ isPutOut) ∧
        (e.machine.register Register.flag = 0 ↔ ¬ isPutOut)) ∧
      e.machine.screen.isDirty = true ∧
      e.machine =
        { m with
          v := e.machine.v
          screen := e.machine.screen
          pc := m.pc + 2 } ∧
      (∀ z, z ≠ Register.flag → e.machine.register z = m.register z) ∧
      e.events = [] := by
  let sprite := m.memory.read m.index.toNat n.toNat
  have hlength : sprite.length ≤ 32 := by
    rw [Memory.length_read]
    exact hheight
  obtain ⟨e, hexecute, hmachine, hflag, hother, hevents⟩ := m.execute_draw_of_fits x y hfits
  have hscreen : e.machine.screen = (m.screen.draw (m.register x) (m.register y) sprite).2 := by
    rw [hmachine]
  have hcollision := m.screen.draw_collision_iff (m.register x) (m.register y) hlength
  rw [← hscreen] at hcollision
  refine ⟨e, hexecute, ?_, ⟨?_, ?_⟩, ?_, ?_, hother, hevents⟩
  · intro cx cy dx dy
    rw [hscreen, m.screen.pixel_draw _ _ cx cy hlength, Memory.isLit_read]
  · rw [hflag, toUInt8_eq_one_iff]
    exact hcollision
  · rw [hflag, toUInt8_eq_zero_iff]
    exact not_congr hcollision
  · rw [hscreen]
    rfl
  · rw [hscreen]
    exact hmachine

/-- A zero drawn in the lower right corner goes round both edges.  Drawn there a second time, with
its column in VF, it puts out what it lit. -/
theorem draw_zero_twice_round_the_corner :
    let zero : List Action :=
      [.execute (.byte .load 15 62), .execute (.byte .load 1 30), .execute (.register .glyph 0)]
    let m := ((powerOn (Random.Stream.ofSeed 0)).performAll
      (zero ++ [.execute (.draw 15 1 5)] ++ zero)).machine
    (5 : UInt8).toNat ≤ 32 ∧
      m.index.toNat + (5 : UInt8).toNat ≤ Memory.size ∧
      m.screen.pixel 1 1 = true ∧
      ∃ e, m.execute (.draw 15 1 5) = .ok e ∧
        e.machine.screen.pixel 1 1 = false ∧
        e.machine.register Register.flag = 1 ∧
        e.machine.screen.isDirty = true := by
  intro zero m
  obtain ⟨hfits, hon, hlit⟩ : m.index.toNat + (5 : UInt8).toNat ≤ Memory.size ∧
      m.screen.pixel 1 1 = true ∧
      Sprite.isLit (m.memory.read m.index.toNat (5 : UInt8).toNat)
        (Screen.distance 64 (m.register 15) 1) (Screen.distance 32 (m.register 1) 1) = true := by
    decide +kernel
  obtain ⟨e, hexecute, hpixels, ⟨hflag, -⟩, hdirty, -⟩ :=
    m.draw_is_exclusive_or 15 1 (n := 5) (by decide) (.inr hfits)
  have hoff : e.machine.screen.pixel 1 1 = false := by
    rw [hpixels, hon, ← Memory.isLit_read, hlit]
    rfl
  exact ⟨by decide, hfits, hon, e, hexecute, hoff, hflag.mpr ⟨1, 1, hon, hoff⟩, hdirty⟩

end Machine

end Chip8
