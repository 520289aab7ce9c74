import Chip8.Proofs.Footprint

/-!
# Arithmetic with a flag

Five operations leave a flag in VF besides their result.  Both operands are read before anything is
written, and the flag is written last.  So it makes no difference whether VF or one and the same
register is named twice: the flag is always that of the numbers that the registers held before, and
unless the result was to go to VF the two together tell the exact sum, difference or double.
-/

namespace Chip8

namespace Machine

/-- The number that a register holds. -/
def number (m : Machine) (z : Register) : Int :=
  (m.register z).toNat

/-- After an operation on register `x`: the flag is in VF, the result in `x` unless that is VF, and
nothing else has changed but the program counter, which is at the next instruction. -/
structure Flagged (m : Machine) (x : Register) (flag result : Int) (e : Effect) : Prop where
  flag : e.machine.number Register.flag = flag
  result : x ≠ Register.flag → e.machine.number x = result
  others : ∀ z, z ≠ x → z ≠ Register.flag → e.machine.register z = m.register z
  rest : e.machine = { m with v := e.machine.v, pc := m.pc + 2 }
  events : e.events = []

variable (m : Machine) (x y : Register)

theorem number_nonneg : 0 ≤ m.number x :=
  Int.natCast_nonneg _

theorem number_lt : m.number x < 256 := by
  have h := (m.register x).toNat_lt
  unfold number
  omega

theorem flagged_setWithFlag
    {value : UInt8} {isSet : Bool} {flag result : Int}
    (hflag : (isSet.toNat : Int) = flag) (hresult : (value.toNat : Int) = result) :
    m.Flagged x flag result (silently (m.setWithFlag x value isSet)) where
  flag := by
    rw [number, silently, register_setWithFlag, if_pos rfl, ← hflag]
    cases isSet <;> rfl
  result := by
    intro hx
    rw [number, silently, register_setWithFlag, if_neg hx.symm, if_pos rfl, hresult]
  others := by
    intro z hx hflag
    rw [silently, register_setWithFlag, if_neg hflag.symm, if_neg hx.symm]
  rest := rfl
  events := rfl

theorem toNat_decide_of_iff
    {p q : Prop} [Decidable p] [Decidable q] (h : p ↔ q) :
    ((decide p).toNat : Int) = if q then 1 else 0 := by
  by_cases hq : q
  · simp [h, hq]
  · simp [h, hq]

/-! ## The five operations -/

theorem flagged_add :
    ∃ e, m.execute (.pair .add x y) = .ok e ∧
      m.Flagged x (if 255 < m.number x + m.number y then 1 else 0)
        ((m.number x + m.number y) % 256) e := by
  refine ⟨_, rfl, m.flagged_setWithFlag x ?_ ?_⟩
  · apply toNat_decide_of_iff
    unfold number
    omega
  · rw [UInt8.toNat_add]
    unfold number
    omega

/-- The flag of a difference says that nothing was borrowed. -/
theorem flagged_difference
    (minuend subtrahend : Register) :
    m.Flagged x (if m.number subtrahend ≤ m.number minuend then 1 else 0)
      ((m.number minuend - m.number subtrahend) % 256)
      (silently (m.setWithFlag x (m.register minuend - m.register subtrahend)
        (m.register subtrahend ≤ m.register minuend))) := by
  have hsubtrahend := (m.register subtrahend).toNat_lt
  apply flagged_setWithFlag
  · apply toNat_decide_of_iff
    rw [UInt8.le_iff_toNat_le]
    exact Int.ofNat_le.symm
  · rw [UInt8.toNat_sub]
    unfold number
    omega

theorem flagged_sub :
    ∃ e, m.execute (.pair .sub x y) = .ok e ∧
      m.Flagged x (if m.number y ≤ m.number x then 1 else 0)
        ((m.number x - m.number y) % 256) e :=
  ⟨_, rfl, m.flagged_difference x x y⟩

theorem flagged_subFrom :
    ∃ e, m.execute (.pair .subFrom x y) = .ok e ∧
      m.Flagged x (if m.number x ≤ m.number y then 1 else 0)
        ((m.number y - m.number x) % 256) e :=
  ⟨_, rfl, m.flagged_difference x y x⟩

theorem flagged_shiftRight :
    ∃ e, m.execute (.register .shiftRight x) = .ok e ∧
      m.Flagged x (m.number x % 2) (m.number x / 2) e := by
  refine ⟨_, rfl, m.flagged_setWithFlag x ?_ ?_⟩
  · have hmod : (m.register x % 2).toNat = (m.register x).toNat % 2 := UInt8.toNat_mod ..
    have hbit : (m.register x % 2 == 1) = decide (m.number x % 2 = 1) := by
      rw [Bool.eq_iff_iff, beq_iff_eq, decide_eq_true_eq, ← UInt8.toNat_inj, hmod]
      exact Int.ofNat_inj.symm
    rw [hbit, toNat_decide_of_iff Iff.rfl]
    split
    · omega
    · omega
  · have hshift : (m.register x >>> 1).toNat = (m.register x).toNat >>> 1 :=
      UInt8.toNat_shiftRight ..
    rw [hshift, Nat.shiftRight_eq_div_pow]
    rfl

theorem flagged_shiftLeft :
    ∃ e, m.execute (.register .shiftLeft x) = .ok e ∧
      m.Flagged x (m.number x / 128) (2 * m.number x % 256) e := by
  have hnonneg := m.number_nonneg x
  have hlt := m.number_lt x
  refine ⟨_, rfl, m.flagged_setWithFlag x ?_ ?_⟩
  · have hbit : 128 ≤ m.register x ↔ 128 ≤ m.number x := by
      rw [UInt8.le_iff_toNat_le]
      exact Int.ofNat_le.symm
    rw [toNat_decide_of_iff hbit]
    split
    · omega
    · omega
  · have hshift : (m.register x <<< 1).toNat = (m.register x).toNat <<< 1 % 256 :=
      UInt8.toNat_shiftLeft ..
    rw [hshift, Nat.shiftLeft_eq]
    unfold number
    omega

/-- What holds of the flag and the result as numbers is read off the registers afterwards, unless
VF, which can hold only one of them, was to hold both. -/
theorem exact_of_flagged
    {i : Instruction Register} {flag result : Int} {P : Int → Int → Prop}
    (h : ∃ e, m.execute i = .ok e ∧ m.Flagged x flag result e) (hexact : P flag result) :
    ∃ e, m.execute i = .ok e ∧ m.Flagged x flag result e ∧
      (x ≠ Register.flag → P (e.machine.number Register.flag) (e.machine.number x)) := by
  obtain ⟨e, hexecute, hflagged⟩ := h
  refine ⟨e, hexecute, hflagged, ?_⟩
  intro hne
  rw [hflagged.flag, hflagged.result hne]
  exact hexact

/-- The flag and the result of an operation are right whichever registers are named, the same one
twice or VF among them.  The operands are the numbers that the registers held before; VF holds the
carry of a sum, says of a difference that nothing was borrowed, and holds the bit that a shift
pushes out; and this also if the result was to go to VF.  Otherwise the result is in its register,
and with the flag it makes up the exact sum, difference or double. -/
theorem flag_arithmetic_is_exact
    (m : Machine) (x y : Register) :
    let a := m.number x
    let b := m.number y
    (∃ e, m.execute (.pair .add x y) = .ok e ∧
      m.Flagged x (if 255 < a + b then 1 else 0) ((a + b) % 256) e ∧
      (x ≠ Register.flag →
        256 * e.machine.number Register.flag + e.machine.number x = a + b)) ∧
    (∃ e, m.execute (.pair .sub x y) = .ok e ∧
      m.Flagged x (if b ≤ a then 1 else 0) ((a - b) % 256) e ∧
      (x ≠ Register.flag →
        e.machine.number x = a - b + 256 * (1 - e.machine.number Register.flag))) ∧
    (∃ e, m.execute (.pair .subFrom x y) = .ok e ∧
      m.Flagged x (if a ≤ b then 1 else 0) ((b - a) % 256) e ∧
      (x ≠ Register.flag →
        e.machine.number x = b - a + 256 * (1 - e.machine.number Register.flag))) ∧
    (∃ e, m.execute (.register .shiftRight x) = .ok e ∧
      m.Flagged x (a % 2) (a / 2) e ∧
      (x ≠ Register.flag →
        2 * e.machine.number x + e.machine.number Register.flag = a)) ∧
    ∃ e, m.execute (.register .shiftLeft x) = .ok e ∧
      m.Flagged x (a / 128) (2 * a % 256) e ∧
      (x ≠ Register.flag →
        256 * e.machine.number Register.flag + e.machine.number x = 2 * a) := by
  intro a b
  have hx := m.number_nonneg x
  have hx' := m.number_lt x
  have hy := m.number_nonneg y
  have hy' := m.number_lt y
  refine ⟨?_, ?_, ?_, ?_, ?_⟩
  · apply m.exact_of_flagged x (P := fun f r => 256 * f + r = a + b) (m.flagged_add x y)
    split <;> omega
  · apply m.exact_of_flagged x (P := fun f r => r = a - b + 256 * (1 - f)) (m.flagged_sub x y)
    split <;> omega
  · apply m.exact_of_flagged x (P := fun f r => r = b - a + 256 * (1 - f)) (m.flagged_subFrom x y)
    split <;> omega
  · apply m.exact_of_flagged x (P := fun f r => 2 * r + f = a) (m.flagged_shiftRight x)
    omega
  · apply m.exact_of_flagged x (P := fun f r => 256 * f + r = 2 * a) (m.flagged_shiftLeft x)
    omega

/-- With 200 in V1 and 100 in VF the sum goes past a byte.  It is the same sum when it is to go to
VF itself, but there only the carry is left. -/
theorem sum_of_register_and_flag :
    let m := ((powerOn (Random.Stream.ofSeed 0)).performAll
      [.execute (.byte .load 1 200), .execute (.byte .load 15 100)]).machine
    (∃ e, m.execute (.pair .add 1 15) = .ok e ∧
      e.machine.number 1 = 44 ∧ 256 * e.machine.number 15 + e.machine.number 1 = 300) ∧
    ∃ e, m.execute (.pair .add 15 1) = .ok e ∧
      e.machine.number 15 = 1 ∧ e.machine.number 1 = 200 := by
  intro m
  obtain ⟨hone, hflag⟩ : m.number 1 = 200 ∧ m.number 15 = 100 := by decide +kernel
  obtain ⟨⟨e, hexecute, h, hexact⟩, -⟩ := m.flag_arithmetic_is_exact 1 15
  obtain ⟨⟨e', hexecute', h', -⟩, -⟩ := m.flag_arithmetic_is_exact 15 1
  have hne : (1 : Register) ≠ Register.flag := by decide
  refine ⟨⟨e, hexecute, ?_, ?_⟩, e', hexecute', ?_, ?_⟩
  · rw [h.result hne, hone, hflag]
    rfl
  · exact (hexact hne).trans (by rw [hone, hflag]; rfl)
  · exact h'.flag.trans (by rw [hone, hflag]; rfl)
  · rw [number, h'.others 1 (by decide) (by decide)]
    exact hone

end Machine

end Chip8
