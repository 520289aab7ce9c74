import Chip8.Proofs.Checked

/-!
# What words stand for

`Instruction.IsWritten` says digit by digit when a word is a way of writing an instruction, and
`ofWord?_eq_some_iff` shows that the decoder goes by it and by nothing else.  So the operands of a
decoded instruction are the digits of its word, every instruction whose operands fit into digits is
written somehow, and two words for one instruction differ at most in the digit that shifts ignore.
-/

namespace Chip8

namespace RegisterOp

/-- The operations whose words have a digit that is ignored. -/
def isShift : RegisterOp → Bool
  | shiftRight => true
  | shiftLeft => true
  | _ => false

end RegisterOp

namespace Word

/-- The number that a word holds in place of the operand of a given name: the second digit for `x`,
the third for `y`, the last one for `n`, the last two for `nn` and the last three for `addr`. -/
def operand? (word : UInt16) : String → Option Nat
  | "x" => some (word.toNat / 256 % 16)
  | "y" => some (word.toNat / 16 % 16)
  | "n" => some (word.toNat % 16)
  | "nn" => some (word.toNat % 256)
  | "addr" => some (word.toNat % 4096)
  | _ => none

/-- A word of family 8 with digit `x` in the second place and digit `tail` in the last one. -/
def IsArithmetic (word : UInt16) (x : Register) (tail : Nat) : Prop :=
  ∃ y : Register, word.toNat = 0x8000 + x.val * 0x100 + y.val * 0x10 + tail

/-! ## Digits as quotients and remainders -/

@[simp] theorem val_digit_three (word : UInt16) : (digit word 3).val = word.toNat / 4096 := by
  have hlt : word.toNat < 65536 := word.toNat_lt
  simp only [digit, Nat.shiftRight_eq_div_pow]
  omega

@[simp] theorem val_digit_two (word : UInt16) : (digit word 2).val = word.toNat / 256 % 16 := by
  simp only [digit, Nat.shiftRight_eq_div_pow]

@[simp] theorem val_digit_one (word : UInt16) : (digit word 1).val = word.toNat / 16 % 16 := by
  simp only [digit, Nat.shiftRight_eq_div_pow]

@[simp] theorem val_digit_zero (word : UInt16) : (digit word 0).val = word.toNat % 16 := by
  simp only [digit, Nat.shiftRight_eq_div_pow, Nat.mul_zero, Nat.pow_zero, Nat.div_one]

@[simp] theorem toNat_lowByte (word : UInt16) : (lowByte word).toNat = word.toNat % 256 := by
  rw [lowByte, UInt8.toNat_ofNat', Nat.mod_mod]

@[simp] theorem toNat_address (word : UInt16) : (address word).toNat = word.toNat % 4096 := by
  rw [address, UInt16.toNat_ofNat']
  omega

end Word

namespace Instruction

/-- A word is a way of writing an instruction. -/
def IsWritten (word : UInt16) : Instruction Register → Prop
  | clearScreen => word.toNat = 0x00E0
  | ret => word.toNat = 0x00EE
  | address op addr =>
    word.toNat / 4096 = op.family ∧ addr.toNat = word.toNat % 4096 ∧
      word.toNat ≠ 0x00E0 ∧ word.toNat ≠ 0x00EE
  | byte op x nn =>
    word.toNat / 4096 = op.family ∧ x.val = word.toNat / 256 % 16 ∧ nn.toNat = word.toNat % 256
  | pair op x y =>
    word.toNat / 4096 = op.family ∧ x.val = word.toNat / 256 % 16 ∧
      y.val = word.toNat / 16 % 16 ∧ word.toNat % 16 = op.tail
  | register op x =>
    word.toNat / 4096 = op.family ∧ x.val = word.toNat / 256 % 16 ∧
      if op.isShift then word.toNat % 16 = op.tail else word.toNat % 256 = op.tail
  | draw x y n =>
    word.toNat / 4096 = 0xD ∧ x.val = word.toNat / 256 % 16 ∧ y.val = word.toNat / 16 % 16 ∧
      n.toNat = word.toNat % 16

variable {word : UInt16} {i : Instruction Register}

theorem isWritten_of_ofArithmetic?
    (hfamily : word.toNat / 4096 = 0x8)
    (h : ofArithmetic? (Word.digit word 2) (Word.digit word 1) (Word.digit word 0).val = some i) :
    IsWritten word i := by
  unfold ofArithmetic? at h
  split at h
  case h_10 => cases h
  all_goals
    rename_i htail
    cases Option.some.inj h
    rw [Word.val_digit_zero] at htail
    refine ⟨hfamily, Word.val_digit_two word, ?_⟩
    first | exact ⟨Word.val_digit_one word, htail⟩ | exact htail

theorem isWritten_of_ofKeySkip?
    (hfamily : word.toNat / 4096 = 0xE)
    (h : ofKeySkip? (Word.digit word 2) (Word.lowByte word).toNat = some i) :
    IsWritten word i := by
  unfold ofKeySkip? at h
  split at h
  case h_3 => cases h
  all_goals
    rename_i htail
    cases Option.some.inj h
    rw [Word.toNat_lowByte] at htail
    exact ⟨hfamily, Word.val_digit_two word, htail⟩

theorem isWritten_of_ofTransfer?
    (hfamily : word.toNat / 4096 = 0xF)
    (h : ofTransfer? (Word.digit word 2) (Word.lowByte word).toNat = some i) :
    IsWritten word i := by
  unfold ofTransfer? at h
  split at h
  case h_10 => cases h
  all_goals
    rename_i htail
    cases Option.some.inj h
    rw [Word.toNat_lowByte] at htail
    exact ⟨hfamily, Word.val_digit_two word, htail⟩

theorem isWritten_of_ofWord?
    (h : ofWord? word = some i) :
    IsWritten word i := by
  dsimp only [ofWord?] at h
  split at h
  case h_1 hfamily =>
      rw [Word.val_digit_three] at hfamily
      split at h
      next hclear =>
        cases h
        rw [hclear]
        rfl
      next hclear =>
        split at h
        next hret =>
          cases h
          rw [hret]
          rfl
        next hret =>
          cases h
          refine ⟨hfamily, Word.toNat_address word, ?_, ?_⟩
          · exact fun heq => hclear (UInt16.toNat_inj.mp heq)
          · exact fun heq => hret (UInt16.toNat_inj.mp heq)
  case h_6 hfamily | h_10 hfamily =>
      rw [Word.val_digit_three] at hfamily
      split at h
      next htail =>
        cases h
        rw [Word.val_digit_zero] at htail
        exact ⟨hfamily, Word.val_digit_two word, Word.val_digit_one word, htail⟩
      next => cases h
  case h_9 hfamily =>
      rw [Word.val_digit_three] at hfamily
      exact isWritten_of_ofArithmetic? hfamily h
  case h_14 hfamily =>
      rw [Word.val_digit_three] at hfamily
      cases h
      refine ⟨hfamily, Word.val_digit_two word, Word.val_digit_one word, ?_⟩
      rw [UInt8.toNat_ofNat', Word.val_digit_zero]
      omega
  case h_15 hfamily =>
      rw [Word.val_digit_three] at hfamily
      exact isWritten_of_ofKeySkip? hfamily h
  case h_16 =>
      have hword : word.toNat < 65536 := word.toNat_lt
      simp only [Word.val_digit_three, imp_false] at *
      refine isWritten_of_ofTransfer? ?_ h
      omega
  -- What is left are the families of a single operation on an address, or on a register and a byte.
  case h_2 hfamily | h_3 hfamily | h_11 hfamily | h_12 hfamily =>
      rw [Word.val_digit_three] at hfamily
      cases h
      exact ⟨hfamily, Word.toNat_address word, by omega, by omega⟩
  all_goals
    rename_i hfamily
    rw [Word.val_digit_three] at hfamily
    cases h
    exact ⟨hfamily, Word.val_digit_two word, Word.toNat_lowByte word⟩

theorem ofWord?_of_isWritten
    (h : IsWritten word i) :
    ofWord? word = some i := by
  have hthree := Word.val_digit_three word
  cases i with
  | clearScreen =>
      have hword : word = 0x00E0 := UInt16.toNat_inj.mp h
      rw [hword]
      rfl
  | ret =>
      have hword : word = 0x00EE := UInt16.toNat_inj.mp h
      rw [hword]
      rfl
  | address op addr =>
      obtain ⟨hfamily, haddr, hclear, hret⟩ := h
      have hclear' : word ≠ 0x00E0 := fun heq => hclear (congrArg UInt16.toNat heq)
      have hret' : word ≠ 0x00EE := fun heq => hret (congrArg UInt16.toNat heq)
      have haddr' : Word.address word = addr :=
        UInt16.toNat_inj.mp ((Word.toNat_address word).trans haddr.symm)
      rw [hfamily] at hthree
      cases op <;> simp [ofWord?, hthree, AddressOp.family, hclear', hret', haddr']
  | byte op x nn =>
      obtain ⟨hfamily, hx, hnn⟩ := h
      have hx' : Word.digit word 2 = x := Fin.ext ((Word.val_digit_two word).trans hx.symm)
      have hnn' : Word.lowByte word = nn :=
        UInt8.toNat_inj.mp ((Word.toNat_lowByte word).trans hnn.symm)
      rw [hfamily] at hthree
      cases op <;> simp [ofWord?, hthree, ByteOp.family, hx', hnn']
  | pair op x y =>
      obtain ⟨hfamily, hx, hy, htail⟩ := h
      have hx' : Word.digit word 2 = x := Fin.ext ((Word.val_digit_two word).trans hx.symm)
      have hy' : Word.digit word 1 = y := Fin.ext ((Word.val_digit_one word).trans hy.symm)
      have hzero := (Word.val_digit_zero word).trans htail
      rw [hfamily] at hthree
      cases op <;>
        simp [ofWord?, ofArithmetic?, hthree, hzero, PairOp.family, PairOp.tail, hx', hy']
  | register op x =>
      obtain ⟨hfamily, hx, htail⟩ := h
      have hx' : Word.digit word 2 = x := Fin.ext ((Word.val_digit_two word).trans hx.symm)
      have hzero := Word.val_digit_zero word
      have hlow := Word.toNat_lowByte word
      rw [hfamily] at hthree
      cases op <;>
        simp_all [ofWord?, ofArithmetic?, ofKeySkip?, ofTransfer?, RegisterOp.family,
          RegisterOp.tail, RegisterOp.isShift]
  | draw x y n =>
      obtain ⟨hfamily, hx, hy, hn⟩ := h
      have hx' : Word.digit word 2 = x := Fin.ext ((Word.val_digit_two word).trans hx.symm)
      have hy' : Word.digit word 1 = y := Fin.ext ((Word.val_digit_one word).trans hy.symm)
      have hn' : UInt8.ofNat (word.toNat % 16) = n := by
        rw [← hn, UInt8.ofNat_toNat]
      rw [hfamily] at hthree
      simp [ofWord?, hthree, hx', hy', hn']

/-- The decoder goes by what is written and by nothing else. -/
theorem ofWord?_eq_some_iff :
    ofWord? word = some i ↔ IsWritten word i :=
  ⟨isWritten_of_ofWord?, ofWord?_of_isWritten⟩

theorem decode_eq_ok_iff :
    decode word = .ok i ↔ IsWritten word i := by
  rw [← ofWord?_eq_some_iff, decode]
  cases ofWord? word <;> simp

/-- What cannot be decoded is reported with the word as it is. -/
theorem eq_unrecognizedOpcode_of_decode
    {fault : Fault} (h : decode word = .error fault) :
    fault = .unrecognizedOpcode word := by
  rw [decode] at h
  split at h
  · cases h
  · exact (Except.error.inj h).symm

/-! ## Operands -/

/-- An operand has room in a word: a register or a number of rows takes one digit, and an address
takes three. -/
def OperandFits (name : String) (value : Nat) : Prop :=
  (name ∈ ["x", "y", "n"] → value ≤ 0xF) ∧ (name = "addr" → value ≤ 0xFFF)

/-- All operands of a recorded instruction have room in a word. -/
def Fits (i : Instruction UInt8) : Prop :=
  ∀ name value, (name, value) ∈ i.fields → OperandFits name value

theorem operand?_of_isWritten
    (h : IsWritten word i) {name : String} {value : Nat}
    (hfield : (name, value) ∈ i.recorded.fields) :
    Word.operand? word name = some value := by
  cases i with
  | clearScreen | ret => cases hfield
  | address op addr =>
      simp only [recorded, map, fields, List.mem_singleton, Prod.mk.injEq] at hfield
      obtain ⟨rfl, rfl⟩ := hfield
      exact congrArg some h.2.1.symm
  | byte op x nn =>
      simp only [recorded, map, fields, Machine.toNat_ofNat_register, List.mem_cons,
        List.not_mem_nil, or_false, Prod.mk.injEq] at hfield
      rcases hfield with ⟨rfl, rfl⟩ | ⟨rfl, rfl⟩
      · exact congrArg some h.2.1.symm
      · exact congrArg some h.2.2.symm
  | pair op x y =>
      simp only [recorded, map, fields, Machine.toNat_ofNat_register, List.mem_cons,
        List.not_mem_nil, or_false, Prod.mk.injEq] at hfield
      rcases hfield with ⟨rfl, rfl⟩ | ⟨rfl, rfl⟩
      · exact congrArg some h.2.1.symm
      · exact congrArg some h.2.2.1.symm
  | register op x =>
      simp only [recorded, map, fields, Machine.toNat_ofNat_register, List.mem_singleton,
        Prod.mk.injEq] at hfield
      obtain ⟨rfl, rfl⟩ := hfield
      exact congrArg some h.2.1.symm
  | draw x y n =>
      simp only [recorded, map, fields, Machine.toNat_ofNat_register, List.mem_cons,
        List.not_mem_nil, or_false, Prod.mk.injEq] at hfield
      rcases hfield with ⟨rfl, rfl⟩ | ⟨rfl, rfl⟩ | ⟨rfl, rfl⟩
      · exact congrArg some h.2.1.symm
      · exact congrArg some h.2.2.1.symm
      · exact congrArg some h.2.2.2.symm

theorem operandFits_of_operand?
    {name : String} {value : Nat} (h : Word.operand? word name = some value) :
    OperandFits name value := by
  unfold Word.operand? at h
  split at h
  case h_6 => cases h
  all_goals
    have hvalue := Option.some.inj h
    refine ⟨fun hname => ?_, fun hname => ?_⟩
    all_goals first | omega | exact absurd hname (by decide)

theorem fits_recorded
    (h : IsWritten word i) :
    i.recorded.Fits :=
  fun _ _ hfield => operandFits_of_operand? (operand?_of_isWritten h hfield)

/-! ## Every instruction with such operands -/

/-- A byte that fits in place of a register names one. -/
theorem Fits.exists_register
    {i : Instruction UInt8} (h : i.Fits) (name : String) {x : UInt8}
    (hfield : (name, x.toNat) ∈ i.fields) (hname : name ∈ ["x", "y", "n"]) :
    ∃ y : Register, UInt8.ofNat y.val = x :=
  ⟨⟨x.toNat, Nat.lt_succ_of_le ((h name x.toNat hfield).1 hname)⟩, UInt8.ofNat_toNat⟩

/-- An instruction whose operands fit is one of the machine's as it is recorded. -/
theorem Fits.exists_recorded
    {i : Instruction UInt8} (h : i.Fits) :
    ∃ j : Instruction Register, j.recorded = i := by
  cases i with
  | clearScreen => exact ⟨clearScreen, rfl⟩
  | ret => exact ⟨ret, rfl⟩
  | address op addr => exact ⟨address op addr, rfl⟩
  | byte op x nn =>
      obtain ⟨x, rfl⟩ := h.exists_register "x" (.head _) (by decide)
      exact ⟨byte op x nn, rfl⟩
  | pair op x y =>
      obtain ⟨x, rfl⟩ := h.exists_register "x" (.head _) (by decide)
      obtain ⟨y, rfl⟩ := h.exists_register "y" (.tail _ (.head _)) (by decide)
      exact ⟨pair op x y, rfl⟩
  | register op x =>
      obtain ⟨x, rfl⟩ := h.exists_register "x" (.head _) (by decide)
      exact ⟨register op x, rfl⟩
  | draw x y n =>
      obtain ⟨x, rfl⟩ := h.exists_register "x" (.head _) (by decide)
      obtain ⟨y, rfl⟩ := h.exists_register "y" (.tail _ (.head _)) (by decide)
      exact ⟨draw x y n, rfl⟩

theorem toNat_ofDigits
    {family x low : Nat} (hfamily : family < 16) (hx : x < 16) (hlow : low < 256) :
    (Word.ofDigits family x low).toNat = family * 4096 + x * 256 + low := by
  rw [Word.ofDigits, UInt16.toNat_ofNat']
  omega

theorem family_ne_zero_or_of_ne
    {op : AddressOp} {addr n : UInt16}
    (hne : (address op addr : Instruction Register) ≠ address .machineCall n) :
    op.family ≠ 0 ∨ addr.toNat ≠ n.toNat := by
  rcases Nat.eq_zero_or_pos op.family with hzero | hpos
  · have hop : op = .machineCall := by
      cases op <;> first | rfl | exact absurd hzero (by decide)
    exact .inr fun heq => hne (by rw [hop, UInt16.toNat_inj.mp heq])
  · exact .inl (Nat.ne_of_gt hpos)

/-- An instruction whose operands fit is written as the word made for it, unless it is one of the
two machine calls whose words stand for something else. -/
theorem isWritten_toWord
    {i : Instruction Register} (h : i.recorded.Fits)
    (hclear : i ≠ address .machineCall 0x0E0) (hret : i ≠ address .machineCall 0x0EE) :
    IsWritten i.toWord i := by
  cases i with
  | clearScreen => rfl
  | ret => rfl
  | address op addr =>
      have haddr : addr.toNat ≤ 0xFFF := (h "addr" addr.toNat (.head _)).2 rfl
      have hfamily : op.family < 16 := by cases op <;> decide
      have hword : (toWord (address op addr)).toNat = op.family * 4096 + addr.toNat := by
        rw [toWord, UInt16.toNat_ofNat']
        omega
      have hclear' : op.family ≠ 0 ∨ addr.toNat ≠ 0x0E0 := family_ne_zero_or_of_ne hclear
      have hret' : op.family ≠ 0 ∨ addr.toNat ≠ 0x0EE := family_ne_zero_or_of_ne hret
      refine ⟨?_, ?_, ?_, ?_⟩ <;> rw [hword] <;> omega
  | byte op x nn =>
      have hfamily : op.family < 16 := by cases op <;> decide
      have hnn := nn.toNat_lt
      have hword := toNat_ofDigits hfamily x.isLt nn.toNat_lt
      refine ⟨?_, ?_, ?_⟩ <;> rw [toWord, hword] <;> omega
  | pair op x y =>
      have hfacts : op.family < 16 ∧ op.tail < 16 := by cases op <;> decide
      have hlow : y.val * 16 + op.tail < 256 := by omega
      have hword := toNat_ofDigits hfacts.1 x.isLt hlow
      refine ⟨?_, ?_, ?_, ?_⟩ <;> rw [toWord, hword] <;> omega
  | register op x =>
      have hfacts : op.family < 16 ∧ op.tail < 256 ∧ (op.isShift = true → op.tail < 16) := by
        cases op <;> decide
      have hword := toNat_ofDigits hfacts.1 x.isLt hfacts.2.1
      refine ⟨?_, ?_, ?_⟩ <;> rw [toWord, hword]
      · omega
      · omega
      · split
        next hshift =>
          have htail := hfacts.2.2 hshift
          omega
        next => omega
  | draw x y n =>
      have hn : n.toNat ≤ 0xF := (h "n" n.toNat (.tail _ (.tail _ (.head _)))).1 (by decide)
      have hlow : y.val * 16 + n.toNat < 256 := by omega
      have hword := toNat_ofDigits (by decide : 0xD < 16) x.isLt hlow
      refine ⟨?_, ?_, ?_, ?_⟩ <;> rw [toWord, hword] <;> omega

/-- The words of clearing the screen and of returning are not taken for machine calls. -/
theorem recorded_ne_machineCall
    (h : IsWritten word i) {n : UInt16} (hn : n = 0x0E0 ∨ n = 0x0EE) :
    i.recorded ≠ address .machineCall n := by
  intro heq
  cases i with
  | address op addr =>
      obtain ⟨rfl, rfl⟩ := address.inj heq
      obtain ⟨hfamily, haddr, hclear, hret⟩ := h
      have hword : word.toNat = addr.toNat := by
        have hzero : word.toNat / 4096 = 0 := hfamily
        omega
      rcases hn with rfl | rfl
      · exact hclear hword
      · exact hret hword
  | _ => cases heq

/-- The words that are decoded, and what they are decoded to: every recorded instruction whose
operands fit, but for two machine calls. -/
theorem exists_decode_iff
    {i : Instruction UInt8} :
    (∃ word j, decode word = .ok j ∧ j.recorded = i) ↔
      i.Fits ∧ i ≠ address .machineCall 0x0E0 ∧ i ≠ address .machineCall 0x0EE := by
  constructor
  · rintro ⟨word, j, hdecode, rfl⟩
    rw [decode_eq_ok_iff] at hdecode
    exact ⟨fits_recorded hdecode, recorded_ne_machineCall hdecode (.inl rfl),
      recorded_ne_machineCall hdecode (.inr rfl)⟩
  · rintro ⟨hfits, hclear, hret⟩
    obtain ⟨j, rfl⟩ := hfits.exists_recorded
    refine ⟨j.toWord, j, decode_eq_ok_iff.mpr (isWritten_toWord hfits ?_ ?_), rfl⟩
    · rintro rfl
      exact hclear rfl
    · rintro rfl
      exact hret rfl

/-! ## Words for the same instruction -/

theorem isArithmetic_of_isWritten
    {op : RegisterOp} {x : Register} (hshift : op.isShift = true)
    (h : IsWritten word (register op x)) :
    Word.IsArithmetic word x op.tail := by
  obtain ⟨hfamily, hx, htail⟩ := h
  rw [if_pos hshift] at htail
  have height : op.family = 8 := by cases op <;> first | rfl | cases hshift
  refine ⟨Word.digit word 1, ?_⟩
  rw [Word.val_digit_one]
  omega

theorem isWritten_of_isArithmetic
    {op : RegisterOp} {x : Register} (hshift : op.isShift = true)
    (h : Word.IsArithmetic word x op.tail) :
    IsWritten word (register op x) := by
  obtain ⟨y, hword⟩ := h
  have hfacts : op.family = 8 ∧ op.tail < 16 := by
    cases op <;> first | decide | cases hshift
  refine ⟨by omega, by omega, ?_⟩
  rw [if_pos hshift]
  omega

/-- Two words for one instruction are the same word, unless the instruction is a shift. -/
theorem eq_or_isShift_of_isWritten
    {first second : UInt16} (hfirst : IsWritten first i) (hsecond : IsWritten second i) :
    first = second ∨ ∃ op x, i = register op x ∧ op.isShift = true := by
  have heq : first.toNat = second.toNat → first = second := UInt16.toNat_inj.mp
  cases i with
  | clearScreen | ret => exact .inl (heq (hfirst.trans hsecond.symm))
  | address op addr =>
      obtain ⟨hfamily, haddr, -⟩ := hfirst
      obtain ⟨hfamily', haddr', -⟩ := hsecond
      exact .inl (heq (by omega))
  | byte op x nn =>
      obtain ⟨hfamily, hx, hnn⟩ := hfirst
      obtain ⟨hfamily', hx', hnn'⟩ := hsecond
      exact .inl (heq (by omega))
  | pair op x y =>
      obtain ⟨hfamily, hx, hy, htail⟩ := hfirst
      obtain ⟨hfamily', hx', hy', htail'⟩ := hsecond
      exact .inl (heq (by omega))
  | register op x =>
      by_cases hshift : op.isShift = true
      · exact .inr ⟨op, x, rfl, hshift⟩
      · obtain ⟨hfamily, hx, htail⟩ := hfirst
        obtain ⟨hfamily', hx', htail'⟩ := hsecond
        rw [if_neg hshift] at htail htail'
        exact .inl (heq (by omega))
  | draw x y n =>
      obtain ⟨hfamily, hx, hy, hn⟩ := hfirst
      obtain ⟨hfamily', hx', hy', hn'⟩ := hsecond
      exact .inl (heq (by omega))

theorem exists_decode_both_iff
    {first second : UInt16} (hne : first ≠ second) :
    (∃ i, decode first = .ok i ∧ decode second = .ok i) ↔
      ∃ x : Register, ∃ tail ∈ [0x6, 0xE],
        Word.IsArithmetic first x tail ∧ Word.IsArithmetic second x tail := by
  simp only [decode_eq_ok_iff]
  constructor
  · rintro ⟨i, hfirst, hsecond⟩
    rcases eq_or_isShift_of_isWritten hfirst hsecond with heq | ⟨op, x, rfl, hshift⟩
    · exact absurd heq hne
    · have htail : op.tail ∈ [0x6, 0xE] := by
        cases op <;> first | decide | cases hshift
      exact ⟨x, op.tail, htail, isArithmetic_of_isWritten hshift hfirst,
        isArithmetic_of_isWritten hshift hsecond⟩
  · rintro ⟨x, tail, htail, hfirst, hsecond⟩
    obtain ⟨op, hshift, rfl⟩ : ∃ op : RegisterOp, op.isShift = true ∧ op.tail = tail := by
      rw [List.mem_cons, List.mem_singleton] at htail
      rcases htail with rfl | rfl
      · exact ⟨.shiftRight, rfl, rfl⟩
      · exact ⟨.shiftLeft, rfl, rfl⟩
    exact ⟨register op x, isWritten_of_isArithmetic hshift hfirst,
      isWritten_of_isArithmetic hshift hsecond⟩

/-- The decoder is exact and loses nothing but the digit that shifts ignore.  The operands of a
decoded instruction have room in a word and are the digits of its word, and a word that cannot be
decoded is reported as it is.  What comes out of the decoder are the recorded instructions whose
operands have room in a word, all of them but two machine calls, whose words clear the screen and
return.  Two different words stand for the same instruction just if both are shifts of the same
register in the same direction. -/
theorem decoder_is_exact :
    (∀ word i, decode word = .ok i → ∀ name value, (name, value) ∈ i.recorded.fields →
      OperandFits name value ∧ Word.operand? word name = some value) ∧
    (∀ word fault, decode word = .error fault → fault = .unrecognizedOpcode word) ∧
    (∀ i : Instruction UInt8,
      (∃ word j, decode word = .ok j ∧ j.recorded = i) ↔
        i.Fits ∧ i ≠ address .machineCall 0x0E0 ∧ i ≠ address .machineCall 0x0EE) ∧
    ∀ first second : UInt16, first ≠ second →
      ((∃ i, decode first = .ok i ∧ decode second = .ok i) ↔
        ∃ x : Register, ∃ tail ∈ [0x6, 0xE],
          Word.IsArithmetic first x tail ∧ Word.IsArithmetic second x tail) := by
  refine ⟨?_, fun _ _ => eq_unrecognizedOpcode_of_decode, fun _ => exists_decode_iff,
    fun _ _ => exists_decode_both_iff⟩
  intro word i hdecode name value hfield
  have hoperand := operand?_of_isWritten (decode_eq_ok_iff.mp hdecode) hfield
  exact ⟨operandFits_of_operand? hoperand, hoperand⟩

/-- Two words for the shift of a register to the left, the operands of a sprite's word, a word that
stands for nothing, and a machine call that no word stands for. -/
theorem decoder_on_shift_and_sprite :
    (∃ i, decode 0x8A3E = .ok i ∧ decode 0x8ACE = .ok i) ∧
      Word.operand? 0xD12F "n" = some 15 ∧ OperandFits "n" 15 ∧
      decode 0x8A38 = .error (.unrecognizedOpcode 0x8A38) ∧
      (∃ word j, decode word = .ok j ∧ j.recorded = draw 1 2 15) ∧
      ¬ ∃ word j, decode word = .ok j ∧ j.recorded = address .machineCall 0x0EE := by
  obtain ⟨hoperands, hunrecognized, himage, hsame⟩ := decoder_is_exact
  obtain ⟨hfits, hoperand⟩ := hoperands 0xD12F (draw 1 2 15) rfl "n" 15 (by decide)
  refine ⟨?_, hoperand, hfits, ?_, ?_, ?_⟩
  · rw [hsame 0x8A3E 0x8ACE (by decide)]
    exact ⟨0xA, 0xE, by decide, ⟨0x3, rfl⟩, ⟨0xC, rfl⟩⟩
  · obtain ⟨fault, hfault⟩ : ∃ fault, decode 0x8A38 = .error fault := ⟨_, rfl⟩
    rw [hfault, hunrecognized _ _ hfault]
  · exact ⟨0xD12F, draw 1 2 15, rfl, rfl⟩
  · rw [himage]
    exact fun h => h.2.2 rfl

end Instruction

end Chip8
