import Chip8.Proofs.Decoding

/-!
# The names of the instructions

An instruction is recorded under the name of its operation, with the names of its operands.  The
operations carry their names themselves, kind by kind.  Here all names stand in one table beside the
digits by which the words of each instruction are known, and the table is shown to agree with the
decoder: it has a row for a word if the word can be decoded, and the row names what is recorded.
-/

namespace Chip8

/-- The words of one instruction, known by their first digit and some of their last ones, and the
names under which the instruction and its operands are recorded. -/
structure InstructionRow where
  family : Nat
  /-- How many of the last digits are given. -/
  given : Nat
  tail : Nat
  name : String
  operands : List String

namespace InstructionRow

def fits (row : InstructionRow) (word : UInt16) : Bool :=
  word.toNat / 4096 = row.family ∧ word.toNat % Nat.pow 16 row.given = row.tail

/-- All instructions.  The two of family 0 with digits of their own stand before the one that has
the rest of the family. -/
def table : List InstructionRow :=
  [⟨0x0, 3, 0x0E0, "DispClear", []⟩,
    ⟨0x0, 3, 0x0EE, "Return", []⟩,
    ⟨0x0, 0, 0x0, "CallRca", ["addr"]⟩,
    ⟨0x1, 0, 0x0, "Goto", ["addr"]⟩,
    ⟨0x2, 0, 0x0, "CallSub", ["addr"]⟩,
    ⟨0x3, 0, 0x0, "CondVxEq", ["x", "nn"]⟩,
    ⟨0x4, 0, 0x0, "CondVxNe", ["x", "nn"]⟩,
    ⟨0x5, 1, 0x0, "CondVxVyEq", ["x", "y"]⟩,
    ⟨0x6, 0, 0x0, "ConstSetVx", ["x", "nn"]⟩,
    ⟨0x7, 0, 0x0, "ConstAddVx", ["x", "nn"]⟩,
    ⟨0x8, 1, 0x0, "Assign", ["x", "y"]⟩,
    ⟨0x8, 1, 0x1, "BitOr", ["x", "y"]⟩,
    ⟨0x8, 1, 0x2, "BitAnd", ["x", "y"]⟩,
    ⟨0x8, 1, 0x3, "BitXor", ["x", "y"]⟩,
    ⟨0x8, 1, 0x4, "Add", ["x", "y"]⟩,
    ⟨0x8, 1, 0x5, "Sub", ["x", "y"]⟩,
    ⟨0x8, 1, 0x6, "ShiftRight", ["x"]⟩,
    ⟨0x8, 1, 0x7, "SubN", ["x", "y"]⟩,
    ⟨0x8, 1, 0xE, "ShiftLeft", ["x"]⟩,
    ⟨0x9, 1, 0x0, "CondVxVyNe", ["x", "y"]⟩,
    ⟨0xA, 0, 0x0, "SetI", ["addr"]⟩,
    ⟨0xB, 0, 0x0, "GotoPlusV0", ["addr"]⟩,
    ⟨0xC, 0, 0x0, "Rand", ["x", "nn"]⟩,
    ⟨0xD, 0, 0x0, "Draw", ["x", "y", "n"]⟩,
    ⟨0xE, 2, 0x9E, "SkipKeyDown", ["x"]⟩,
    ⟨0xE, 2, 0xA1, "SkipKeyUp", ["x"]⟩,
    ⟨0xF, 2, 0x07, "DelayGet", ["x"]⟩,
    ⟨0xF, 2, 0x0A, "WaitKey", ["x"]⟩,
    ⟨0xF, 2, 0x15, "DelaySet", ["x"]⟩,
    ⟨0xF, 2, 0x18, "SoundSet", ["x"]⟩,
    ⟨0xF, 2, 0x1E, "AddI", ["x"]⟩,
    ⟨0xF, 2, 0x29, "FontChar", ["x"]⟩,
    ⟨0xF, 2, 0x33, "Bcd", ["x"]⟩,
    ⟨0xF, 2, 0x55, "RegDump", ["x"]⟩,
    ⟨0xF, 2, 0x65, "RegLoad", ["x"]⟩]

/-- The first row that fits. -/
def ofWord? (word : UInt16) : Option InstructionRow :=
  table.find? (·.fits word)

def headings (row : InstructionRow) : String × List String :=
  (row.name, row.operands)

end InstructionRow

namespace Instruction

/-- The names that are recorded of an instruction. -/
def headings (i : Instruction UInt8) : String × List String :=
  (i.name, i.fields.map Prod.fst)

/-- The names that are recorded of what a word has been decoded to, if it has been. -/
def headings? (decoded : Option (Instruction Register)) : Option (String × List String) :=
  decoded.map fun i => i.recorded.headings

variable {word : UInt16}

/-! ## The families of several instructions -/

theorem headings?_ofArithmetic?
    (x y : Register) (hfamily : word.toNat / 4096 = 0x8) :
    headings? (ofArithmetic? x y (word.toNat % 16)) =
      (InstructionRow.ofWord? word).map InstructionRow.headings := by
  unfold ofArithmetic?
  split
  all_goals
    simp_all [InstructionRow.ofWord?, InstructionRow.table, InstructionRow.fits]
    rfl

theorem headings?_ofKeySkip?
    (x : Register) (hfamily : word.toNat / 4096 = 0xE) :
    headings? (ofKeySkip? x (word.toNat % 256)) =
      (InstructionRow.ofWord? word).map InstructionRow.headings := by
  unfold ofKeySkip?
  split
  all_goals
    simp_all [InstructionRow.ofWord?, InstructionRow.table, InstructionRow.fits]
    rfl

theorem headings?_ofTransfer?
    (x : Register) (hfamily : word.toNat / 4096 = 0xF) :
    headings? (ofTransfer? x (word.toNat % 256)) =
      (InstructionRow.ofWord? word).map InstructionRow.headings := by
  unfold ofTransfer?
  split
  all_goals
    simp_all [InstructionRow.ofWord?, InstructionRow.table, InstructionRow.fits]
    rfl

/-- Of the words with first digit zero two are known by all of their digits. -/
theorem headings?_of_family_zero
    (hfamily : word.toNat / 4096 = 0x0) :
    headings?
        (if word = 0x00E0 then some clearScreen
        else if word = 0x00EE then some ret
        else some (address .machineCall (Word.address word))) =
      (InstructionRow.ofWord? word).map InstructionRow.headings := by
  have hclear : word = 0x00E0 ↔ word.toNat % 4096 = 0x0E0 := by
    rw [← UInt16.toNat_inj]
    change word.toNat = 0x00E0 ↔ _
    omega
  have hret : word = 0x00EE ↔ word.toNat % 4096 = 0x0EE := by
    rw [← UInt16.toNat_inj]
    change word.toNat = 0x00EE ↔ _
    omega
  simp only [hclear, hret]
  split
  next htail =>
    simp [InstructionRow.ofWord?, InstructionRow.table, InstructionRow.fits, hfamily, htail]
    rfl
  next htail =>
    split
    next htail' =>
      simp [InstructionRow.ofWord?, InstructionRow.table, InstructionRow.fits, hfamily, htail']
      rfl
    next htail' =>
      simp [InstructionRow.ofWord?, InstructionRow.table, InstructionRow.fits, hfamily, htail,
        htail', Nat.mod_one]
      rfl

/-! ## All words -/

/-- The decoder and the table agree on every word: a word has a row if it can be decoded, and what
is recorded of the instruction goes by the names in its row. -/
theorem headings_of_ofWord?
    (word : UInt16) :
    headings? (ofWord? word) = (InstructionRow.ofWord? word).map InstructionRow.headings := by
  have hword : word.toNat < 65536 := word.toNat_lt
  dsimp only [ofWord?]
  rw [Word.val_digit_zero, Word.toNat_lowByte]
  split
  case h_1 hfamily =>
      rw [Word.val_digit_three] at hfamily
      exact headings?_of_family_zero hfamily
  case h_9 hfamily =>
      rw [Word.val_digit_three] at hfamily
      exact headings?_ofArithmetic? _ _ hfamily
  case h_15 hfamily =>
      rw [Word.val_digit_three] at hfamily
      exact headings?_ofKeySkip? _ hfamily
  case h_16 =>
      simp only [Word.val_digit_three, imp_false] at *
      apply headings?_ofTransfer?
      omega
  case h_6 hfamily | h_10 hfamily =>
      rw [Word.val_digit_three] at hfamily
      split
      all_goals
        next htail =>
          simp [InstructionRow.ofWord?, InstructionRow.table, InstructionRow.fits, hfamily, htail]
          rfl
  all_goals
    rename_i hfamily
    rw [Word.val_digit_three] at hfamily
    simp [InstructionRow.ofWord?, InstructionRow.table, InstructionRow.fits, hfamily, Nat.mod_one]
    rfl

end Instruction

end Chip8
