import Chip8.Fault

/-!
# Memory

Four kilobytes.  The first 512 bytes belong to the interpreter, which keeps there the glyphs of the
sixteen hexadecimal digits; programs are loaded behind them.
-/

namespace Chip8

abbrev Memory := Vector UInt8 4096

namespace Memory

def size : Nat := 4096

/-- Where programs are loaded and where they begin to run. -/
def programStart : Nat := 0x200

/-- The number of bytes that a program may have. -/
def programCapacity : Nat := size - programStart

def glyphStart : Nat := 0x050

/-- The number of bytes, and so of rows, of one glyph. -/
def glyphLength : Nat := 5

/-- The sprites of the hexadecimal digits, one after the other. -/
def glyphs : List UInt8 :=
  [0xF0, 0x90, 0x90, 0x90, 0xF0,
    0x20, 0x60, 0x20, 0x20, 0x70,
    0xF0, 0x10, 0xF0, 0x80, 0xF0,
    0xF0, 0x10, 0xF0, 0x10, 0xF0,
    0x90, 0x90, 0xF0, 0x10, 0x10,
    0xF0, 0x80, 0xF0, 0x10, 0xF0,
    0xF0, 0x80, 0xF0, 0x90, 0xF0,
    0xF0, 0x10, 0x20, 0x40, 0x40,
    0xF0, 0x90, 0xF0, 0x90, 0xF0,
    0xF0, 0x90, 0xF0, 0x10, 0xF0,
    0xF0, 0x90, 0xF0, 0x90, 0x90,
    0xE0, 0x90, 0xE0, 0x90, 0xE0,
    0xF0, 0x80, 0x80, 0x80, 0xF0,
    0xE0, 0x90, 0x90, 0x90, 0xE0,
    0xF0, 0x80, 0xF0, 0x80, 0xF0,
    0xF0, 0x80, 0xF0, 0x80, 0x80]

/-- The byte at an address; an address past the end reads as zero. -/
def byte (m : Memory) (addr : Nat) : UInt8 :=
  m[addr]?.getD 0

/-- The `length` bytes from `start` on. -/
def read (m : Memory) (start length : Nat) : List UInt8 :=
  (List.range length).map fun k => m.byte (start + k)

/-- Put bytes one after the other from `start` on; what would lie past the end is dropped. -/
def write (m : Memory) (start : Nat) : List UInt8 → Memory
  | [] => m
  | b :: bytes => write (m.setIfInBounds start b) (start + 1) bytes

/-- All of memory as it is before a program is loaded: the glyphs and otherwise zeros. -/
def initial : Memory :=
  write (Vector.replicate size 0) glyphStart glyphs

/-- Fail unless `length` bytes from `start` on lie in memory.  The fault names the first address
among them that does not; no bytes at all lie anywhere. -/
def checkRange (start length : Nat) : Except Fault Unit :=
  if 0 < length ∧ size < start + length then .error (.memoryOutOfBounds (max start size))
  else .ok ()

/-! ## Reading what was written -/

theorem byte_setIfInBounds
    (m : Memory) (addr other : Nat) (b : UInt8) :
    byte (m.setIfInBounds addr b) other =
      if addr = other ∧ other < size then b else m.byte other := by
  simp only [byte, size, Vector.getElem?_setIfInBounds]
  grind

/-- After a write the bytes written are where they were put, and every other byte is as before. -/
theorem byte_write
    (m : Memory) (start : Nat) (bytes : List UInt8) (addr : Nat) :
    (m.write start bytes).byte addr =
      if start ≤ addr ∧ addr < size then bytes[addr - start]?.getD (m.byte addr)
      else m.byte addr := by
  induction bytes generalizing m start with
  | nil => simp [write]
  | cons b bytes ih =>
    rw [write, ih, byte_setIfInBounds]
    by_cases hlt : start < addr
    · have hsub : addr - start = addr - (start + 1) + 1 := by omega
      have hne : start ≠ addr := by omega
      have hle : start + 1 ≤ addr := hlt
      simp [hsub, hne, hle, Nat.le_of_lt hlt]
    · by_cases heq : start = addr
      · subst heq
        have hnot : ¬ start + 1 ≤ start := by omega
        by_cases hsize : start < size <;> simp [hnot, hsize]
      · have hnot : ¬ start ≤ addr := by omega
        have hnot' : ¬ start + 1 ≤ addr := by omega
        simp [heq, hnot, hnot']

/-- Memories are told apart by their bytes. -/
theorem eq_of_byte_eq
    {m n : Memory} (h : ∀ addr, m.byte addr = n.byte addr) :
    m = n := by
  apply Vector.ext
  intro addr haddr
  have hbyte := h addr
  simpa [byte, haddr] using hbyte

/-- Before a program is loaded there are the glyphs and nothing else. -/
theorem byte_initial
    (addr : Nat) :
    initial.byte addr =
      if 0x050 ≤ addr ∧ addr < 0x0A0 then glyphs[addr - 0x050]?.getD 0 else 0 := by
  have hinitial : initial = write (Vector.replicate 4096 0) 0x050 glyphs := rfl
  have hzero : byte (Vector.replicate 4096 0) addr = 0 := by
    simp only [byte, Vector.getElem?_replicate]
    split <;> rfl
  have hlength : glyphs.length = 0x050 := rfl
  rw [hinitial, byte_write, hzero, size]
  by_cases haddr : 0x050 ≤ addr ∧ addr < 0x0A0
  · have hin : 0x050 ≤ addr ∧ addr < 4096 := by omega
    rw [if_pos haddr, if_pos hin]
  · rw [if_neg haddr]
    split
    next hin =>
      have hpast : glyphs.length ≤ addr - 0x050 := by omega
      rw [List.getElem?_eq_none hpast]
      rfl
    next => rfl

theorem length_read
    (m : Memory) (start length : Nat) :
    (m.read start length).length = length := by
  simp [read]

/-- A range is accepted exactly when it is empty or lies in memory as a whole. -/
theorem checkRange_eq_ok_iff
    {start length : Nat} :
    checkRange start length = .ok () ↔ length = 0 ∨ start + length ≤ size := by
  unfold checkRange
  split
  · simp
    omega
  · simp
    omega

end Memory

end Chip8
