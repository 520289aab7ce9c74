/-!
# The call stack

Sixteen places for return addresses and the number of them in use, counted from the first.  The
place that a return frees is set back to zero.
-/

namespace Chip8

/-- The return addresses of the subroutine calls that have not returned. -/
structure CallStack where
  cells : Vector UInt16 16
  depth : Fin 17
deriving DecidableEq

namespace CallStack

/-- No call to return from. -/
def empty : CallStack where
  cells := Vector.replicate 16 0
  depth := 0

/-- Put a return address on top, unless every place is in use. -/
def push? (s : CallStack) (addr : UInt16) : Option CallStack :=
  if h : s.depth.val < 16 then
    some
      { cells := s.cells.set s.depth.val addr
        depth := ⟨s.depth.val + 1, by omega⟩ }
  else none

/-- The return address on top and the stack below it, unless no place is in use. -/
def pop? (s : CallStack) : Option (UInt16 × CallStack) :=
  match s with
  | ⟨_, ⟨0, _⟩⟩ => none
  | ⟨cells, ⟨top + 1, h⟩⟩ =>
    some (cells[top],
      { cells := cells.set top 0
        depth := ⟨top, by omega⟩ })

/-! ## Pushing and popping -/

/-- A push fails exactly when every place is in use. -/
theorem push?_eq_none_iff
    {s : CallStack} {addr : UInt16} :
    s.push? addr = none ↔ s.depth = 16 := by
  unfold push?
  split <;> simp [Fin.ext_iff] <;> omega

/-- A pop fails exactly when no place is in use. -/
theorem pop?_eq_none_iff
    {s : CallStack} :
    s.pop? = none ↔ s.depth = 0 := by
  obtain ⟨cells, ⟨depth, h⟩⟩ := s
  cases depth <;> simp [pop?, Fin.ext_iff]

/-- A pop undoes a push, if the place that the push took held zero. -/
theorem pop?_of_push?
    {s t : CallStack} {addr : UInt16}
    (hpush : s.push? addr = some t)
    (hfree : s.cells[s.depth.val]? = some 0) :
    t.pop? = some (addr, s) := by
  unfold push? at hpush
  split at hpush
  next hlt =>
    cases hpush
    have hcell : s.cells[s.depth.val] = 0 := by
      simpa [Vector.getElem?_eq_getElem hlt] using hfree
    have hset : s.cells.set s.depth.val 0 hlt = s.cells := by
      rw [← hcell]
      exact Vector.set_getElem_self hlt
    simp [pop?, hset]
  next => simp at hpush

end CallStack

end Chip8
