import Chip8.CallStack

/-!
# The return addresses on the call stack

A call stack seen as the list of the return addresses in use, of which a push appends one and a pop
takes off the last.  The list is all there is to know of a stack whose free places hold zero, and
pushes and pops keep it so.
-/

namespace Chip8

namespace CallStack

/-- The return addresses in use, the latest last. -/
def calls (s : CallStack) : List UInt16 :=
  s.cells.toList.take s.depth.val

/-- The places that are not in use hold zero. -/
def Tidy (s : CallStack) : Prop :=
  ∀ (place : Nat) (h : place < 16), s.depth.val ≤ place → s.cells[place] = 0

variable {s t : CallStack} {addr : UInt16}

theorem length_calls (s : CallStack) : s.calls.length = s.depth.val := by
  have hdepth : s.depth.val ≤ 16 := Nat.le_of_lt_succ s.depth.isLt
  rw [calls, List.length_take, Vector.length_toList, Nat.min_eq_left hdepth]

theorem calls_getElem?
    (s : CallStack) {place : Nat} (hplace : place < 16) (hused : place < s.depth.val) :
    s.calls[place]? = some s.cells[place] := by
  rw [calls, List.getElem?_take_of_lt hused]
  simp [hplace]

/-- A tidy stack is determined by the return addresses in use. -/
theorem Tidy.eq_of_calls_eq
    (hs : s.Tidy) (ht : t.Tidy) (hcalls : s.calls = t.calls) :
    s = t := by
  have hdepth : s.depth.val = t.depth.val := by
    rw [← length_calls, ← length_calls, hcalls]
  have hcells : s.cells = t.cells := by
    ext place hplace
    by_cases hused : place < s.depth.val
    · have hs' := s.calls_getElem? hplace hused
      have ht' := t.calls_getElem? hplace (hdepth ▸ hused)
      rw [hcalls, ht'] at hs'
      rw [Option.some.inj hs']
    · have hfree : s.depth.val ≤ place := Nat.le_of_not_lt hused
      rw [hs place hplace hfree, ht place hplace (hdepth ▸ hfree)]
  obtain ⟨cells, depth⟩ := s
  obtain ⟨cells', depth'⟩ := t
  rw [mk.injEq]
  exact ⟨hcells, Fin.ext hdepth⟩

/-! ## Pushing and popping -/

theorem calls_of_push?
    (hpush : s.push? addr = some t) :
    t.calls = s.calls ++ [addr] := by
  unfold push? at hpush
  split at hpush
  next hdepth =>
    cases hpush
    have hlength : s.depth.val < s.cells.toList.length := by
      rw [Vector.length_toList]
      exact hdepth
    simp only [calls, Vector.toList_set]
    rw [List.take_add_one, List.take_set_of_le (Nat.le_refl _), List.getElem?_set_self hlength]
    rfl
  next => cases hpush

theorem calls_of_pop?
    (hpop : s.pop? = some (addr, t)) :
    s.calls = t.calls ++ [addr] := by
  obtain ⟨cells, ⟨depth, hdepth⟩⟩ := s
  cases depth with
  | zero => cases hpop
  | succ top =>
      cases hpop
      have hlength : top < cells.toList.length := by
        rw [Vector.length_toList]
        omega
      simp only [calls, Vector.toList_set]
      rw [List.take_add_one, List.take_set_of_le (Nat.le_refl _), List.getElem?_eq_getElem hlength]
      rfl

theorem Tidy.push
    (hs : s.Tidy) (hpush : s.push? addr = some t) :
    t.Tidy := by
  unfold push? at hpush
  split at hpush
  next hdepth =>
    cases hpush
    intro place hplace hfree
    have hlt : s.depth.val < place := hfree
    rw [Vector.getElem_set_ne _ _ (Nat.ne_of_lt hlt)]
    exact hs place hplace (Nat.le_of_lt hlt)
  next => cases hpush

theorem Tidy.pop
    (hs : s.Tidy) (hpop : s.pop? = some (addr, t)) :
    t.Tidy := by
  obtain ⟨cells, ⟨depth, hdepth⟩⟩ := s
  cases depth with
  | zero => cases hpop
  | succ top =>
      cases hpop
      intro place hplace hfree
      by_cases heq : top = place
      · simp [heq]
      · rw [Vector.getElem_set_ne _ _ heq]
        exact hs place hplace (Nat.lt_of_le_of_ne hfree heq)

/-! ## Inside a call -/

/-- The stack inside a call that was made on the stack `base` and is to return to `addr`, at any
depth of further calls. -/
structure Inside (base : CallStack) (addr : UInt16) (s : CallStack) : Prop where
  tidy : s.Tidy
  calls : base.calls ++ [addr] <+: s.calls

variable {base : CallStack} {other : UInt16}

theorem Inside.depth_lt
    (h : base.Inside addr s) :
    base.depth < s.depth := by
  have hlength := h.calls.length_le
  rw [List.length_append, length_calls, length_calls, List.length_singleton] at hlength
  exact hlength

theorem inside_of_push?
    (hbase : base.Tidy) (hpush : base.push? addr = some s) :
    base.Inside addr s where
  tidy := hbase.push hpush
  calls := (calls_of_push? hpush).symm ▸ List.prefix_refl _

theorem Inside.push
    (h : base.Inside addr s) (hpush : s.push? other = some t) :
    base.Inside addr t where
  tidy := h.tidy.push hpush
  calls := by
    rw [calls_of_push? hpush]
    exact h.calls.trans (List.prefix_append _ _)

/-- A return from inside a call stays inside it or is the one that ends it. -/
theorem Inside.pop
    (h : base.Inside addr s) (hbase : base.Tidy) (hpop : s.pop? = some (other, t)) :
    base.Inside addr t ∨ (other = addr ∧ t = base) := by
  have ht := h.tidy.pop hpop
  have hcalls := h.calls
  rw [calls_of_pop? hpop, List.prefix_concat_iff] at hcalls
  rcases hcalls with heq | hprefix
  · obtain ⟨hrest, haddr⟩ := List.append_inj' heq rfl
    exact .inr ⟨(List.singleton_inj.mp haddr).symm, ht.eq_of_calls_eq hbase hrest.symm⟩
  · exact .inl ⟨ht, hprefix⟩

end CallStack

end Chip8
