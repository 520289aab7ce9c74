import Chip8.Proofs.History
import Mathlib.Data.List.Induction

/-!
# Programs loaded one after the other

A host may load a program over another one without a reset in between.  A program that does not fit
is refused and leaves everything as it is.  One that fits is written over the programs before it as
far as it goes, so that the end of a longer one stays in place behind it.  `Memory.lastLoaded?`
tells from the programs alone which byte of which of them is found at a place, and it follows the
loads one by one.
-/

namespace Chip8

namespace Memory

/-- What is at a place behind the start of programs once some programs have been loaded one after
the other: the byte that the last of them has there that fits into memory and reaches so far. -/
def lastLoaded? (programs : List (List UInt8)) (place : Nat) : Option UInt8 :=
  let reaching := programs.filter fun program => program.length ≤ 3584 ∧ place < program.length
  reaching.getLast?.bind (·[place]?)

variable {programs : List (List UInt8)} {program : List UInt8} {place : Nat}

theorem lastLoaded?_concat_of_reaches
    (hfits : program.length ≤ 3584) (hplace : place < program.length) :
    lastLoaded? (programs ++ [program]) place = some program[place] := by
  simp [lastLoaded?, hfits, hplace]

theorem lastLoaded?_concat_of_not_reaches
    (hnot : ¬ (program.length ≤ 3584 ∧ place < program.length)) :
    lastLoaded? (programs ++ [program]) place = lastLoaded? programs place := by
  simp [lastLoaded?, hnot]

end Memory

open Memory

namespace Machine

variable {program : List UInt8}

/-! ## One load -/

/-- A program that is too long is refused, and the machine stays as it is. -/
theorem perform_load_of_tooLong
    (m : Machine) (h : 3584 < program.length) :
    m.perform (.load program) = ⟨.failed (.loadCapacity program.length 3584), m, []⟩ := by
  rw [perform, m.load_of_tooLong h]
  rfl

/-- A program that fits is written to memory, and nothing else is touched. -/
theorem perform_load_of_fits
    (m : Machine) (h : program.length ≤ 3584) :
    m.perform (.load program) =
      ⟨.done, { m with memory := m.memory.write 0x200 program },
        [.note (.loaded program.length)]⟩ := by
  rw [perform, m.load_of_fits h]
  rfl

/-- What a host is told when it loads a program. -/
theorem perform_load_answer
    (m : Machine) (program : List UInt8) :
    (m.perform (.load program)).answer =
      if 3584 < program.length then .failed (.loadCapacity program.length 3584) else .done := by
  split
  next h => rw [m.perform_load_of_tooLong h]
  next h => rw [m.perform_load_of_fits (Nat.le_of_not_lt h)]

/-- A load touches nothing but memory. -/
theorem perform_load_machine
    (m : Machine) (program : List UInt8) :
    (m.perform (.load program)).machine =
      { m with memory := (m.perform (.load program)).machine.memory } := by
  rcases Nat.lt_or_ge 3584 program.length with h | h
  · rw [m.perform_load_of_tooLong h]
  · rw [m.perform_load_of_fits h]

/-- A load leaves every byte as it was that is not reached by a program that fits. -/
theorem byte_perform_load_of_not_reaches
    (m : Machine) {addr : Nat}
    (hnot : ¬ (program.length ≤ 3584 ∧ 0x200 ≤ addr ∧ addr < 0x200 + program.length)) :
    (m.perform (.load program)).machine.memory.byte addr = m.memory.byte addr := by
  rcases Nat.lt_or_ge 3584 program.length with h | h
  · rw [m.perform_load_of_tooLong h]
  · rw [m.perform_load_of_fits h]
    refine (byte_write ..).trans ?_
    split
    next hin =>
      have hpast : program.length ≤ addr - 0x200 := by omega
      rw [List.getElem?_eq_none hpast]
      rfl
    next => rfl

/-- The bytes of a program that fits are found one after the other. -/
theorem byte_perform_load_of_reaches
    (m : Machine) (hfits : program.length ≤ 3584) {place : Nat} (hplace : place < program.length) :
    (m.perform (.load program)).machine.memory.byte (0x200 + place) = program[place] := by
  have hin : 0x200 ≤ 0x200 + place ∧ 0x200 + place < size := by
    simp only [size]
    omega
  rw [m.perform_load_of_fits hfits]
  refine (byte_write ..).trans ?_
  rw [if_pos hin, Nat.add_sub_cancel_left, List.getElem?_eq_getElem hplace]
  rfl

/-! ## One load after the other -/

theorem performAll_load_answer
    (m : Machine) (programs : List (List UInt8)) :
    (m.performAll (programs.map .load)).answer =
      programs.map fun program =>
        if 3584 < program.length then .failed (.loadCapacity program.length 3584) else .done := by
  induction programs generalizing m with
  | nil => rfl
  | cons program programs ih =>
      rw [List.map_cons, performAll_cons, List.map_cons, ih, perform_load_answer]

theorem performAll_load_machine
    (m : Machine) (programs : List (List UInt8)) :
    (m.performAll (programs.map .load)).machine =
      { m with memory := (m.performAll (programs.map .load)).machine.memory } := by
  induction programs generalizing m with
  | nil => rfl
  | cons program programs ih =>
      rw [List.map_cons, performAll_cons]
      refine (ih _).trans ?_
      rw [perform_load_machine]

theorem performAll_load_concat
    (m : Machine) (programs : List (List UInt8)) (program : List UInt8) :
    (m.performAll ((programs ++ [program]).map .load)).machine =
      ((m.performAll (programs.map .load)).machine.perform (.load program)).machine := by
  rw [List.map_append, performAll_append]
  rfl

/-- The last program that fits and reaches a place decides what is found there, and if there is
none, the place is as it was. -/
theorem byte_performAll_load
    (m : Machine) (programs : List (List UInt8)) (place : Nat) :
    (m.performAll (programs.map .load)).machine.memory.byte (0x200 + place) =
      (lastLoaded? programs place).getD (m.memory.byte (0x200 + place)) := by
  induction programs using List.reverseRecOn with
  | nil => rfl
  | append_singleton programs program ih =>
      rw [performAll_load_concat]
      by_cases h : program.length ≤ 3584 ∧ place < program.length
      · rw [byte_perform_load_of_reaches _ h.1 h.2, lastLoaded?_concat_of_reaches h.1 h.2]
        rfl
      · rw [byte_perform_load_of_not_reaches _ (by omega), lastLoaded?_concat_of_not_reaches h, ih]

/-- What belongs to the interpreter is not touched. -/
theorem byte_performAll_load_of_lt
    (m : Machine) (programs : List (List UInt8)) {addr : Nat} (haddr : addr < 0x200) :
    (m.performAll (programs.map .load)).machine.memory.byte addr = m.memory.byte addr := by
  induction programs using List.reverseRecOn with
  | nil => rfl
  | append_singleton programs program ih =>
      rw [performAll_load_concat, byte_perform_load_of_not_reaches _ (by omega), ih]

end Machine

namespace Emulator

theorem perform_load_of_tooLong
    (e : Emulator) {program : List UInt8} (h : 3584 < program.length) :
    e.perform (.load program) = (⟨.failed (.loadCapacity program.length 3584), [], []⟩, e) := by
  have hheard : e.heard [] = [] := by
    unfold heard
    split <;> rfl
  have hkept : e.kept [] = [] := by
    unfold kept
    split <;> rfl
  rw [perform, e.machine.perform_load_of_tooLong h, deliver, hheard, hkept]

/-- An emulator that begins with an image read from storage is a new emulator to which the image was
loaded, unless the image is refused. -/
theorem ofImage_ok
    (random : Random.Stream) (program : List UInt8) :
    let loaded := (powerOn random none).2.perform (.load program)
    ofImage random (.ok program) =
      match loaded.1.answer with
      | .failed fault => .error fault
      | _ => .ok loaded.2 := by
  intro loaded
  have himage : ofImage random (.ok program) =
      (Machine.powerOn random).load program >>= fun effect =>
        .ok ⟨effect.machine, none, none⟩ :=
    rfl
  rcases Nat.lt_or_ge 3584 program.length with h | h
  · have hloaded : loaded = _ := perform_load_of_tooLong _ h
    rw [himage, Machine.load_of_tooLong _ h, hloaded]
    rfl
  · have hloaded : loaded = deliver _ _ := congrArg (deliver _) (Machine.perform_load_of_fits _ h)
    rw [himage, Machine.load_of_fits _ h, hloaded]
    rfl

/-- Programs that are loaded in turn lie over each other.  Exactly the programs that are longer than
the room for them are refused, and a refusal changes nothing and is heard and logged by nobody.  At
the end every byte from 0x200 on is the one that the last accepted program which is long enough has
there, or as it was before if there is no such program; the interpreter's own bytes and everything
but memory are as they were.  An emulator that begins with an image read from storage is a new
emulator to which the image was loaded. -/
theorem programs_lie_over_each_other
    (e : Emulator) (programs : List (List UInt8)) :
    let loaded := e.performAll (programs.map .load)
    (loaded.1.answer =
      programs.map fun program =>
        if 3584 < program.length then .failed (.loadCapacity program.length 3584) else .done) ∧
    (∀ program : List UInt8, 3584 < program.length →
      e.perform (.load program) = (⟨.failed (.loadCapacity program.length 3584), [], []⟩, e)) ∧
    (∀ place < 3584,
      loaded.2.machine.memory.byte (0x200 + place) =
        (lastLoaded? programs place).getD (e.machine.memory.byte (0x200 + place))) ∧
    (∀ addr < 0x200, loaded.2.machine.memory.byte addr = e.machine.memory.byte addr) ∧
    loaded.2 =
      { e with machine := { e.machine with memory := loaded.2.machine.memory } } ∧
    ∀ (random : Random.Stream) (program : List UInt8),
      let new := (powerOn random none).2.perform (.load program)
      ofImage random (.ok program) =
        match new.1.answer with
        | .failed fault => .error fault
        | _ => .ok new.2 := by
  intro loaded
  refine ⟨e.machine.performAll_load_answer programs, fun _ => e.perform_load_of_tooLong,
    fun place _ => e.machine.byte_performAll_load programs place,
    fun _ => e.machine.byte_performAll_load_of_lt programs, ?_, ofImage_ok⟩
  exact congrArg (fun m => { e with machine := m }) (e.machine.performAll_load_machine programs)

/-- One byte is loaded over three, and in between comes a program that is too long by one byte. -/
theorem byte_loaded_over_three :
    let e := (powerOn (Random.Stream.ofSeed 0) none).2
    let loaded := e.performAll ([[1, 2, 3], List.replicate 3585 7, [9]].map .load)
    loaded.1.answer = [.done, .failed (.loadCapacity 3585 3584), .done] ∧
      (e.perform (.load (List.replicate 3585 7))).2 = e ∧
      loaded.2.machine.memory.byte 0x200 = 9 ∧ loaded.2.machine.memory.byte 0x202 = 3 ∧
      loaded.2.machine.memory.byte 0x203 = 0 ∧ loaded.2.machine.memory.byte 0x050 = 0xF0 ∧
      loaded.2.machine.pc = 0x200 := by
  intro e loaded
  obtain ⟨hanswer, hrefused, hbytes, hbelow, hrest, -⟩ :=
    e.programs_lie_over_each_other [[1, 2, 3], List.replicate 3585 7, [9]]
  have hlong : 3584 < (List.replicate 3585 (7 : UInt8)).length := by
    rw [List.length_replicate]
    decide
  have hlast : lastLoaded? [[1, 2, 3], List.replicate 3585 7, [9]] 0 = some 9 ∧
      lastLoaded? [[1, 2, 3], List.replicate 3585 7, [9]] 2 = some 3 ∧
      lastLoaded? [[1, 2, 3], List.replicate 3585 7, [9]] 3 = none := by
    decide +kernel
  refine ⟨?_, ?_, ?_, ?_, ?_, ?_, ?_⟩
  · rw [hanswer, List.map_cons, List.map_cons, if_pos hlong, List.length_replicate]
    rfl
  · rw [hrefused _ hlong]
  · refine (hbytes 0 (by decide)).trans ?_
    rw [hlast.1]
    rfl
  · refine (hbytes 2 (by decide)).trans ?_
    rw [hlast.2.1]
    rfl
  · refine (hbytes 3 (by decide)).trans ?_
    rw [hlast.2.2]
    decide +kernel
  · refine (hbelow 0x050 (by decide)).trans ?_
    decide +kernel
  · rw [hrest]
    rfl

end Emulator

end Chip8
