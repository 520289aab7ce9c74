import Chip8.Proofs.Cycles
import Chip8.Proofs.Footprint

/-!
# From the image to the instructions

A program is a list of words, and its image is the list of their bytes.  When no word of it jumps,
skips, waits or writes to memory, the cycles go through the words in their order: what a machine
that was given the image has come to after a number of cycles is what `Machine.obey` makes of as
many words, one after the other.  Each word finds the image as it was loaded and leaves the program
counter at the next word, and by this the next cycle fetches the next word.
-/

namespace Chip8

namespace Word

def highByte (word : UInt16) : UInt8 :=
  UInt8.ofNat (word.toNat / 256)

/-- The bytes of some words one after the other, the high byte of each word first. -/
def image (words : List UInt16) : List UInt8 :=
  words.flatMap fun word => [highByte word, lowByte word]

theorem ofNat_highByte_lowByte
    (word : UInt16) :
    UInt16.ofNat ((highByte word).toNat * 256 + (lowByte word).toNat) = word := by
  have hlt : word.toNat < 65536 := word.toNat_lt
  have hsum : (highByte word).toNat * 256 + (lowByte word).toNat = word.toNat := by
    rw [highByte, lowByte, UInt8.toNat_ofNat', UInt8.toNat_ofNat']
    omega
  rw [hsum, UInt16.ofNat_toNat]

theorem image_cons
    (word : UInt16) (words : List UInt16) :
    image (word :: words) = highByte word :: lowByte word :: image words :=
  rfl

theorem length_image
    (words : List UInt16) :
    (image words).length = 2 * words.length := by
  induction words with
  | nil => rfl
  | cons word words ih =>
      rw [image_cons, List.length_cons, List.length_cons, ih, List.length_cons, Nat.mul_succ]

/-- The bytes of the word at position `k` are at the positions `2 * k` and `2 * k + 1`. -/
theorem image_getElem?
    {words : List UInt16} {k : Nat} {word : UInt16} (h : words[k]? = some word) :
    (image words)[2 * k]? = some (highByte word) ∧
      (image words)[2 * k + 1]? = some (lowByte word) := by
  induction words generalizing k with
  | nil => cases h
  | cons first words ih =>
      rw [image_cons]
      cases k with
      | zero =>
          cases h
          exact ⟨rfl, rfl⟩
      | succ k => exact ih h

end Word

namespace Instruction

variable {R : Type}

/-- The instructions that read a piece of memory. -/
def readsMemory : Instruction R → Bool
  | draw .. => true
  | register .fetch _ => true
  | _ => false

/-- The instructions that go on to the next one and leave the program in memory as it is. -/
def isStraight (i : Instruction R) : Bool :=
  !(i.steers || i.skips || i.writesMemory)

theorem isStraight_iff
    {i : Instruction R} :
    i.isStraight = true ↔ i.steers = false ∧ i.skips = false ∧ i.writesMemory = false := by
  simp only [isStraight, Bool.not_eq_true', Bool.or_eq_false_iff, and_assoc]

end Instruction

namespace Machine

/-- What a word makes of the machine when it is its turn: an instruction is carried out, and a word
that is none is counted and passed over; then both timers count down. -/
def obey (m : Machine) (word : UInt16) : Except Fault Machine :=
  match Instruction.ofWord? word with
  | some i => (m.execute i).map fun e => e.machine.tick.machine
  | none => .ok { m.advance with unrecognized := m.unrecognized + 1 }.tick.machine

/-- The machine `m`, to which `k` cycles have led from `start`, has obeyed the first `k` of the
words whose image was loaded. -/
structure Obeyed (start : Machine) (words : List UInt16) (k : Nat) (m : Machine) : Prop where
  answers : start.cycleAnswers k = (words.take k).map fun word => .ok (Instruction.ofWord? word)
  mode : m.mode = .running
  pc : m.pc.toNat = 0x200 + 2 * k
  memory : m.memory = Memory.initial.write 0x200 (Word.image words)
  unrecognized : m.unrecognized =
    (words.take k).countP fun word => (Instruction.ofWord? word).isNone
  folded : (words.take k).foldlM obey start = .ok m

/-- The next cycle of `m` obeys a word, and the program stays where it is and goes on behind the
word. -/
structure CycleObeys (m : Machine) (word : UInt16) : Prop where
  answer : m.cycle.answer = .ok (Instruction.ofWord? word)
  machine : m.obey word = .ok m.cycle.machine
  mode : m.cycle.machine.mode = .running
  pc : m.cycle.machine.pc = m.pc + 2
  memory : m.cycle.machine.memory = m.memory
  unrecognized : m.cycle.machine.unrecognized =
    m.unrecognized + if (Instruction.ofWord? word).isNone then 1 else 0

variable {m start : Machine} {word : UInt16} {words : List UInt16} {k : Nat}

/-! ## One word -/

/-- With the image in memory, the word at a position of the program is fetched at its address. -/
theorem fetch_of_image
    (hmemory : m.memory = Memory.initial.write 0x200 (Word.image words))
    (hpc : m.pc.toNat = 0x200 + 2 * k) (hfits : words.length ≤ 1792)
    (hword : words[k]? = some word) :
    m.fetch = .ok word := by
  have hk : k < words.length := (List.getElem?_eq_some_iff.mp hword).1
  obtain ⟨hhigh, hlow⟩ := Word.image_getElem? hword
  have hbyte : ∀ {j : Nat} {b : UInt8}, (Word.image words)[j]? = some b → j ≤ 2 * k + 1 →
      m.memory.byte (0x200 + j) = b := by
    intro j b hb hj
    have hin : 0x200 ≤ 0x200 + j ∧ 0x200 + j < Memory.size := by
      rw [Memory.size]
      omega
    rw [hmemory, Memory.byte_write, if_pos hin, Nat.add_sub_cancel_left, hb]
    rfl
  have hin : m.pc.toNat + 1 < Memory.size := by
    rw [hpc, Memory.size]
    omega
  have hlowAddr : m.pc.toNat + 1 = 0x200 + (2 * k + 1) := by omega
  rw [fetch, if_pos hin, hlowAddr, hpc, hbyte hhigh (by omega), hbyte hlow (by omega),
    Word.ofNat_highByte_lowByte]

theorem GoesTo.eq_of_isStraight
    {i : Instruction Register} {pc : UInt16} (h : m.GoesTo pc i) (hstraight : i.isStraight = true) :
    pc = m.pc + 2 := by
  obtain ⟨hsteers, hskips, -⟩ := Instruction.isStraight_iff.mp hstraight
  unfold GoesTo at h
  split at h
  case h_6 =>
    rcases h with hpc | ⟨hskips', -⟩
    · exact hpc
    · rw [hskips] at hskips'
      cases hskips'
  all_goals cases hsteers

/-- An instruction that goes straight on fails only where it is to read past the end of memory. -/
theorem Obstacle.of_isStraight
    {i : Instruction Register} {fault : Fault} (h : m.Obstacle i fault)
    (hstraight : i.isStraight = true) :
    (∃ addr, fault = .memoryOutOfBounds addr) ∧ i.readsMemory = true := by
  cases h with
  | emptyStack => cases hstraight
  | fullStack => cases hstraight
  | pastMemory hspan =>
      refine ⟨⟨_, rfl⟩, ?_⟩
      cases i with
      | draw => rfl
      | register op x =>
          cases op with
          | fetch => rfl
          | decimal | store => cases hstraight
          | _ => cases hspan
      | _ => cases hspan

theorem cycleObeys_of_ofWord?_eq_none
    (hmode : m.mode = .running) (hfetch : m.fetch = .ok word)
    (hword : Instruction.ofWord? word = none) :
    m.CycleObeys word := by
  have hstep : m.step = m.skipWord word := by simp only [step, hmode, hfetch, hword]
  have hok : m.step.answer = .ok none := by rw [hstep]; rfl
  constructor <;> rw [cycle_of_ok hok] <;> simp only [hstep, obey, hword]
  · rfl
  · exact hmode
  · rfl
  · rfl
  · rfl

theorem cycleObeys_of_execute
    {i : Instruction Register} {e : Effect}
    (hmode : m.mode = .running) (hfetch : m.fetch = .ok word)
    (hword : Instruction.ofWord? word = some i) (hstraight : i.isStraight = true)
    (hexecute : m.execute i = .ok e) :
    m.CycleObeys word := by
  have hfootprint := footprint_of_execute hexecute
  obtain ⟨hsteers, -, hwrites⟩ := Instruction.isStraight_iff.mp hstraight
  have hnoWait : ∀ x, i ≠ .register .waitKey x := by
    rintro x rfl
    cases hsteers
  have hstep : m.step = m.executeWord word i := by simp only [step, hmode, hfetch, hword]
  have hok : m.step.answer = .ok (some i) := by rw [hstep, executeWord, hexecute]
  have hmachine : m.cycle.machine = e.machine.tick.machine := by
    rw [cycle_of_ok hok, hstep, executeWord, hexecute]
  constructor
  · rw [cycle_answer, hok, hword]
  · rw [hmachine]
    simp only [obey, hword, hexecute]
    rfl
  · rw [hmachine]
    exact (hfootprint.mode hnoWait).trans hmode
  · rw [hmachine]
    exact hfootprint.next.eq_of_isStraight hstraight
  · rw [hmachine]
    exact hfootprint.memory hwrites
  · rw [hmachine, hword]
    exact hfootprint.unrecognized

/-- A cycle that fetches a straight word obeys it, unless the word reads past the end of memory. -/
theorem cycle_of_straight
    (hmode : m.mode = .running) (hfetch : m.fetch = .ok word)
    (hstraight : ∀ i ∈ Instruction.ofWord? word, i.isStraight = true) :
    m.CycleObeys word ∨
      ∃ addr i, m.cycle.answer = .error (.memoryOutOfBounds addr) ∧
        Instruction.ofWord? word = some i ∧ i.readsMemory = true := by
  cases hword : Instruction.ofWord? word with
  | none => exact .inl (cycleObeys_of_ofWord?_eq_none hmode hfetch hword)
  | some i =>
      have hi : i.isStraight = true := hstraight i hword
      cases hexecute : m.execute i with
      | ok e => exact .inl (cycleObeys_of_execute hmode hfetch hword hi hexecute)
      | error fault =>
          have hobstacle := execute_eq_error_iff.mp hexecute
          obtain ⟨⟨addr, rfl⟩, hreads⟩ := hobstacle.of_isStraight hi
          have hnext := next?_eq_some_iff.mpr ⟨hmode, word, hfetch, hword⟩
          refine .inr ⟨addr, i, ?_, rfl, hreads⟩
          rw [cycle_answer, step_answer_eq_error_iff]
          exact .obstructed hnext hobstacle

/-! ## One word after the other -/

/-- What the next cycle comes to is settled by the next word. -/
theorem Obeyed.cycle_cases
    (h : start.Obeyed words k m) (hfits : words.length ≤ 1792) (hword : words[k]? = some word)
    (hstraight : ∀ i ∈ Instruction.ofWord? word, i.isStraight = true) :
    m.CycleObeys word ∨
      ∃ addr i, m.cycle.answer = .error (.memoryOutOfBounds addr) ∧
        Instruction.ofWord? word = some i ∧ i.readsMemory = true :=
  cycle_of_straight h.mode (fetch_of_image h.memory h.pc hfits hword) hstraight

theorem Obeyed.succ
    (h : start.Obeyed words k (start.after k)) (hk : k < 1792)
    (hword : words[k]? = some word) (hobeys : (start.after k).CycleObeys word) :
    start.Obeyed words (k + 1) (start.after (k + 1)) := by
  have htake : words.take (k + 1) = words.take k ++ [word] := by
    rw [List.take_add_one, hword, Option.toList]
  rw [after_succ]
  constructor
  · rw [cycleAnswers_succ, h.answers, hobeys.answer, htake, List.map_append]
    rfl
  · exact hobeys.mode
  · have htwo : (2 : UInt16).toNat = 2 := rfl
    rw [hobeys.pc, UInt16.toNat_add, h.pc, htwo]
    omega
  · rw [hobeys.memory, h.memory]
  · rw [hobeys.unrecognized, h.unrecognized, htake, List.countP_append, List.countP_singleton]
  · rw [htake, List.foldlM_append, h.folded]
    change (start.after k).obey word >>= pure = _
    rw [hobeys.machine]
    rfl

/-- As long as the cycles succeed they obey the words, which by then are all where they were. -/
theorem obeyed_of_cyclesSucceed
    (hzero : start.Obeyed words 0 start) (hfits : words.length ≤ 1792)
    (hstraight : ∀ word ∈ words, ∀ i ∈ Instruction.ofWord? word, i.isStraight = true)
    (hk : k ≤ words.length) (hsucceed : start.CyclesSucceed k) :
    start.Obeyed words k (start.after k) := by
  induction k with
  | zero => exact hzero
  | succ k ih =>
      obtain ⟨hbefore, i, hok⟩ := cyclesSucceed_succ_iff.mp hsucceed
      have h := ih (by omega) hbefore
      have hword : words[k]? = some words[k] := List.getElem?_eq_getElem hk
      rcases h.cycle_cases hfits hword (hstraight _ (List.getElem_mem hk)) with
        hobeys | ⟨addr, j, herror, -⟩
      · exact h.succ (by omega) hword hobeys
      · rw [herror] at hok
        cases hok

/-- All words are obeyed if none of them reads memory. -/
theorem cyclesSucceed_of_readsMemory_eq_false
    (hzero : start.Obeyed words 0 start) (hfits : words.length ≤ 1792)
    (hstraight : ∀ word ∈ words, ∀ i ∈ Instruction.ofWord? word,
      i.isStraight = true ∧ i.readsMemory = false)
    (hk : k ≤ words.length) :
    start.CyclesSucceed k := by
  have hstraight' : ∀ word ∈ words, ∀ i ∈ Instruction.ofWord? word, i.isStraight = true :=
    fun word hword i hi => (hstraight word hword i hi).1
  induction k with
  | zero => exact fun j hj => absurd hj (Nat.not_lt_zero j)
  | succ k ih =>
      have hbefore := ih (by omega)
      have h := obeyed_of_cyclesSucceed hzero hfits hstraight' (by omega) hbefore
      have hword : words[k]? = some words[k] := List.getElem?_eq_getElem hk
      rcases h.cycle_cases hfits hword (hstraight' _ (List.getElem_mem hk)) with
        hobeys | ⟨addr, i, -, hi, hreads⟩
      · exact cyclesSucceed_succ_iff.mpr ⟨hbefore, _, hobeys.answer⟩
      · rw [(hstraight _ (List.getElem_mem hk) i hi).2] at hreads
        cases hreads

theorem obeyed_of_load
    {random : Random.Stream} {loaded : Effect}
    (h : (powerOn random).load (Word.image words) = .ok loaded) :
    loaded.machine.Obeyed words 0 loaded.machine := by
  rw [load_eq_ok h]
  exact ⟨rfl, rfl, rfl, rfl, rfl, rfl⟩

theorem booted_eq_of_load
    {program : List UInt8} {loaded : Effect}
    (h : (powerOn (Random.Stream.ofSeed 0)).load program = .ok loaded) :
    booted program = loaded.machine := by
  simp only [booted, perform, h, attempt, carryOut]

/-- From the image of a program to its instructions.  An image of words that go straight on is
loaded, and as long as the cycles succeed the machine obeys one word after the other; the answers
say which instructions the words are.  The next word is not obeyed only if it is to read past the
end of memory, or if there is no next word because the program reaches to the end of memory. -/
theorem image_is_obeyed_word_by_word
    (random : Random.Stream) {words : List UInt16} (hfits : words.length ≤ 1792)
    (hstraight : ∀ word ∈ words, ∀ i ∈ Instruction.ofWord? word, i.isStraight = true) :
    ∃ loaded, (powerOn random).load (Word.image words) = .ok loaded ∧
      let start := loaded.machine
      ∀ k ≤ words.length, start.CyclesSucceed k →
        start.Obeyed words k (start.after k) ∧
        (∀ word, words[k]? = some word → ∀ fault,
          (start.after k).cycle.answer = .error fault →
            (∃ addr, fault = .memoryOutOfBounds addr) ∧
              ∃ i, Instruction.ofWord? word = some i ∧ i.readsMemory = true) ∧
        (k = 1792 → (start.after k).cycle.answer = .error (.fetchOutOfBounds 0x1000)) := by
  have hlength : (Word.image words).length ≤ 3584 := by
    rw [Word.length_image]
    omega
  have hload := (powerOn random).load_of_fits hlength
  refine ⟨_, hload, ?_⟩
  intro start k hk hsucceed
  have hobeyed : start.Obeyed words k (start.after k) :=
    obeyed_of_cyclesSucceed (obeyed_of_load hload) hfits hstraight hk hsucceed
  refine ⟨hobeyed, ?_, ?_⟩
  · intro word hword fault hfault
    rcases hobeyed.cycle_cases hfits hword (hstraight word (List.mem_of_getElem? hword)) with
      hobeys | ⟨addr, i, herror, hi, hreads⟩
    · rw [hobeys.answer] at hfault
      cases hfault
    · rw [herror] at hfault
      cases hfault
      exact ⟨⟨addr, rfl⟩, i, hi, hreads⟩
  · rintro rfl
    have hpc : (start.after 1792).pc = 0x1000 := UInt16.toNat_inj.mp hobeyed.pc
    rw [cycle_answer, step_answer_eq_error_iff, ← hpc]
    refine .outside hobeyed.mode ?_
    rw [hobeyed.pc, Memory.size]
    omega

/-- Of four words the second is no instruction, and the last one is to draw five bytes of which only
the first lies in memory.  A program that clears the screen again and again comes to the end of
memory. -/
theorem image_is_obeyed_up_to_end_of_memory :
    (let words : List UInt16 := [0x6A05, 0x5001, 0xAFFF, 0xD005]
      let start := booted (Word.image words)
      start.Obeyed words 3 (start.after 3) ∧
        (start.after 3).register 0xA = 5 ∧
        (start.after 3).cycle.answer = .error (.memoryOutOfBounds 0x1000) ∧
        ∃ i, Instruction.ofWord? 0xD005 = some i ∧ i.readsMemory = true) ∧
    let start := booted (Word.image (List.replicate 1792 0x00E0))
    (start.after 1792).cycle.answer = .error (.fetchOutOfBounds 0x1000) := by
  constructor
  · intro words start
    have hfits : words.length ≤ 1792 := by decide
    have hstraight : ∀ word ∈ words, ∀ i ∈ Instruction.ofWord? word, i.isStraight = true := by
      intro word hword
      have hcases : word = 0x6A05 ∨ word = 0x5001 ∨ word = 0xAFFF ∨ word = 0xD005 := by
        simpa [words] using hword
      rcases hcases with rfl | rfl | rfl | rfl <;> decide
    obtain ⟨loaded, hload, hobeyed⟩ :=
      image_is_obeyed_word_by_word (Random.Stream.ofSeed 0) hfits hstraight
    rw [← booted_eq_of_load hload] at hobeyed
    obtain ⟨hfirst, hsecond, hthird, hlast, hregister⟩ :
        (start.after 0).cycle.answer = .ok (some (.byte .load 0xA 5)) ∧
          (start.after 1).cycle.answer = .ok none ∧
          (start.after 2).cycle.answer = .ok (some (.address .setIndex 0xFFF)) ∧
          (start.after 3).cycle.answer = .error (.memoryOutOfBounds 0x1000) ∧
          (start.after 3).register 0xA = 5 := by
      decide +kernel
    have hsucceed : start.CyclesSucceed 3 := by
      intro j hj
      obtain rfl | rfl | rfl : j = 0 ∨ j = 1 ∨ j = 2 := by omega
      · exact ⟨_, hfirst⟩
      · exact ⟨_, hsecond⟩
      · exact ⟨_, hthird⟩
    obtain ⟨h, hreads, -⟩ := hobeyed 3 (by decide) hsucceed
    exact ⟨h, hregister, hlast, (hreads 0xD005 rfl _ hlast).2⟩
  · intro start
    have hlength : (List.replicate 1792 (0x00E0 : UInt16)).length = 1792 := List.length_replicate
    have hclears : ∀ word ∈ List.replicate 1792 (0x00E0 : UInt16),
        ∀ i ∈ Instruction.ofWord? word, i.isStraight = true ∧ i.readsMemory = false := by
      intro word hword
      rw [List.eq_of_mem_replicate hword]
      decide
    obtain ⟨loaded, hload, hobeyed⟩ :=
      image_is_obeyed_word_by_word (Random.Stream.ofSeed 0) hlength.le
        fun word hword i hi => (hclears word hword i hi).1
    have hsucceed := cyclesSucceed_of_readsMemory_eq_false (obeyed_of_load hload) hlength.le hclears
      hlength.ge
    rw [← booted_eq_of_load hload] at hobeyed hsucceed
    exact (hobeyed 1792 hlength.ge hsucceed).2.2 rfl

end Machine

end Chip8
