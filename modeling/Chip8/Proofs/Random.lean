import Chip8.Proofs.Executed

/-!
# Who draws from the random stream

The stream of a seed is drawn from one word at a time, by one instruction alone.  So how far it has
been drawn is the number of times that this instruction was carried out since the seeding, and that
number is all that the next draw depends on: neither a mask of zero nor a fault, a word passed over,
a wait, a reset or another program makes a difference.
-/

namespace Chip8

/-- The instructions that draw a random word. -/
def Instruction.isRandom {R : Type} : Instruction R → Bool
  | byte .random _ _ => true
  | _ => false

/-- The requests that start another random stream. -/
def Action.seeds : Action → Bool
  | seed _ => true
  | _ => false

namespace Random

/-- The stream after `n` more words have been drawn. -/
def Stream.skip (s : Stream) (n : Nat) : Stream :=
  { s with drawn := s.drawn + n }

theorem Stream.skip_ofSeed
    (seed : UInt64) (n : Nat) :
    (Stream.ofSeed seed).skip n = ⟨keyOfSeed seed, n⟩ := by
  rw [skip, ofSeed, Nat.zero_add]

theorem Stream.skip_skip
    (s : Stream) (k n : Nat) :
    (s.skip k).skip n = s.skip (k + n) := by
  rw [skip, skip, skip, Nat.add_assoc]

theorem wordAt_eq_get
    (key : CipherKey) (n : Nat) :
    wordAt key n =
      (Block.output key (UInt64.ofNat (n / 16))).get ⟨n % 16, Nat.mod_lt n (by decide)⟩ := by
  have hplace : n % 16 < 16 := Nat.mod_lt n (by decide)
  rw [wordAt, Vector.getElem?_eq_getElem hplace]
  rfl

end Random

namespace Machine

/-- The number of random words that requests draw. -/
def draws (m : Machine) (actions : List Action) : Nat :=
  (m.executed actions).countP (·.isRandom)

variable {m : Machine} {action : Action} {i : Instruction Register} {e : Effect}

/-! ## One instruction -/

theorem execute_random
    (h : m.execute i = .ok e) :
    e.machine.random = m.random.skip (if i.isRandom then 1 else 0) := by
  by_cases hrandom : ∃ x nn, i = .byte .random x nn
  · obtain ⟨x, nn, rfl⟩ := hrandom
    cases h
    rfl
  · have hne : ∀ x nn, i ≠ .byte .random x nn := fun x nn heq => hrandom ⟨x, nn, heq⟩
    have hfalse : i.isRandom = false := by
      unfold Instruction.isRandom
      split
      next x nn => exact absurd rfl (hne x nn)
      next => rfl
    rw [(execute_frame h).random hne, hfalse]
    rfl

/-- A draw puts the last byte of the next word, masked, into its register. -/
theorem register_of_random
    {x : Register} {nn : UInt8} (h : m.execute (.byte .random x nn) = .ok e) :
    e.machine.register x = (Random.wordAt m.random.key m.random.drawn).toUInt8 &&& nn := by
  cases h
  exact (m.register_setRegister x x _).trans (if_pos rfl)

/-! ## One request -/

/-- A request that carries nothing out leaves the stream alone, unless it starts another. -/
theorem perform_random_of_executed?_eq_none
    (hseeds : action.seeds = false) (h : m.executed? action = none) :
    (m.perform action).machine.random = m.random := by
  cases action with
  | reset => simp only [perform, carryOut, reset, setSound]
  | load program =>
      apply attempt_induction (P := fun n => n.random = m.random) rfl
      intro e hload
      rw [load_eq_ok hload]
  | seed => cases hseeds
  | _ => exact perform_of_executed?_eq_none (f := Machine.random) (by intros; rfl) rfl h

theorem perform_random
    (m : Machine) (hseeds : action.seeds = false) :
    (m.perform action).machine.random =
      m.random.skip ((m.executed? action).toList.countP (·.isRandom)) := by
  cases hi : m.executed? action with
  | none => exact perform_random_of_executed?_eq_none hseeds hi
  | some i =>
      obtain ⟨e, hexecute, hrandom⟩ := perform_of_executed? (f := Machine.random) (fun _ => rfl) hi
      rw [hrandom, execute_random hexecute, Option.toList_some, List.countP_singleton]

/-! ## A whole history -/

/-- The stream is drawn exactly as often as the history carries out the instruction that draws. -/
theorem performAll_random
    (m : Machine) {actions : List Action} (hseeds : ∀ action ∈ actions, action.seeds = false) :
    (m.performAll actions).machine.random = m.random.skip (m.draws actions) := by
  induction actions generalizing m with
  | nil => rfl
  | cons action actions ih =>
      rw [List.forall_mem_cons] at hseeds
      have hdraws : m.draws (action :: actions) =
          (m.executed? action).toList.countP (·.isRandom) +
            (m.perform action).machine.draws actions := by
        rw [draws, executed, List.countP_append, draws]
      rw [performAll_cons, ih _ hseeds.2, m.perform_random hseeds.1, hdraws,
        Random.Stream.skip_skip]

/-- After a seeding the random stream is accounted for.  Whatever is requested and in whatever
order, as many words have been drawn as the instruction that draws was carried out.  And each time
it is carried out, it puts into its register the last byte of one word, masked: if it was carried
out `j` times before, this is word `j` of the stream of the seed, which is word `j % 16` of the
cipher block `j / 16`. -/
theorem random_stream_is_accounted_for
    (m : Machine) (seed : UInt64) {actions : List Action}
    (hseeds : ∀ action ∈ actions, action.seeds = false) :
    let key := Random.keyOfSeed seed
    let seeded := (m.perform (.seed seed)).machine
    (seeded.performAll actions).machine.random = ⟨key, seeded.draws actions⟩ ∧
      (∀ (before : List Action) (action : Action) (after : List Action) (x : Register) (nn : UInt8),
        actions = before ++ action :: after →
        let drawing := (seeded.performAll before).machine
        drawing.executed? action = some (.byte .random x nn) →
          (drawing.perform action).machine.register x =
            (Random.wordAt key (seeded.draws before)).toUInt8 &&& nn) ∧
      ∀ j : Nat,
        Random.wordAt key j =
          (Random.Block.output key (UInt64.ofNat (j / 16))).get
            ⟨j % 16, Nat.mod_lt j (by decide)⟩ := by
  intro key seeded
  have hrandom : ∀ actions : List Action, (∀ action ∈ actions, action.seeds = false) →
      (seeded.performAll actions).machine.random = ⟨key, seeded.draws actions⟩ := by
    intro actions hseeds
    have hseeded : seeded.random = Random.Stream.ofSeed seed := rfl
    rw [seeded.performAll_random hseeds, hseeded, Random.Stream.skip_ofSeed]
  refine ⟨hrandom actions hseeds, ?_, Random.wordAt_eq_get key⟩
  rintro before action after x nn rfl drawing hdraws
  have hbefore : drawing.random = ⟨key, seeded.draws before⟩ :=
    hrandom before fun a ha => hseeds a (List.mem_append_left _ ha)
  obtain ⟨e, hexecute, hv⟩ := perform_of_executed? (f := Machine.v) (fun _ => rfl) hdraws
  have hregister : (drawing.perform action).machine.register x = e.machine.register x :=
    congrArg (·.get x) hv
  rw [hregister, register_of_random hexecute, hbefore]

/-- Sixteen draws use up the first block, all of them masked to nothing, and the next one is made
from the second block although a reset, another program and a fault came between. -/
theorem random_stream_crosses_block :
    let before : List Action :=
      List.replicate 16 (.execute (.byte .random 0 0)) ++
        [.reset, .load [0xC1, 0x3F], .execute .ret]
    let seeded := ((powerOn (Random.Stream.ofSeed 0)).perform (.seed 42)).machine
    let drawing := (seeded.performAll before).machine
    (∀ action ∈ before ++ [.cycle], action.seeds = false) ∧
      (seeded.performAll (before ++ [.cycle])).machine.random = ⟨Random.keyOfSeed 42, 17⟩ ∧
      drawing.executed? .cycle = some (.byte .random 1 0x3F) ∧
      (drawing.perform .cycle).machine.register 1 =
        (Random.wordAt (Random.keyOfSeed 42) 16).toUInt8 &&& 0x3F ∧
      Random.wordAt (Random.keyOfSeed 42) 16 =
        (Random.Block.output (Random.keyOfSeed 42) 1).get 0 ∧
      (drawing.perform .cycle).machine.register 1 = 0x22 := by
  intro before seeded drawing
  have hseeds : ∀ action ∈ before ++ [.cycle], action.seeds = false := by decide
  have hdraws : drawing.executed? .cycle = some (.byte .random 1 0x3F) := by decide +kernel
  have hbefore : seeded.draws before = 16 := by decide +kernel
  have hall : seeded.draws (before ++ [.cycle]) = 17 := by decide +kernel
  have hvalue : (Random.wordAt (Random.keyOfSeed 42) 16).toUInt8 &&& 0x3F = 0x22 := by
    decide +kernel
  obtain ⟨hrandom, hregister, hword⟩ :=
    (powerOn (Random.Stream.ofSeed 0)).random_stream_is_accounted_for 42 hseeds
  have hdrawn := hregister before .cycle [] 1 0x3F rfl hdraws
  rw [hbefore] at hdrawn
  refine ⟨hseeds, ?_, hdraws, hdrawn, hword 16, hdrawn.trans hvalue⟩
  rw [hrandom, hall]

end Machine

end Chip8
