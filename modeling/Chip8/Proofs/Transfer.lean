import Chip8.Proofs.Executed
import Chip8.Proofs.Footprint

/-!
# Transfers between registers and memory

Three instructions copy bytes between the registers and the bytes of memory from the index register
on: one stores registers, one fetches them, and one stores the decimal digits of a register.  What
has been stored is fetched again after any requests in between that leave memory and the index
register alone, and which these are is known from the instructions that they carry out.
-/

namespace Chip8

namespace Instruction

/-- The instructions that copy bytes between registers and memory. -/
def transfers {R : Type} : Instruction R → Bool
  | register .decimal _ => true
  | register .store _ => true
  | register .fetch _ => true
  | _ => false

end Instruction

namespace Action

/-- The requests that write to memory, if at all, by way of an instruction. -/
def sparesMemory : Action → Bool
  | reset => false
  | load _ => false
  | _ => true

end Action

namespace Memory

/-- Bytes that fit into memory are found where they were written. -/
theorem byte_write_add
    (m : Memory) {start k : Nat} {bytes : List UInt8}
    (hk : k < bytes.length) (hfits : start + bytes.length ≤ size) :
    (m.write start bytes).byte (start + k) = bytes[k] := by
  have hin : start ≤ start + k ∧ start + k < size := by omega
  rw [byte_write, if_pos hin, Nat.add_sub_cancel_left, List.getElem?_eq_getElem hk]
  rfl

end Memory

namespace Machine

/-- An effect writes at most the bytes from the index register on, as many as `length`, and leaves
the index register as it was. -/
structure WritesOnly (m : Machine) (length : Nat) (e : Effect) : Prop where
  others : ∀ addr, ¬ (m.index.toNat ≤ addr ∧ addr < m.index.toNat + length) →
    e.machine.memory.byte addr = m.memory.byte addr
  index : e.machine.index = m.index

/-- To fetch the registers up to `z` puts given values into them, and neither the other registers
nor memory nor the index register are changed. -/
def Fetches (m : Machine) (z : Register) (values : Register → UInt8) : Prop :=
  ∃ e, m.execute (.register .fetch z) = .ok e ∧
    (∀ k ≤ z, e.machine.register k = values k) ∧
    (∀ k, z < k → e.machine.register k = m.register k) ∧
    e.machine.memory = m.memory ∧ e.machine.index = m.index

variable {m : Machine} {i : Instruction Register} {e : Effect} {action : Action}
  {actions : List Action} {x z : Register}

/-! ## One transfer -/

theorem writesOnly_of_execute
    (hindex : i.setsIndex = false) (h : m.execute i = .ok e) :
    m.WritesOnly i.span e where
  others := by
    intro addr houtside
    by_contra hne
    exact houtside ((footprint_of_execute h).bytes addr hne)
  index := (execute_frame h).index hindex

theorem checkRange_of_fits
    {start length : Nat} (hfits : start + length ≤ Memory.size) :
    Memory.checkRange start length = .ok () :=
  Memory.checkRange_eq_ok_iff.mpr (.inr hfits)

/-- Registers that fit into memory are stored one after the other. -/
theorem execute_store_of_fits
    (hfits : m.index.toNat + (x.val + 1) ≤ Memory.size) :
    ∃ e, m.execute (.register .store x) = .ok e ∧
      ∀ k ≤ x, e.machine.memory.byte (m.index.toNat + k.val) = m.register k := by
  let values := m.v.toList.take (x.val + 1)
  have hlength : values.length = x.val + 1 := by
    rw [List.length_take, Vector.length_toList]
    exact Nat.min_eq_left x.isLt
  have hexecute : m.execute (.register .store x) =
      .ok (silently { m with memory := m.memory.write m.index.toNat values }.advance) := by
    rw [execute, executeRegister, storeRegisters, checkRange_of_fits hfits]
    rfl
  refine ⟨_, hexecute, ?_⟩
  intro k hk
  have hlt : k.val < values.length := by
    rw [hlength]
    exact Nat.lt_succ_of_le hk
  have hbyte := m.memory.byte_write_add hlt (hlength ▸ hfits)
  refine hbyte.trans ?_
  simp only [values, List.getElem_take, Vector.getElem_toList]
  rfl

/-- Bytes that lie in memory are fetched one after the other. -/
theorem fetches_of_fits
    (hfits : m.index.toNat + (z.val + 1) ≤ Memory.size) :
    m.Fetches z fun k => m.memory.byte (m.index.toNat + k.val) := by
  obtain ⟨e, hexecute⟩ : ∃ e, m.execute (.register .fetch z) = .ok e := by
    rw [execute, executeRegister, fetchRegisters, checkRange_of_fits hfits]
    exact ⟨_, rfl⟩
  have hframe := execute_frame hexecute
  refine ⟨e, hexecute, ?_, ?_, hframe.memory rfl, hframe.index rfl⟩
  · intro k hk
    rw [register_fetchRegisters hexecute, if_pos hk]
  · intro k hk
    rw [register_fetchRegisters hexecute, if_neg (Fin.not_le.mpr hk)]

theorem Fetches.congr
    {values values' : Register → UInt8}
    (h : m.Fetches z values) (hvalues : ∀ k ≤ z, values k = values' k) :
    m.Fetches z values' := by
  obtain ⟨e, hexecute, hregisters, hrest⟩ := h
  exact ⟨e, hexecute, fun k hk => (hregisters k hk).trans (hvalues k hk), hrest⟩

/-- The hundreds, the tens and the ones of a byte. -/
theorem decimal_digits
    (value : UInt8) :
    (value / 100).toNat ≤ 9 ∧ (value / 10 % 10).toNat ≤ 9 ∧ (value % 10).toNat ≤ 9 ∧
      100 * (value / 100).toNat + 10 * (value / 10 % 10).toNat + (value % 10).toNat =
        value.toNat := by
  have hlt := value.toNat_lt
  have hhundreds : (value / 100).toNat = value.toNat / 100 := UInt8.toNat_div ..
  have htens : (value / 10 % 10).toNat = value.toNat / 10 % 10 := UInt8.toNat_mod ..
  have hones : (value % 10).toNat = value.toNat % 10 := UInt8.toNat_mod ..
  rw [hhundreds, htens, hones]
  omega

theorem execute_decimal_of_fits
    (hfits : m.index.toNat + 3 ≤ Memory.size) :
    ∃ e, m.execute (.register .decimal x) = .ok e ∧
      e.machine.memory.byte m.index.toNat = m.register x / 100 ∧
      e.machine.memory.byte (m.index.toNat + 1) = m.register x / 10 % 10 ∧
      e.machine.memory.byte (m.index.toNat + 2) = m.register x % 10 := by
  let digits := [m.register x / 100, m.register x / 10 % 10, m.register x % 10]
  have hexecute : m.execute (.register .decimal x) =
      .ok (silently { m with memory := m.memory.write m.index.toNat digits }.advance) := by
    rw [execute, executeRegister, storeDecimal, checkRange_of_fits hfits]
    rfl
  have hbyte : ∀ k, (hk : k < 3) →
      (m.memory.write m.index.toNat digits).byte (m.index.toNat + k) = digits[k] :=
    fun k hk => m.memory.byte_write_add hk hfits
  exact ⟨_, hexecute, hbyte 0 (by decide), hbyte 1 (by decide), hbyte 2 (by decide)⟩

/-- To store registers that have just been fetched puts back what was there. -/
theorem store_after_fetch
    (hfits : m.index.toNat + (x.val + 1) ≤ Memory.size) :
    ∃ e e', m.execute (.register .fetch x) = .ok e ∧
      e.machine.execute (.register .store x) = .ok e' ∧
      e'.machine.memory = m.memory ∧ e'.machine.index = m.index := by
  obtain ⟨e, hfetch, hregisters, -, hmemory, hindex⟩ := fetches_of_fits hfits
  obtain ⟨e', hstore, hbytes⟩ :=
    execute_store_of_fits (m := e.machine) (x := x) (by rw [hindex]; exact hfits)
  have honly : e.machine.WritesOnly (x.val + 1) e' := writesOnly_of_execute rfl hstore
  rw [hindex] at hbytes
  refine ⟨e, e', hfetch, hstore, ?_, honly.index.trans hindex⟩
  apply Memory.eq_of_byte_eq
  intro addr
  by_cases hin : m.index.toNat ≤ addr ∧ addr < m.index.toNat + (x.val + 1)
  · obtain ⟨k, rfl⟩ := Nat.exists_eq_add_of_le hin.1
    have hk : k ≤ x.val := by omega
    have hlt : k < 16 := Nat.lt_of_le_of_lt hk x.isLt
    exact (hbytes ⟨k, hlt⟩ hk).trans (hregisters ⟨k, hlt⟩ hk)
  · rw [← hindex] at hin
    rw [honly.others addr hin, hmemory]

/-- A transfer that does not fit into memory fails and changes nothing. -/
theorem perform_of_transfers
    (htransfers : i.transfers = true) (hpast : Memory.size < m.index.toNat + i.span) :
    m.execute i = .error (.memoryOutOfBounds (max m.index.toNat Memory.size)) ∧
      (m.perform (.execute i)).machine = m := by
  have hfacts : i.usesStack = false ∧ 0 < i.span := by
    cases i with
    | register op x => cases op <;> first | exact ⟨rfl, Nat.succ_pos _⟩ | cases htransfers
    | _ => cases htransfers
  have herror : m.execute i = .error (.memoryOutOfBounds (max m.index.toNat Memory.size)) := by
    rw [execute_eq_error_iff, obstacle_iff_of_usesStack_eq_false hfacts.1]
    exact ⟨hfacts.2, hpast, rfl⟩
  refine ⟨herror, ?_⟩
  rw [perform, herror]
  rfl

/-! ## What comes in between -/

/-- A request leaves memory and the index register alone if the instruction that it carries out
does. -/
theorem perform_memory_index
    (hspares : action.sparesMemory = true)
    (hkeeps : ∀ i ∈ m.executed? action, i.writesMemory = false ∧ i.setsIndex = false) :
    (m.perform action).machine.memory = m.memory ∧
      (m.perform action).machine.index = m.index := by
  rw [← Prod.mk.injEq]
  cases hi : m.executed? action with
  | some i =>
      obtain ⟨hwrites, hindex⟩ := hkeeps i hi
      obtain ⟨e, hexecute, hmachine⟩ :=
        perform_of_executed? (f := fun n => (n.memory, n.index)) (fun _ => rfl) hi
      have hframe := execute_frame hexecute
      rw [hmachine, hframe.memory hwrites, hframe.index hindex]
  | none =>
      cases action with
      | reset | load => cases hspares
      | seed => rfl
      | _ =>
          exact perform_of_executed?_eq_none (f := fun n => (n.memory, n.index))
            (by intros; rfl) rfl hi

theorem performAll_memory_index
    (hspares : ∀ action ∈ actions, action.sparesMemory = true)
    (hkeeps : ∀ i ∈ m.executed actions, i.writesMemory = false ∧ i.setsIndex = false) :
    (m.performAll actions).machine.memory = m.memory ∧
      (m.performAll actions).machine.index = m.index := by
  induction actions generalizing m with
  | nil => exact ⟨rfl, rfl⟩
  | cons action actions ih =>
      rw [List.forall_mem_cons] at hspares
      simp only [executed, List.mem_append, Option.mem_toList] at hkeeps
      obtain ⟨hmemory, hindex⟩ :=
        perform_memory_index hspares.1 fun i hi => hkeeps i (.inl hi)
      obtain ⟨hmemory', hindex'⟩ := ih hspares.2 fun i hi => hkeeps i (.inr hi)
      exact ⟨hmemory'.trans hmemory, hindex'.trans hindex⟩

/-- Transfers between registers and memory are exact.  Registers V0 to Vx that are stored are found
in memory, and after any requests that load no program and do not reset the machine, and whose
instructions neither write to memory nor point the index register somewhere else, any of V0 to Vx
are fetched again as they were stored, while those behind stay as they are by then.  To store what
has just been fetched changes nothing in memory.  The decimal digits of a register are stored and
can be fetched.  On the way no other byte is written and the index register stays where it is; and a
transfer that would go past the end of memory, by however little, writes nothing. -/
theorem transfers_are_exact
    (m : Machine) (x : Register) :
    (m.index.toNat + (x.val + 1) ≤ Memory.size →
      (∃ e, m.execute (.register .store x) = .ok e ∧ m.WritesOnly (x.val + 1) e ∧
        (∀ k ≤ x, e.machine.memory.byte (m.index.toNat + k.val) = m.register k) ∧
        ∀ actions : List Action, (∀ action ∈ actions, action.sparesMemory = true) →
          (∀ i ∈ e.machine.executed actions, i.writesMemory = false ∧ i.setsIndex = false) →
          ∀ z ≤ x, (e.machine.performAll actions).machine.Fetches z m.register) ∧
      m.Fetches x (fun k => m.memory.byte (m.index.toNat + k.val)) ∧
      ∃ e e', m.execute (.register .fetch x) = .ok e ∧
        e.machine.execute (.register .store x) = .ok e' ∧
        e'.machine.memory = m.memory ∧ e'.machine.index = m.index) ∧
    (m.index.toNat + 3 ≤ Memory.size →
      ∃ e, m.execute (.register .decimal x) = .ok e ∧ m.WritesOnly 3 e ∧
        ∃ digits : Register → UInt8,
          (∀ k ≤ 2, (digits k).toNat ≤ 9 ∧
            e.machine.memory.byte (m.index.toNat + k.val) = digits k) ∧
          100 * (digits 0).toNat + 10 * (digits 1).toNat + (digits 2).toNat =
            (m.register x).toNat ∧
          e.machine.Fetches 2 digits) ∧
    ∀ i : Instruction Register, i.transfers = true → Memory.size < m.index.toNat + i.span →
      m.execute i = .error (.memoryOutOfBounds (max m.index.toNat Memory.size)) ∧
        (m.perform (.execute i)).machine = m := by
  refine ⟨?_, ?_, fun i => perform_of_transfers⟩
  · intro hfits
    refine ⟨?_, fetches_of_fits hfits, ?_⟩
    · obtain ⟨e, hexecute, hbytes⟩ := execute_store_of_fits hfits
      have honly : m.WritesOnly (x.val + 1) e := writesOnly_of_execute rfl hexecute
      refine ⟨e, hexecute, honly, hbytes, ?_⟩
      intro actions hspares hkeeps z hz
      obtain ⟨hmemory, hindex⟩ := performAll_memory_index hspares hkeeps
      rw [honly.index] at hindex
      have hle : z.val ≤ x.val := hz
      have hfetches := fetches_of_fits (m := (e.machine.performAll actions).machine) (z := z)
        (by rw [hindex]; omega)
      apply hfetches.congr
      intro k hk
      rw [hmemory, hindex]
      exact hbytes k (Fin.le_trans hk hz)
    · exact store_after_fetch hfits
  · intro hfits
    obtain ⟨e, hexecute, hhundreds, htens, hones⟩ := execute_decimal_of_fits (x := x) hfits
    have honly : m.WritesOnly 3 e := writesOnly_of_execute rfl hexecute
    have hfetches := fetches_of_fits (m := e.machine) (z := 2) (by rw [honly.index]; exact hfits)
    rw [honly.index] at hfetches
    obtain ⟨hhundreds_le, htens_le, hones_le, hsum⟩ := decimal_digits (m.register x)
    rw [← hhundreds, ← htens, ← hones] at hsum
    refine ⟨e, hexecute, honly, _, ?_, hsum, hfetches⟩
    intro k hk
    refine ⟨?_, rfl⟩
    have hcases : k = 0 ∨ k = 1 ∨ k = 2 := by
      revert k
      decide
    rcases hcases with rfl | rfl | rfl
    · exact hhundreds ▸ hhundreds_le
    · exact htens ▸ htens_le
    · exact hones ▸ hones_le

/-- Three registers just fit into the last bytes of memory, and so do three digits, but a fourth
register does not.  V0 and V1 are fetched as they were stored although V0 has changed since. -/
theorem transfers_at_end_of_memory :
    let m := ((powerOn (Random.Stream.ofSeed 0)).performAll
      [.execute (.address .setIndex 0xFFD), .execute (.byte .load 0 1), .execute (.byte .load 1 2),
        .execute (.byte .load 2 234)]).machine
    let stored := (m.perform (.execute (.register .store 2))).machine
    let later := (stored.performAll
      [.execute (.byte .load 0 9), .press 7, .execute (.byte .load 2 9), .cycle]).machine
    stored.memory.byte 0xFFF = 234 ∧
      (∃ e, later.execute (.register .fetch 1) = .ok e ∧
        e.machine.register 0 = 1 ∧ e.machine.register 1 = 2 ∧ e.machine.register 2 = 9) ∧
      (∃ e, m.execute (.register .decimal 2) = .ok e ∧ m.WritesOnly 3 e) ∧
      (m.perform (.execute (.register .store 3))).machine = m := by
  intro m stored later
  obtain ⟨hregisters, hkeeps, hfits, hpast, hlater⟩ :
      (m.register 0 = 1 ∧ m.register 1 = 2 ∧ m.register 2 = 234) ∧
        (∀ i ∈ stored.executed
          [.execute (.byte .load 0 9), .press 7, .execute (.byte .load 2 9), .cycle],
          i.writesMemory = false ∧ i.setsIndex = false) ∧
        m.index.toNat + 3 ≤ Memory.size ∧ Memory.size < m.index.toNat + 4 ∧
        later.register 2 = 9 := by
    decide +kernel
  obtain ⟨htransfer, hdecimal, hfails⟩ := m.transfers_are_exact 2
  obtain ⟨⟨e, hexecute, -, hbytes, hbetween⟩, -⟩ := htransfer hfits
  have hstored : e.machine = stored := by
    simp only [stored, perform, hexecute, attempt, carryOut]
  rw [hstored] at hbytes hbetween
  obtain ⟨e', hfetch, hfetched, hbehind, -⟩ := hbetween _ (by decide) hkeeps 1 (by decide)
  obtain ⟨e'', hexecute'', honly, -⟩ := hdecimal hfits
  refine ⟨(hbytes 2 (by decide)).trans hregisters.2.2, ⟨e', hfetch, ?_, ?_, ?_⟩,
    ⟨e'', hexecute'', honly⟩, (hfails (.register .store 3) rfl hpast).2⟩
  · exact (hfetched 0 (by decide)).trans hregisters.1
  · exact (hfetched 1 (by decide)).trans hregisters.2.1
  · exact (hbehind 2 (by decide)).trans hlater

end Machine

end Chip8
