import Chip8.Proofs.History
import Mathlib.Data.List.Chain

/-!
# The tone and the sound timer

The speaker is told of the tone in three places: where the sound timer is set, where it is counted
down, and where the machine is reset.  What it hears in the course of a history is nevertheless
determined by the values that the timer goes through: one tone for each passage between zero and
the other values, and none for anything else.  `Tone.edges` lists these passages, and
`perform_tones` and `performAll_tones` show that they are what is heard.
-/

namespace Chip8

namespace Tone

/-- What is heard when the sound timer goes from one value to another. -/
def edge (before after : UInt8) : List Tone :=
  if before = 0 ∧ after ≠ 0 then [start]
  else if before ≠ 0 ∧ after = 0 then [stop]
  else []

/-- What is heard when the sound timer goes through some values, one after the other. -/
def edges : UInt8 → List UInt8 → List Tone
  | _, [] => []
  | before, after :: values => edge before after ++ edges after values

/-! ## Single edges -/

theorem edge_cases
    (before after : UInt8) :
    (edge before after = [] ∧ (before = 0 ↔ after = 0)) ∨
      (edge before after = [start] ∧ before = 0 ∧ after ≠ 0) ∨
      (edge before after = [stop] ∧ before ≠ 0 ∧ after = 0) := by
  by_cases hbefore : before = 0
  · by_cases hafter : after = 0
    · exact .inl ⟨by simp [edge, hbefore, hafter], by simp [hbefore, hafter]⟩
    · exact .inr (.inl ⟨by simp [edge, hbefore, hafter], hbefore, hafter⟩)
  · by_cases hafter : after = 0
    · exact .inr (.inr ⟨by simp [edge, hbefore, hafter], hbefore, hafter⟩)
    · exact .inl ⟨by simp [edge, hbefore, hafter], by simp [hbefore, hafter]⟩

theorem edge_eq_nil
    {before after : UInt8} (h : before = 0 ↔ after = 0) :
    edge before after = [] := by
  rcases edge_cases before after with ⟨hedge, -⟩ | ⟨-, hzero, hne⟩ | ⟨-, hne, hzero⟩
  · exact hedge
  · exact absurd (h.mp hzero) hne
  · exact absurd (h.mpr hzero) hne

theorem edge_self (value : UInt8) : edge value value = [] :=
  edge_eq_nil Iff.rfl

/-! ## Sequences of edges -/

theorem edges_append
    (before : UInt8) (first second : List UInt8) :
    edges before (first ++ second) =
      edges before first ++ edges (first.getLastD before) second := by
  induction first generalizing before with
  | nil => rfl
  | cons after first ih =>
      rw [List.cons_append, edges, ih, edges, List.append_assoc, List.getLastD_cons]

/-- The first edge starts the tone if it was silent and stops it if it sounded. -/
theorem eq_of_head?_edges
    {before : UInt8} {values : List UInt8} {tone : Tone}
    (h : (edges before values).head? = some tone) :
    tone = if before = 0 then start else stop := by
  induction values generalizing before with
  | nil => cases h
  | cons after values ih =>
      rw [edges] at h
      rcases edge_cases before after with
        ⟨hedge, hiff⟩ | ⟨hedge, hzero, -⟩ | ⟨hedge, hne, -⟩
      · rw [hedge, List.nil_append] at h
        have htone := ih h
        simp only [← hiff] at htone
        exact htone
      · rw [hedge] at h
        rw [if_pos hzero]
        exact (Option.some.inj h).symm
      · rw [hedge] at h
        rw [if_neg hne]
        exact (Option.some.inj h).symm

/-- Starts and stops alternate, since each edge leaves the timer where only the other kind can come
next. -/
theorem isChain_edges
    (before : UInt8) (values : List UInt8) :
    (edges before values).IsChain (· ≠ ·) := by
  induction values generalizing before with
  | nil => exact .nil
  | cons after values ih =>
      rw [edges]
      rcases edge_cases before after with
        ⟨hedge, -⟩ | ⟨hedge, -, hne⟩ | ⟨hedge, -, hzero⟩
      · rw [hedge]
        exact ih after
      · rw [hedge, List.singleton_append, List.isChain_cons]
        refine ⟨?_, ih after⟩
        intro next hnext
        rw [eq_of_head?_edges hnext, if_neg hne]
        simp
      · rw [hedge, List.singleton_append, List.isChain_cons]
        refine ⟨?_, ih after⟩
        intro next hnext
        rw [eq_of_head?_edges hnext, if_pos hzero]
        simp

/-- The tone sounds in the end exactly if it was last heard to start, or was never heard to stop. -/
theorem getLastD_ne_zero_iff
    (before : UInt8) (values : List UInt8) :
    values.getLastD before ≠ 0 ↔
      (edges before values).getLast? = some start ∨
        (edges before values = [] ∧ before ≠ 0) := by
  induction values generalizing before with
  | nil => simp [edges]
  | cons after values ih =>
      rw [List.getLastD_cons, ih, edges]
      rcases edge_cases before after with
        ⟨hedge, hiff⟩ | ⟨hedge, -, hne⟩ | ⟨hedge, -, hzero⟩
      · rw [hedge, List.nil_append, Ne, Ne, hiff]
      · rw [hedge]
        cases edges after values <;> simp [hne]
      · rw [hedge]
        cases edges after values <;> simp [hzero]

end Tone

namespace Machine

/-! ## The values of the sound timer -/

/-- The values that a request takes the sound timer to.  A cycle does so twice, once with its step
and once with its tick. -/
def soundsOf (m : Machine) : Action → List UInt8
  | .cycle => [m.step.machine.sound, m.cycle.machine.sound]
  | action => [(m.perform action).machine.sound]

/-- The values that requests take the sound timer to, one after the other. -/
def soundHistory : Machine → List Action → List UInt8
  | _, [] => []
  | m, action :: actions => m.soundsOf action ++ (m.perform action).machine.soundHistory actions

theorem getLastD_soundsOf
    (m : Machine) (action : Action) :
    (m.soundsOf action).getLastD m.sound = (m.perform action).machine.sound := by
  cases action <;> rfl

theorem getLastD_soundHistory
    (m : Machine) (actions : List Action) :
    (m.soundHistory actions).getLastD m.sound = (m.performAll actions).machine.sound := by
  induction actions generalizing m with
  | nil => rfl
  | cons action actions ih =>
      have hfirst := m.getLastD_soundsOf action
      have hothers := ih (m.perform action).machine
      rw [List.getLastD_eq_getLast?] at hfirst hothers ⊢
      rw [soundHistory, List.getLast?_append, Option.getD_or, hfirst, hothers]
      rfl

theorem isTonePlaying_iff
    {m : Machine} :
    m.isTonePlaying = true ↔ m.sound ≠ 0 := by
  rw [isTonePlaying, decide_eq_true_eq, UInt8.pos_iff_ne_zero]

/-! ## What is heard -/

theorem setSound_tones
    (m : Machine) (ticks : UInt8) :
    (m.setSound ticks).events.filterMap Event.tone? = Tone.edge m.sound ticks := by
  unfold setSound Tone.edge
  split
  · rfl
  · split <;> rfl

/-- Of all values only one is taken to zero by a tick. -/
theorem tick_tones
    (m : Machine) :
    m.tick.events.filterMap Event.tone? = Tone.edge m.sound m.tick.machine.sound := by
  by_cases hone : m.sound = 1
  · have hevents : m.tick.events = [.note .toneEnded, .tone .stop] := by
      simp [tick, hone]
    have hzero : m.tick.machine.sound = 0 := by
      simp [tick, hone]
    rw [hevents, hzero, hone]
    rfl
  · -- From zero a tick goes to zero, and from more than one to more than zero.
    have hevents : m.tick.events = [] := by
      simp [tick, hone]
    have hzero : m.sound = 0 ↔ m.tick.machine.sound = 0 := by
      have hsound := m.toNat_sound_tick
      rw [← UInt8.toNat_inj] at hone ⊢
      rw [← UInt8.toNat_inj, hsound]
      simp at *
      omega
    rw [hevents, Tone.edge_eq_nil hzero]
    rfl

theorem execute_tones
    {m : Machine} {i : Instruction Register} {e : Effect} (h : m.execute i = .ok e) :
    e.events.filterMap Event.tone? = Tone.edge m.sound e.machine.sound := by
  by_cases hset : ∃ x, i = .register .setSound x
  · obtain ⟨x, rfl⟩ := hset
    cases h
    exact m.setSound_tones (m.register x)
  · have hne : ∀ x, i ≠ .register .setSound x := fun x heq => hset ⟨x, heq⟩
    have hframe := execute_frame h
    rw [hframe.tones hne, hframe.sound hne, Tone.edge_self]

theorem step_tones
    (m : Machine) :
    m.step.events.filterMap Event.tone? = Tone.edge m.sound m.step.machine.sound := by
  have hstep := m.stepped_step
  generalize m.step = stepped at hstep ⊢
  cases hstep with
  | resolved => exact (Tone.edge_self m.sound).symm
  | waiting => exact (Tone.edge_self m.sound).symm
  | outside => exact (Tone.edge_self m.sound).symm
  | skipped => exact (Tone.edge_self m.sound).symm
  | executed _ _ _ hexecute => exact execute_tones hexecute
  | failed => exact (Tone.edge_self m.sound).symm

/-- A cycle can start the tone with its step and stop it with its tick. -/
theorem cycle_tones
    (m : Machine) :
    m.cycle.events.filterMap Event.tone? =
      Tone.edges m.sound [m.step.machine.sound, m.cycle.machine.sound] := by
  have hstep := m.step_tones
  cases hanswer : m.step.answer with
  | ok i =>
      have htick := m.step.machine.tick_tones
      rw [cycle_of_ok hanswer, List.filterMap_append, hstep, htick]
      simp [Tone.edges]
  | error fault =>
      rw [cycle_of_error hanswer, List.filterMap_append, hstep, step_machine_of_error hanswer]
      simp [Tone.edges, Tone.edge_self, Event.tone?]

theorem reset_tones
    (m : Machine) :
    m.reset.events.filterMap Event.tone? = Tone.edge m.sound 0 := by
  have htones := m.setSound_tones 0
  simp [reset, htones, Event.tone?]

/-- A request that may fail is heard as the change that it makes if it does not. -/
theorem attempt_tones
    {m : Machine} {result : Except Fault Effect}
    (hok : ∀ e, result = .ok e →
      e.events.filterMap Event.tone? = Tone.edge m.sound e.machine.sound) :
    (m.attempt result).events.filterMap Event.tone? =
      Tone.edge m.sound (m.attempt result).machine.sound := by
  cases result with
  | ok e => exact hok e rfl
  | error fault => exact (Tone.edge_self m.sound).symm

theorem edges_singleton (before after : UInt8) :
    Tone.edges before [after] = Tone.edge before after :=
  List.append_nil _

/-- One request is heard as the changes that it makes to the sound timer. -/
theorem perform_tones
    (m : Machine) (action : Action) :
    (m.perform action).events.filterMap Event.tone? = Tone.edges m.sound (m.soundsOf action) := by
  by_cases hcycle : action = .cycle
  · subst hcycle
    exact m.cycle_tones
  · have hsounds : m.soundsOf action = [(m.perform action).machine.sound] := by
      cases action <;> first | rfl | exact absurd rfl hcycle
    rw [hsounds, edges_singleton]
    cases action with
    | reset => exact m.reset_tones
    | load program =>
        apply attempt_tones
        intro e hload
        rw [load_eq_ok hload]
        exact (Tone.edge_self m.sound).symm
    | cycle => exact absurd rfl hcycle
    | step => exact m.step_tones
    | execute i => exact attempt_tones fun e hexecute => execute_tones hexecute
    | tick => exact m.tick_tones
    | cancelWait =>
        rcases m.cancelWait_cases with ⟨-, hcancel⟩ | ⟨x, -, hcancel⟩ <;>
          simp only [perform, hcancel]
        · exact (Tone.edge_self m.sound).symm
        · exact (Tone.edge_self m.sound).symm
    | _ => exact (Tone.edge_self m.sound).symm

/-- A history is heard as the changes that it makes to the sound timer. -/
theorem performAll_tones
    (m : Machine) (actions : List Action) :
    (m.performAll actions).events.filterMap Event.tone? =
      Tone.edges m.sound (m.soundHistory actions) := by
  induction actions generalizing m with
  | nil => rfl
  | cons action actions ih =>
      rw [performAll_cons, List.filterMap_append, perform_tones, ih, soundHistory,
        Tone.edges_append, getLastD_soundsOf]

end Machine

namespace Emulator

theorem heard_of_full
    (e : Emulator) (events : List Event) :
    (e.attach .full).heard events = events.filterMap Event.tone? := by
  simp [heard, attach, Speaker.hears]

/-- From when a speaker is attached that hears every tone, whatever is then requested and in
whatever order, it hears exactly one tone for each passage of the sound timer between zero and
other values.  So starts and stops alternate, the first of them is the one that the timer was ready
for when the speaker was attached, and the last of them says whether the tone still sounds. -/
theorem heard_tones_alternate
    (e : Emulator) (actions : List Action) :
    let result := (e.attach .full).performAll actions
    result.1.heard = Tone.edges e.machine.sound (e.machine.soundHistory actions) ∧
      result.1.heard.IsChain (· ≠ ·) ∧
      (∀ tone, result.1.heard.head? = some tone →
        tone = if e.machine.sound = 0 then .start else .stop) ∧
      (result.2.machine.isTonePlaying = true ↔
        result.1.heard.getLast? = some .start ∨
          (result.1.heard = [] ∧ e.machine.isTonePlaying = true)) := by
  intro result
  have hheard : result.1.heard = Tone.edges e.machine.sound (e.machine.soundHistory actions) := by
    rw [← Machine.performAll_tones]
    exact e.heard_of_full _
  have hsound :
      (e.machine.soundHistory actions).getLastD e.machine.sound = result.2.machine.sound :=
    e.machine.getLastD_soundHistory actions
  have hlast := Tone.getLastD_ne_zero_iff e.machine.sound (e.machine.soundHistory actions)
  rw [hsound, ← hheard] at hlast
  refine ⟨hheard, ?_, ?_, ?_⟩
  · rw [hheard]
    exact Tone.isChain_edges _ _
  · intro tone htone
    rw [hheard] at htone
    exact Tone.eq_of_head?_edges htone
  · simp only [Machine.isTonePlaying_iff]
    exact hlast

/-- A tone of one tick starts and stops in the same cycle, and a longer one is cut by a reset. -/
theorem heard_tones_of_short_and_cut_tone :
    let e : Emulator :=
      ⟨Machine.booted [0x60, 0x01, 0xF0, 0x18, 0x60, 0x05, 0xF0, 0x18], none, none⟩
    let result := (e.attach .full).performAll [.cycle, .cycle, .cycle, .cycle, .tick, .reset]
    result.1.heard = [.start, .stop, .start, .stop] ∧
      result.1.heard.head? = some .start ∧
      (Tone.start = if e.machine.sound = 0 then .start else .stop) ∧
      result.2.machine.isTonePlaying = false := by
  intro e result
  have hheard : result.1.heard = [.start, .stop, .start, .stop] := by decide +kernel
  have hhead : result.1.heard.head? = some .start := by rw [hheard]; rfl
  obtain ⟨-, -, hfirst, hlast⟩ :=
    e.heard_tones_alternate [.cycle, .cycle, .cycle, .cycle, .tick, .reset]
  refine ⟨hheard, hhead, hfirst .start hhead, ?_⟩
  rw [← Bool.not_eq_true]
  intro hplaying
  have hcases := hlast.mp hplaying
  rw [hheard] at hcases
  simp at hcases

end Emulator

end Chip8
