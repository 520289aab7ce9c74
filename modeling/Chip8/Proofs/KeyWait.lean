import Chip8.Proofs.History
import Chip8.Proofs.Keypad
import Mathlib.Algebra.Order.Ring.Nat

/-!
# Waiting for a key

The machine keeps in its mode that it waits for a key press, and the keypad keeps in its latch that
somebody does.  The two are set and cleared in different places, and the first part of this module
shows that no history of requests brings them apart.  The second part follows one wait from the
instruction that starts it: the machine stands still but for its timers and its keys, until a
cycle or a step finds the first key that went down in the meantime.
-/

namespace Chip8

namespace Action

/-- The requests during a wait: keys move, time passes, or the program is run. -/
def isAmbient : Action → Bool
  | press _ => true
  | release _ => true
  | setKey .. => true
  | pollKeys _ => true
  | tick => true
  | cycle => true
  | step => true
  | _ => false

end Action

/-- The events of a tone that runs out, which is all that is heard of a machine that waits. -/
def Event.endsTone : Event → Bool
  | note .toneEnded => true
  | tone .stop => true
  | _ => false

namespace Machine

/-! ## Mode and latch agree -/

/-- The mode says that a key press is waited for exactly when the latch does. -/
def ModeAgrees (m : Machine) : Prop :=
  m.mode ≠ .running ↔ m.keypad.latch.isListening = true

theorem modeAgrees_of_idle
    {m : Machine} (hmode : m.mode = .running) (hlatch : m.keypad.latch = .idle) :
    m.ModeAgrees := by
  simp [ModeAgrees, hmode, hlatch, Latch.isListening]

theorem ModeAgrees.of_latch_eq_offer?
    {m : Machine} (h : m.ModeAgrees) {keypad : Keypad} {press : Option Key}
    (hlatch : keypad.latch = m.keypad.latch.offer? press) :
    ({ m with keypad := keypad } : Machine).ModeAgrees := by
  unfold ModeAgrees at h ⊢
  rw [h, hlatch, Latch.isListening_offer?]

theorem ModeAgrees.execute
    {m : Machine} (h : m.ModeAgrees) {i : Instruction Register} {e : Effect}
    (hexecute : m.execute i = .ok e) :
    e.machine.ModeAgrees := by
  by_cases hwait : ∃ x, i = .register .waitKey x
  · obtain ⟨x, rfl⟩ := hwait
    cases hexecute
    simp [ModeAgrees, Keypad.listen, Latch.isListening]
  · have hframe := execute_frame hexecute
    have hne : ∀ x, i ≠ .register .waitKey x := fun x heq => hwait ⟨x, heq⟩
    unfold ModeAgrees at h ⊢
    rw [hframe.mode hne, hframe.keypad hne]
    exact h

theorem ModeAgrees.step
    {m : Machine} (h : m.ModeAgrees) :
    m.step.machine.ModeAgrees := by
  have hstep := m.stepped_step
  generalize m.step = stepped at hstep ⊢
  cases hstep with
  | resolved => exact modeAgrees_of_idle rfl rfl
  | waiting => exact h
  | outside => exact h
  | skipped => exact h
  | executed _ _ _ hexecute => exact h.execute hexecute
  | failed => exact h

theorem ModeAgrees.perform
    {m : Machine} (h : m.ModeAgrees) {action : Action} (hspares : action.sparesKeypad = true) :
    (m.perform action).machine.ModeAgrees := by
  cases action with
  | reset => exact modeAgrees_of_idle rfl rfl
  | load program =>
      apply attempt_induction h
      intro e hload
      rw [load_eq_ok hload]
      exact h
  | seed => exact h
  | cycle => exact cycle_induction h h.step fun _ hm => hm
  | step => exact h.step
  | execute i =>
      apply attempt_induction h
      intro e hexecute
      exact h.execute hexecute
  | tick => exact h
  | press key => exact h.of_latch_eq_offer? (m.keypad.latch_press key)
  | release key => exact h.of_latch_eq_offer? (m.keypad.latch_release key)
  | setKey key isHeld => exact h.of_latch_eq_offer? (m.keypad.latch_setKey key isHeld)
  | pollKeys held => exact h.of_latch_eq_offer? (m.keypad.latch_update held)
  | cancelWait =>
      rcases m.cancelWait_cases with ⟨-, hcancel⟩ | ⟨x, -, hcancel⟩ <;>
        simp only [Machine.perform, hcancel]
      · exact h
      · exact modeAgrees_of_idle rfl rfl
  | clearDirty => exact h
  | takeDirty => exact h
  | keypad => cases hspares
  | screen => exact h

theorem modeAgrees_of_reachable
    {e : Emulator} (h : e.Reachable Action.sparesKeypad) :
    e.machine.ModeAgrees := by
  apply h.machine_induction
  · intro random
    exact modeAgrees_of_idle rfl rfl
  · intro m action hspares hm
    exact hm.perform hspares

/-! ## The first key that goes down -/

/-- The key that goes down first in the course of some requests, if any does. -/
def firstPress? : Machine → List Action → Option Key
  | _, [] => none
  | m, action :: actions =>
    let next := (m.perform action).machine
    (m.keypad.firstPressed? next.keypad).or (next.firstPress? actions)

theorem firstPress?_append
    (m : Machine) (first second : List Action) :
    m.firstPress? (first ++ second) =
      (m.firstPress? first).or ((m.performAll first).machine.firstPress? second) := by
  induction first generalizing m with
  | nil => rfl
  | cons action first ih =>
      rw [List.cons_append, firstPress?, firstPress?, ih, Option.or_assoc]
      rfl

theorem perform_of_movesKeys
    (m : Machine) {action : Action} (h : action.movesKeys = true) :
    ∃ keypad : Keypad,
      keypad.latch = m.keypad.latch.offer? (m.keypad.firstPressed? keypad) ∧
        m.perform action = answer .done { m with keypad := keypad } := by
  cases action with
  | press key => exact ⟨_, m.keypad.latch_press key, rfl⟩
  | release key => exact ⟨_, m.keypad.latch_release key, rfl⟩
  | setKey key isHeld => exact ⟨_, m.keypad.latch_setKey key isHeld, rfl⟩
  | pollKeys held => exact ⟨_, m.keypad.latch_update held, rfl⟩
  | _ => cases h

/-! ## Standing still -/

/-- While a key press is waited for that `start` asked for, to be put into `x`: nothing has moved
but the keys and the timers, which have counted down `ticks` times, and the latch has caught
`press` if there was one. -/
structure Waits (start : Machine) (x : Register) (press : Option Key) (ticks : Nat)
    (m : Machine) : Prop where
  still :
    m =
      { start with
        keypad := m.keypad
        mode := .awaitingKey x
        delay := m.delay
        sound := m.sound }
  latch : m.keypad.latch = Latch.armed.offer? press
  delay : m.delay.toNat = start.delay.toNat - ticks
  sound : m.sound.toNat = start.sound.toNat - ticks

/-- After a wait that `start` asked for: register `x` holds the key, the program goes on behind the
instruction, nobody listens to the keys of `keypad` any more, and nothing else has changed but the
timers, which have counted down `ticks` times. -/
structure Resumed (start : Machine) (x : Register) (key : Key) (keypad : Keypad) (ticks : Nat)
    (m : Machine) : Prop where
  moved :
    m =
      { start with
        v := (start.setRegister x (UInt8.ofNat key.val)).v
        pc := start.pc + 2
        keypad := keypad.stopListening
        mode := .running
        delay := m.delay
        sound := m.sound }
  delay : m.delay.toNat = start.delay.toNat - ticks
  sound : m.sound.toNat = start.sound.toNat - ticks

variable {start m : Machine} {x : Register} {press : Option Key} {ticks : Nat}

theorem Waits.mode (h : start.Waits x press ticks m) : m.mode = .awaitingKey x := by
  rw [h.still]

theorem Waits.tick
    (h : start.Waits x press ticks m) :
    start.Waits x press (ticks + 1) m.tick.machine where
  still := by
    rw [h.still]
    rfl
  latch := h.latch
  delay := by
    rw [toNat_delay_tick, h.delay, Nat.sub_sub]
  sound := by
    rw [toNat_sound_tick, h.sound, Nat.sub_sub]

theorem Waits.moveKeys
    (h : start.Waits x press ticks m) {keypad : Keypad} {pressed : Option Key}
    (hlatch : keypad.latch = m.keypad.latch.offer? pressed) :
    start.Waits x (press.or pressed) ticks { m with keypad := keypad } where
  still := by
    rw [h.still]
  latch := by
    rw [hlatch, h.latch, Latch.offer?_offer?]
  delay := h.delay
  sound := h.sound

theorem Resumed.tick
    {key : Key} {keypad : Keypad} (h : start.Resumed x key keypad ticks m) :
    start.Resumed x key keypad (ticks + 1) m.tick.machine where
  moved := by
    rw [h.moved]
    rfl
  delay := by
    rw [toNat_delay_tick, h.delay, Nat.sub_sub]
  sound := by
    rw [toNat_sound_tick, h.sound, Nat.sub_sub]

theorem endsTone_of_mem_tick_events
    {event : Event} (h : event ∈ m.tick.events) :
    event.endsTone = true := by
  have hevents :
      m.tick.events = if m.sound = 1 then [.note .toneEnded, .tone .stop] else [] := rfl
  rw [hevents] at h
  by_cases hone : m.sound = 1
  · rw [if_pos hone, List.mem_cons, List.mem_singleton] at h
    rcases h with rfl | rfl <;> rfl
  · rw [if_neg hone] at h
    cases h

/-- A wait begins with the step that carries out the instruction, whatever keys are down. -/
theorem waits_of_next?
    (hnext : m.next? = some (.register .waitKey x))
    {action : Action} (hruns : action.runs = true) :
    m.Waits x none action.ticks (m.perform action).machine := by
  obtain ⟨word, -, hstep⟩ := step_of_next? hnext
  have hok : m.step.answer = .ok (some (.register .waitKey x)) := by rw [hstep]; rfl
  have hwaits : m.Waits x none 0 m.step.machine := by
    rw [hstep]
    exact ⟨rfl, rfl, rfl, rfl⟩
  have h := perform_of_runs hruns hok hwaits fun _ hm => hm.tick
  rwa [Nat.zero_add] at h

/-- What is known of a request during a wait: the wait goes on with the press, if the request
brought one and there was none before, and the host is told of no instruction. -/
def Waits.Continues
    (start : Machine) (x : Register) (press : Option Key) (ticks : Nat)
    (m : Machine) (action : Action) : Prop :=
  let next := (m.perform action).machine
  start.Waits x (press.or (m.keypad.firstPressed? next.keypad)) (ticks + action.ticks) next ∧
    (m.perform action).answer = action.report (.ok none) ∧
    ∀ event ∈ (m.perform action).events, event.endsTone = true

theorem Waits.continues_of_movesKeys
    (h : start.Waits x press ticks m) {action : Action} (hmoves : action.movesKeys = true) :
    Waits.Continues start x press ticks m action := by
  obtain ⟨keypad, hlatch, hperform⟩ := m.perform_of_movesKeys hmoves
  have hquiet : action.ticks = 0 ∧ action.report (.ok none) = .done := by
    cases action <;> first | exact ⟨rfl, rfl⟩ | cases hmoves
  unfold Waits.Continues
  rw [hperform, hquiet.1, hquiet.2]
  refine ⟨h.moveKeys hlatch, rfl, ?_⟩
  intro event hevent
  cases hevent

/-- The keys stay where they are when nothing is done but counting down. -/
theorem Waits.continues_of_keypad_eq
    {action : Action}
    (hkeypad : (m.perform action).machine.keypad = m.keypad)
    (hwaits : start.Waits x press (ticks + action.ticks) (m.perform action).machine)
    (hanswer : (m.perform action).answer = action.report (.ok none))
    (hevents : ∀ event ∈ (m.perform action).events, event.endsTone = true) :
    Waits.Continues start x press ticks m action := by
  refine ⟨?_, hanswer, hevents⟩
  rw [hkeypad, Keypad.firstPressed?_self, Option.or_none]
  exact hwaits

theorem Waits.continues_of_runs
    (h : start.Waits x none ticks m) {action : Action} (hruns : action.runs = true) :
    Waits.Continues start x none ticks m action := by
  have hlatch : ∀ key, m.keypad.latch ≠ .caught key := by
    simp [h.latch, Latch.offer?]
  have hstep := step_of_waiting h.mode hlatch
  cases action with
  | step =>
      have hperform : m.perform .step = ⟨.done, m, []⟩ := by
        rw [perform, hstep]
        rfl
      apply continues_of_keypad_eq <;> rw [hperform]
      · exact h
      · rfl
      · intro event hevent
        cases hevent
  | cycle =>
      have hperform :
          m.perform .cycle = ⟨.cycled (.ok none), m.tick.machine, m.tick.events⟩ := by
        simp [perform, cycle, hstep]
      apply continues_of_keypad_eq <;> rw [hperform]
      · rfl
      · exact h.tick
      · rfl
      · exact fun event => endsTone_of_mem_tick_events
  | _ => cases hruns

/-- A request during a wait that has caught nothing yet changes only what the wait allows. -/
theorem Waits.continues
    (h : start.Waits x press ticks m)
    {action : Action} (hambient : action.isAmbient = true)
    (hpress : action.runs = true → press = none) :
    Waits.Continues start x press ticks m action := by
  cases action with
  | press | release | setKey | pollKeys => exact h.continues_of_movesKeys rfl
  | tick =>
      exact continues_of_keypad_eq rfl h.tick rfl fun event => endsTone_of_mem_tick_events
  | cycle | step =>
      have hnone := hpress rfl
      subst hnone
      exact h.continues_of_runs rfl
  | _ => cases hambient

/-- The wait outlasts any number of requests, as long as the program is not run again once a press
has been caught. -/
theorem Waits.performAll
    (h : start.Waits x press ticks m) {actions : List Action}
    (hambient : ∀ action ∈ actions, action.isAmbient = true)
    (hpress :
      press.or (m.firstPress? actions) = none ∨ ∀ action ∈ actions, action.runs = false) :
    let result := m.performAll actions
    start.Waits x (press.or (m.firstPress? actions)) (ticks + (actions.map Action.ticks).sum)
        result.machine ∧
      result.answer = actions.map (·.report (.ok none)) ∧
      ∀ event ∈ result.events, event.endsTone = true := by
  induction actions generalizing m press ticks with
  | nil =>
      refine ⟨?_, rfl, fun event hevent => by cases hevent⟩
      rw [firstPress?, Option.or_none]
      exact h
  | cons action actions ih =>
      rw [List.forall_mem_cons] at hambient hpress
      rw [firstPress?, ← Option.or_assoc] at hpress
      -- A request that runs the program comes only while nothing has been caught.
      have hfirst : action.runs = true → press = none := by
        intro hruns
        rcases hpress with hnone | hquiet
        · rw [Option.or_assoc, Option.or_eq_none_iff] at hnone
          exact hnone.1
        · rw [hquiet.1] at hruns
          cases hruns
      obtain ⟨hwaits, hanswer, hevents⟩ := h.continues hambient.1 hfirst
      obtain ⟨hwaits', hanswers, hevents'⟩ :=
        ih hwaits hambient.2 (hpress.imp_right And.right)
      refine ⟨?_, ?_, ?_⟩
      · rw [firstPress?, ← Option.or_assoc, List.map_cons, List.sum_cons, ← Nat.add_assoc]
        exact hwaits'
      · rw [performAll_cons, List.map_cons, hanswer, hanswers]
      · intro event hevent
        rw [performAll_cons, List.mem_append] at hevent
        rcases hevent with hevent | hevent
        · exact hevents event hevent
        · exact hevents' event hevent

/-- The wait also outlasts requests of which the last ones bring presses, but do not run the
program. -/
theorem Waits.performAll_append
    (h : start.Waits x none ticks m) {before between : List Action}
    (hbefore : ∀ action ∈ before, action.isAmbient = true)
    (hbetween : ∀ action ∈ between, action.isAmbient = true ∧ action.runs = false)
    (hnone : m.firstPress? before = none) :
    let result := m.performAll (before ++ between)
    start.Waits x (m.firstPress? (before ++ between))
        (ticks + ((before ++ between).map Action.ticks).sum) result.machine ∧
      result.answer = (before ++ between).map (·.report (.ok none)) ∧
      ∀ event ∈ result.events, event.endsTone = true := by
  obtain ⟨hwaits, hanswers, hevents⟩ := h.performAll hbefore (.inl hnone)
  rw [hnone] at hwaits
  obtain ⟨hwaits', hanswers', hevents'⟩ :=
    hwaits.performAll (fun action haction => (hbetween action haction).1)
      (.inr fun action haction => (hbetween action haction).2)
  rw [firstPress?_append, hnone, Machine.performAll_append]
  refine ⟨?_, ?_, ?_⟩
  · rw [List.map_append, List.sum_append, ← Nat.add_assoc]
    exact hwaits'
  · rw [List.map_append]
    exact congrArg₂ (· ++ ·) hanswers hanswers'
  · intro event hevent
    rcases List.mem_append.mp hevent with hevent | hevent
    · exact hevents event hevent
    · exact hevents' event hevent

/-- The first cycle or step after a press ends the wait with that press. -/
theorem Waits.resumes
    {key : Key} (h : start.Waits x (some key) ticks m)
    {action : Action} (hruns : action.runs = true) :
    start.Resumed x key m.keypad (ticks + action.ticks) (m.perform action).machine ∧
      (m.perform action).answer = action.report (.ok none) := by
  have hstep := step_of_caught h.mode h.latch
  have hok : m.step.answer = .ok none := by rw [hstep]
  have hresumed : start.Resumed x key m.keypad ticks m.step.machine := by
    rw [hstep]
    refine ⟨?_, h.delay, h.sound⟩
    rw [h.still]
    rfl
  constructor
  · exact perform_of_runs hruns hok hresumed fun _ hm => hm.tick
  · rw [perform_answer_of_runs hruns, hok]

/-- The key-wait protocol.  Mode and latch agree in every history.  From the moment when a cycle or
a step carries out the instruction that waits, the machine stands still: requests to run it are
answered with no instruction and no fault, and neither is a word fetched nor anything told but the
end of a tone, until after a key that was up goes down.  The next request to run it then puts the
first such key into the register and goes on behind the instruction, whatever became of the keys
since. -/
theorem key_wait_protocol :
    (∀ e : Emulator, e.Reachable Action.sparesKeypad →
      (e.machine.mode ≠ .running ↔ e.machine.keypad.latch.isListening = true) ∧
        ∀ key, e.machine.keypad.latch = .caught key →
          e.machine.keypad.latch.isListening = true) ∧
    ∀ (m : Machine) (x : Register), m.next? = some (.register .waitKey x) →
      ∀ opening : Action, opening.runs = true →
      ∀ before between : List Action,
        (∀ action ∈ before, action.isAmbient = true) →
        (∀ action ∈ between, action.isAmbient = true ∧ action.runs = false) →
        let waiting := (m.perform opening).machine
        let waited := waiting.performAll (before ++ between)
        let ticks := ((opening :: before ++ between).map Action.ticks).sum
        waiting.firstPress? before = none →
          m.Waits x (waiting.firstPress? (before ++ between)) ticks waited.machine ∧
          waited.answer = (before ++ between).map (·.report (.ok none)) ∧
          (∀ event ∈ waited.events, event.endsTone = true) ∧
          ∀ key, waiting.firstPress? (before ++ between) = some key →
            ∀ closing : Action, closing.runs = true →
              m.Resumed x key waited.machine.keypad (ticks + closing.ticks)
                  (waited.machine.perform closing).machine ∧
                (waited.machine.perform closing).answer = closing.report (.ok none) := by
  constructor
  · intro e h
    refine ⟨modeAgrees_of_reachable h, ?_⟩
    intro key hlatch
    rw [hlatch]
    rfl
  · intro m x hnext opening hopening before between hbefore hbetween waiting waited ticks hnone
    have hopened : m.Waits x none opening.ticks waiting := waits_of_next? hnext hopening
    obtain ⟨hwaits, hanswers, hevents⟩ := hopened.performAll_append hbefore hbetween hnone
    refine ⟨hwaits, hanswers, hevents, ?_⟩
    intro key hkey closing hclosing
    rw [hkey] at hwaits
    exact hwaits.resumes hclosing

/-- Key 5 is held when the wait begins, is let go and does not count.  Of the keys 7 and 2, which go
down in one poll, the first one counts, and it does so although it is up again when the program
is run. -/
theorem key_wait_of_held_and_released_keys :
    let e := ((Emulator.powerOn (Random.Stream.ofSeed 0) none).2.perform (.load [0xF1, 0x0A])).2
    let m := (e.machine.perform (.press 5)).machine
    let before : List Action := [.press 5, .cycle, .release 5, .tick]
    let between : List Action := [.pollKeys [7, 2], .release 2]
    let waiting := (m.perform .cycle).machine
    let waited := (waiting.performAll (before ++ between)).machine
    (e.machine.mode ≠ .running ↔ e.machine.keypad.latch.isListening = true) ∧
      m.next? = some (.register .waitKey 1) ∧
      waiting.firstPress? before = none ∧
      m.Waits 1 (some 2) 3 waited ∧
      m.Resumed 1 2 waited.keypad 3 (waited.perform .step).machine := by
  intro e m before between waiting waited
  have hreachable : e.Reachable Action.sparesKeypad := .perform (.powerOn _ _) rfl
  have hnext : m.next? = some (.register .waitKey 1) := by decide +kernel
  have hnone : waiting.firstPress? before = none := by decide +kernel
  have hsome : waiting.firstPress? (before ++ between) = some 2 := by decide +kernel
  obtain ⟨hagrees, hprotocol⟩ := key_wait_protocol
  obtain ⟨hwaits, -, -, hresumed⟩ :=
    hprotocol m 1 hnext .cycle rfl before between (by decide) (by decide) hnone
  rw [hsome] at hwaits
  exact ⟨(hagrees e hreachable).1, hnext, hnone, hwaits, (hresumed 2 hsome .step rfl).1⟩

end Machine

end Chip8
