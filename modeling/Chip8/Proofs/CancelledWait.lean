import Chip8.Proofs.Executed
import Chip8.Proofs.KeyWait
import Chip8.Proofs.Unread

/-!
# Cancelled waits

A wait for a key shows in two places, the mode of the machine and the latch of its keypad, and a
cancellation brings both back.  `Machine.withoutWait` is the machine as if nobody waited.  Moving
keys and counting down the timers comes to the same with a wait and without, so a wait that is
cancelled leaves what there would be without it.  Nor does the latch remember: what it has caught in
the end is a key that went down since it was armed.
-/

namespace Chip8

namespace Keypad

variable (p : Keypad)

/-! ## Keys that nobody waits for -/

theorem press_stopListening
    (key : Key) :
    p.stopListening.press key = (p.press key).stopListening := by
  have hoffer : Latch.idle.offer key = .idle := rfl
  simp only [press, stopListening, hoffer, ite_self]

theorem setKey_stopListening
    (key : Key) (isHeld : Bool) :
    p.stopListening.setKey key isHeld = (p.setKey key isHeld).stopListening := by
  cases isHeld
  · rfl
  · exact p.press_stopListening key

theorem updateKeys_stopListening
    (held keys : List Key) :
    p.stopListening.updateKeys held keys = (p.updateKeys held keys).stopListening := by
  induction keys generalizing p with
  | nil => rfl
  | cons key keys ih => rw [updateKeys_cons, setKey_stopListening, ih, updateKeys_cons]

theorem update_stopListening
    (held : List Key) :
    p.stopListening.update held = (p.update held).stopListening :=
  p.updateKeys_stopListening held Key.all

theorem stopListening_of_idle
    {p : Keypad} (h : p.latch = .idle) :
    p.stopListening = p := by
  rw [stopListening, ← h]

theorem of_firstPressed?_eq_some
    {before after : Keypad} {key : Key} (h : before.firstPressed? after = some key) :
    before.isDown key.val = false ∧ after.isDown key.val = true := by
  simpa using List.find?_some h

end Keypad

namespace Latch

/-- What is caught after an offer had been caught before or is what was offered. -/
theorem eq_some_of_caught?_offer?
    {latch : Latch} {press : Option Key} {key : Key}
    (h : (latch.offer? press).caught? = some key) :
    latch.caught? = some key ∨ press = some key := by
  cases press with
  | none => exact .inl h
  | some other =>
      cases latch with
      | armed => exact .inr h
      | _ => exact .inl h

end Latch

namespace Machine

/-- The machine as if nobody waited for a key. -/
def withoutWait (m : Machine) : Machine :=
  { m with keypad := m.keypad.stopListening, mode := .running }

/-- The machine when a wait for a key has begun that is to go to register `x`. -/
def waitingFor (m : Machine) (x : Register) : Machine :=
  { m with keypad := m.keypad.listen, mode := .awaitingKey x }

/-- A key goes from up to down in the course of some requests. -/
def Presses (m : Machine) (actions : List Action) (key : Key) : Prop :=
  ∃ before action after, actions = before ++ action :: after ∧
    let prior := (m.performAll before).machine
    prior.keypad.isDown key.val = false ∧
      (prior.perform action).machine.keypad.isDown key.val = true

/-- A wait that begins later on ends, when a cycle or a step ends it, with a key that has gone down
since then. -/
def WaitsForNewPresses (m : Machine) : Prop :=
  ∀ (between : List Action) (opening : Action) (x : Register)
    (during : List Action) (closing : Action),
    let later := (m.performAll between).machine
    let waiting := (later.perform opening).machine
    let waited := (waiting.performAll during).machine
    let resumed := (waited.perform closing).machine
    later.executed? opening = some (.register .waitKey x) →
      (∀ action ∈ during, action.sparesKeypad = true) →
      closing.runs = true →
      waited.mode = .awaitingKey x →
      resumed.mode = .running →
      ∃ key, resumed.register x = UInt8.ofNat key.val ∧ waiting.Presses during key

variable {m : Machine} {x : Register} {key : Key} {action : Action} {actions : List Action}

/-! ## Requests with a wait and without -/

theorem perform_withoutWait
    (m : Machine) (hambient : action.isAmbient = true) (hruns : action.runs = false) :
    m.withoutWait.perform action = (m.perform action).mapMachine withoutWait := by
  cases action with
  | press key => simp only [perform, answer, withoutWait, Keypad.press_stopListening]; rfl
  | release key => rfl
  | setKey key isHeld => simp only [perform, answer, withoutWait, Keypad.setKey_stopListening]; rfl
  | pollKeys held => simp only [perform, answer, withoutWait, Keypad.update_stopListening]; rfl
  | tick => rfl
  | cycle | step => cases hruns
  | _ => cases hambient

theorem performAll_withoutWait
    (m : Machine)
    (hactions : ∀ action ∈ actions, action.isAmbient = true ∧ action.runs = false) :
    m.withoutWait.performAll actions = (m.performAll actions).mapMachine withoutWait := by
  induction actions generalizing m with
  | nil => rfl
  | cons action actions ih =>
      rw [List.forall_mem_cons] at hactions
      have hfirst := m.perform_withoutWait hactions.1.1 hactions.1.2
      have hothers := ih (m.perform action).machine hactions.2
      rw [performAll_cons, performAll_cons, hfirst]
      simp only [Outcome.mapMachine, hothers]

/-! ## Where a caught press comes from -/

theorem execute_keypad_cases
    {i : Instruction Register} {e : Effect} (h : m.execute i = .ok e) :
    e.machine.keypad = m.keypad ∨ e.machine.keypad.latch.caught? = none := by
  by_cases hwait : ∃ x, i = .register .waitKey x
  · obtain ⟨x, rfl⟩ := hwait
    cases h
    exact .inr rfl
  · exact .inl ((execute_frame h).keypad fun x heq => hwait ⟨x, heq⟩)

theorem step_keypad_cases
    (m : Machine) :
    m.step.machine.keypad = m.keypad ∨ m.step.machine.keypad.latch.caught? = none := by
  have hstep := m.stepped_step
  generalize m.step = stepped at hstep ⊢
  cases hstep with
  | resolved => exact .inr rfl
  | executed _ _ _ hexecute => exact execute_keypad_cases hexecute
  | _ => exact .inl rfl

/-- A request that moves no keys leaves the keypad alone or forgets what was caught. -/
theorem perform_keypad_cases
    (m : Machine) (hspares : action.sparesKeypad = true) (hmoves : action.movesKeys = false) :
    (m.perform action).machine.keypad = m.keypad ∨
      (m.perform action).machine.keypad.latch.caught? = none := by
  cases action with
  | reset => exact .inr rfl
  | load program =>
      left
      apply attempt_induction (P := fun n => n.keypad = m.keypad) rfl
      intro e hload
      rw [load_eq_ok hload]
  | cycle | step =>
      rw [m.perform_eq_step_of_runs (f := Machine.keypad) (fun _ => rfl) rfl]
      exact m.step_keypad_cases
  | execute i =>
      apply attempt_induction
        (P := fun n => n.keypad = m.keypad ∨ n.keypad.latch.caught? = none) (.inl rfl)
      intro e hexecute
      exact execute_keypad_cases hexecute
  | cancelWait =>
      rcases m.cancelWait_cases with ⟨-, hcancel⟩ | ⟨x, -, hcancel⟩
      · left
        simp only [perform, hcancel]
      · right
        simp only [perform, hcancel]
        rfl
  | keypad => cases hspares
  | press | release | setKey | pollKeys => cases hmoves
  | _ => exact .inl rfl

/-- What is caught after a request had been caught before or goes down with the request. -/
theorem caught?_perform_cases
    (hspares : action.sparesKeypad = true)
    (h : (m.perform action).machine.keypad.latch.caught? = some key) :
    m.keypad.latch.caught? = some key ∨
      (m.keypad.isDown key.val = false ∧
        (m.perform action).machine.keypad.isDown key.val = true) := by
  by_cases hmoves : action.movesKeys = true
  · obtain ⟨keypad, hlatch, hperform⟩ := m.perform_of_movesKeys hmoves
    rw [hperform] at h ⊢
    change keypad.latch.caught? = some key at h
    rw [hlatch] at h
    exact (Latch.eq_some_of_caught?_offer? h).imp_right Keypad.of_firstPressed?_eq_some
  · rcases m.perform_keypad_cases hspares (Bool.eq_false_of_not_eq_true hmoves) with
      hkeypad | hnone
    · rw [hkeypad] at h
      exact .inl h
    · rw [hnone] at h
      cases h

theorem Presses.cons
    (h : (m.perform action).machine.Presses actions key) :
    m.Presses (action :: actions) key := by
  obtain ⟨before, pressing, after, rfl, hpressed⟩ := h
  exact ⟨action :: before, pressing, after, rfl, hpressed⟩

theorem presses_of_caught?
    (hspares : ∀ action ∈ actions, action.sparesKeypad = true)
    (h : (m.performAll actions).machine.keypad.latch.caught? = some key) :
    m.keypad.latch.caught? = some key ∨ m.Presses actions key := by
  induction actions generalizing m with
  | nil => exact .inl h
  | cons action actions ih =>
      rw [List.forall_mem_cons] at hspares
      rcases ih hspares.2 h with hcaught | hpresses
      · refine (caught?_perform_cases hspares.1 hcaught).imp_right ?_
        intro hpressed
        exact ⟨[], action, actions, rfl, hpressed⟩
      · exact .inr hpresses.cons

/-- A wait that a cycle or a step ends puts a press into the register that the latch has caught. -/
theorem caught?_of_resumes
    (hmode : m.mode = .awaitingKey x) (hruns : action.runs = true)
    (hresumes : (m.perform action).machine.mode = .running) :
    ∃ key, m.keypad.latch.caught? = some key ∧
      (m.perform action).machine.register x = UInt8.ofNat key.val := by
  rw [m.perform_eq_step_of_runs (f := Machine.mode) (fun _ => rfl) hruns] at hresumes
  rw [m.perform_eq_step_of_runs (f := (register · x)) (fun _ => rfl) hruns]
  by_cases hcaught : ∃ key, m.keypad.latch = .caught key
  · obtain ⟨key, hlatch⟩ := hcaught
    refine ⟨key, by rw [hlatch, Latch.caught?], ?_⟩
    rw [step_of_caught hmode hlatch]
    exact (m.register_setRegister x x _).trans (if_pos rfl)
  · rw [step_of_waiting hmode fun key h => hcaught ⟨key, h⟩, hmode] at hresumes
    cases hresumes

/-! ## From the instruction to the cancellation -/

theorem next?_of_step_answer
    {i : Instruction Register} (h : m.step.answer.toOption.join = some i) :
    m.next? = some i := by
  have hstep := m.stepped_step
  generalize m.step = stepped at h hstep
  cases hstep with
  | executed hmode hfetch hword =>
      cases h
      exact next?_eq_some_iff.mpr ⟨hmode, _, hfetch, hword⟩
  | _ => cases h

/-- However the instruction is carried out, the wait has begun, and with it the tick of a cycle has
passed if it was a cycle. -/
theorem perform_of_executed?_waitKey
    (h : m.executed? action = some (.register .waitKey x)) :
    let ticked := (m.waitingFor x).performAll (List.replicate action.ticks .tick)
    (m.perform action).machine = ticked.machine ∧
      (m.perform action).events.filterMap Event.tone? = ticked.events.filterMap Event.tone? := by
  by_cases hruns : action.runs = true
  · rw [executed?_of_runs hruns] at h
    obtain ⟨word, -, hstep⟩ := step_of_next? (next?_of_step_answer h)
    cases action with
    | cycle =>
        have hok : m.step.answer = .ok (some (.register .waitKey x)) := by rw [hstep]; rfl
        have hticked :
            (m.waitingFor x).performAll (List.replicate Action.cycle.ticks .tick) =
              ⟨[.done], (m.waitingFor x).tick.machine, (m.waitingFor x).tick.events ++ []⟩ :=
          rfl
        rw [hticked, List.append_nil]
        simp only [perform, cycle_of_ok hok, hstep]
        exact ⟨rfl, rfl⟩
    | step =>
        simp only [perform, hstep]
        exact ⟨rfl, rfl⟩
    | _ => cases hruns
  · cases action with
    | execute i =>
        cases hexecute : m.execute i with
        | ok e =>
            simp only [executed?, hexecute] at h
            cases h
            cases hexecute
            exact ⟨rfl, rfl⟩
        | error fault =>
            simp only [executed?, hexecute] at h
            cases h
    | cycle | step => exact absurd rfl hruns
    | _ => cases h

/-- Nothing but a press puts a key into the latch once it has been armed. -/
theorem waitsForNewPresses (m : Machine) : m.WaitsForNewPresses := by
  intro between opening x during closing later waiting waited resumed
    hopening hspares hruns hmode hresumes
  obtain ⟨key, hcaught, hregister⟩ := caught?_of_resumes hmode hruns hresumes
  obtain ⟨e, hexecute, hlistens⟩ :=
    perform_of_executed? (f := Machine.keypad) (fun _ => rfl) hopening
  cases hexecute
  change waiting.keypad = later.keypad.listen at hlistens
  rcases presses_of_caught? hspares hcaught with hearlier | hpresses
  · rw [hlistens] at hearlier
    cases hearlier
  · exact ⟨key, hregister, hpresses⟩

/-- A wait that has just begun is all that the machine has gained. -/
theorem withoutWait_waitingFor
    (hmode : m.mode = .running) (hagrees : m.ModeAgrees) :
    (m.waitingFor x).withoutWait = m := by
  have hidle : m.keypad.latch = .idle := by
    cases hlatch : m.keypad.latch with
    | idle => rfl
    | _ => exact absurd hmode (hagrees.mpr (by rw [hlatch]; rfl))
  calc (m.waitingFor x).withoutWait
      = { m with keypad := m.keypad.stopListening, mode := .running } := rfl
    _ = m := by rw [Keypad.stopListening_of_idle hidle, ← hmode]

/-- After a cancellation there is nothing more to cancel. -/
theorem cancelWait_cancelWait
    (m : Machine) :
    m.cancelWait.machine.cancelWait = ⟨false, m.cancelWait.machine, []⟩ := by
  rcases m.cancelWait_cases with ⟨-, hcancel⟩ | ⟨x, -, hcancel⟩
  · rw [hcancel]
    exact hcancel
  · rw [hcancel]
    rfl

theorem cancelWait_of_awaitingKey
    (hmode : m.mode = .awaitingKey x) :
    m.cancelWait =
      ⟨true, { m.withoutWait with pc := m.pc + 2 }, [.note (.cancelled x)]⟩ := by
  simp only [cancelWait, hmode]
  rfl

/-- Keys that move and time that passes between the beginning of a wait and its cancellation come to
the same without the wait, but for the place where the program goes on. -/
theorem cancelWait_performAll_waitingFor
    (hmode : m.mode = .running) (hagrees : m.ModeAgrees)
    (hactions : ∀ action ∈ actions, action.isAmbient = true ∧ action.runs = false) :
    let waited := (m.waitingFor x).performAll actions
    let plain := m.performAll actions
    waited.events = plain.events ∧
      waited.machine.cancelWait =
        ⟨true, { plain.machine with pc := m.pc + 2 }, [.note (.cancelled x)]⟩ := by
  intro waited plain
  have hplain : plain = waited.mapMachine withoutWait := by
    rw [← performAll_withoutWait _ hactions, withoutWait_waitingFor hmode hagrees]
  have hbegun : m.Waits x none 0 (m.waitingFor x) := ⟨rfl, rfl, rfl, rfl⟩
  have hwaits := (hbegun.performAll (fun action haction => (hactions action haction).1)
    (.inr fun action haction => (hactions action haction).2)).1
  have hpc : waited.machine.pc = m.pc := by rw [hwaits.still]
  constructor
  · rw [hplain]
    rfl
  · rw [hplain, ← hpc]
    exact cancelWait_of_awaitingKey hwaits.mode

/-- A cancelled wait leaves no trace.  Whatever keys have moved and however much time has passed,
the machine and what the speaker has heard are as they would be without the instruction that waits,
but that the program goes on behind it.  A second cancellation finds nothing to cancel, and no wait
that begins later ends with a key that went down before it. -/
theorem cancelled_wait_leaves_no_trace
    {e : Emulator} (h : e.Reachable Action.sparesKeypad)
    (hrunning : e.machine.mode = .running)
    {opening : Action} {x : Register}
    (hopening : e.machine.executed? opening = some (.register .waitKey x))
    {actions : List Action}
    (hactions : ∀ action ∈ actions, action.isAmbient = true ∧ action.runs = false) :
    let m := e.machine
    let waiting := m.perform opening
    let waited := waiting.machine.performAll actions
    let cancelled := waited.machine.cancelWait
    let plain := m.performAll (List.replicate opening.ticks .tick ++ actions)
    cancelled.answer = true ∧
      cancelled.machine = { plain.machine with pc := m.pc + 2 } ∧
      (waiting.events ++ waited.events ++ cancelled.events).filterMap Event.tone? =
        plain.events.filterMap Event.tone? ∧
      cancelled.machine.cancelWait = ⟨false, cancelled.machine, []⟩ ∧
      cancelled.machine.WaitsForNewPresses := by
  intro m waiting waited cancelled plain
  obtain ⟨hmachine, htones⟩ := perform_of_executed?_waitKey hopening
  have hall : ∀ action ∈ List.replicate opening.ticks Action.tick ++ actions,
      action.isAmbient = true ∧ action.runs = false := by
    intro action haction
    rcases List.mem_append.mp haction with htick | haction
    · rw [List.eq_of_mem_replicate htick]
      exact ⟨rfl, rfl⟩
    · exact hactions action haction
  obtain ⟨hevents, hcancel⟩ :=
    cancelWait_performAll_waitingFor (x := x) hrunning (modeAgrees_of_reachable h) hall
  -- The requests after the opening one are the same, whether its tick is one of them or not.
  rw [performAll_append, ← hmachine] at hevents hcancel
  have hcancelled : cancelled =
      ⟨true, { plain.machine with pc := m.pc + 2 }, [.note (.cancelled x)]⟩ := hcancel
  have hheard : (waiting.events ++ waited.events ++ cancelled.events).filterMap Event.tone? =
      plain.events.filterMap Event.tone? := by
    rw [hcancelled, ← hevents, List.filterMap_append, List.filterMap_append,
      List.filterMap_append, htones]
    exact List.append_nil _
  exact ⟨by rw [hcancelled], by rw [hcancelled], hheard, waited.machine.cancelWait_cancelWait,
    cancelled.machine.waitsForNewPresses⟩

/-- Keys 3 and 5 go down during a wait that is cancelled, and 5 stays down.  The next wait outlasts
a step, and ends with key 5 only when it has gone up and down again. -/
theorem cancelled_wait_with_a_held_key :
    let e := ((Emulator.powerOn (Random.Stream.ofSeed 0) none).2.perform
      (.load [0xF1, 0x0A, 0xF2, 0x0A])).2
    let actions : List Action := [.press 3, .tick, .pollKeys [3, 5], .release 3]
    let cancelled := ((e.machine.perform .cycle).machine.performAll actions).machine.cancelWait
    let plain := (e.machine.performAll (.tick :: actions)).machine
    let waiting := (cancelled.machine.perform .cycle).machine
    let during : List Action := [.step, .release 5, .press 5]
    let resumed := ((waiting.performAll during).machine.perform .step).machine
    cancelled.machine = { plain with pc := 0x202 } ∧
      (waiting.perform .step).machine.mode = .awaitingKey 2 ∧
      resumed.register 2 = 5 ∧
      ∃ key, resumed.register 2 = UInt8.ofNat key.val ∧ waiting.Presses during key := by
  intro e actions cancelled plain waiting during resumed
  have hreachable : e.Reachable Action.sparesKeypad := .perform (.powerOn _ _) rfl
  have hactions : ∀ action ∈ actions, action.isAmbient = true ∧ action.runs = false := by decide
  obtain ⟨hopening, hreopening, hwaits, hwaited, hresumed, hregister⟩ :
      e.machine.executed? .cycle = some (.register .waitKey 1) ∧
        cancelled.machine.executed? .cycle = some (.register .waitKey 2) ∧
        (waiting.perform .step).machine.mode = .awaitingKey 2 ∧
        (waiting.performAll during).machine.mode = .awaitingKey 2 ∧
        resumed.mode = .running ∧
        resumed.register 2 = 5 := by
    decide +kernel
  obtain ⟨-, hmachine, -, -, hnew⟩ :=
    cancelled_wait_leaves_no_trace hreachable rfl hopening hactions
  have hpresses := hnew [] .cycle 2 during .step hreopening (by decide) rfl hwaited hresumed
  exact ⟨hmachine, hwaits, hregister, hpresses⟩

end Machine

end Chip8
