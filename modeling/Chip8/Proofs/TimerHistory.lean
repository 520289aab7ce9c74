import Chip8.Proofs.Executed
import Chip8.Proofs.Since

/-!
# The timers as functions of the history

A timer remembers of its history only to what it was last set since the last reset, and how often it
was counted down since then.  It makes no difference who counted: a host that paces the timers
itself, or cycles, and among these also those that wait for a key or pass over a word.
`performAll_timer` follows a timer through a history event by event, and `foldl_apply` shows what is
left of all these events in the end.
-/

namespace Chip8

inductive Timer where
  | delay
  | sound
deriving DecidableEq

/-- The operation that sets a timer. -/
def Timer.setter : Timer → RegisterOp
  | delay => .setDelay
  | sound => .setSound

/-- What can happen to a timer. -/
inductive TimerEvent where
  | reset
  | set (value : UInt8)
  | tick
deriving DecidableEq

namespace TimerEvent

/-- The value that a timer is set to by an instruction. -/
def value? : TimerEvent → Option UInt8
  | set value => some value
  | _ => none

/-- The value that a timer was last set to since the last reset. -/
def lastSet? (events : List TimerEvent) : Option UInt8 :=
  ((since reset events).filterMap value?).getLast?

/-- How often a timer was counted down since it was last set, or reset. -/
def ticksSince (events : List TimerEvent) : Nat :=
  ((since reset events).rtakeWhile (·.value? = none)).count tick

/-- What is left of the value that a timer was last set to.  Of a timer that was not set since the
last reset nothing is left. -/
def remaining (events : List TimerEvent) : Nat :=
  (lastSet? events).elim 0 fun value => value.toNat - ticksSince events

/-- The value of a timer after an event. -/
def apply (value : UInt8) : TimerEvent → UInt8
  | reset => 0
  | set value => value
  | tick => if value = 0 then 0 else value - 1

theorem remaining_concat_reset (events : List TimerEvent) : remaining (events ++ [reset]) = 0 := by
  rw [remaining, lastSet?, since_concat_self]
  rfl

theorem remaining_concat_set
    (events : List TimerEvent) (value : UInt8) :
    remaining (events ++ [set value]) = value.toNat := by
  have hlast : lastSet? (events ++ [set value]) = some value := by
    rw [lastSet?, since_concat (by simp), List.filterMap_append]
    exact List.getLast?_concat
  have hticks : ticksSince (events ++ [set value]) = 0 := by
    rw [ticksSince, since_concat (by simp), List.rtakeWhile_concat_neg _ _ _ (by simp [value?])]
    rfl
  rw [remaining, hlast, hticks]
  rfl

theorem remaining_concat_tick
    (events : List TimerEvent) :
    remaining (events ++ [tick]) = remaining events - 1 := by
  have hlast : lastSet? (events ++ [tick]) = lastSet? events := by
    rw [lastSet?, since_concat (by simp), List.filterMap_append]
    exact congrArg List.getLast? (List.append_nil _)
  have hticks : ticksSince (events ++ [tick]) = ticksSince events + 1 := by
    rw [ticksSince, since_concat (by simp), List.rtakeWhile_concat_pos _ _ _ (by simp [value?]),
      List.count_append]
    rfl
  rw [remaining, hlast, hticks, remaining]
  cases lastSet? events with
  | none => rfl
  | some value => exact Nat.sub_add_eq ..

/-- Of all that happens to a timer only the last setting and the ticks since then are left. -/
theorem foldl_apply
    (events : List TimerEvent) :
    (events.foldl apply 0).toNat = remaining events := by
  induction events using List.reverseRecOn with
  | nil => rfl
  | append_singleton events event ih =>
      rw [List.foldl_concat]
      cases event with
      | reset => rw [remaining_concat_reset]; rfl
      | set value => rw [remaining_concat_set]; rfl
      | tick => rw [remaining_concat_tick, ← ih]; exact Machine.toNat_countDown _

end TimerEvent

namespace Machine

def timer (m : Machine) : Timer → UInt8
  | .delay => m.delay
  | .sound => m.sound

/-- The value that an instruction sets a timer to, if it sets the timer. -/
def setting? (m : Machine) (t : Timer) : Instruction Register → Option UInt8
  | .register op x => if op = t.setter then some (m.register x) else none
  | _ => none

/-- What a request does to a timer.  A cycle that does not fail counts the timer down after its
instruction, if it carries one out, and even if that has just set the timer. -/
def timerEvents (m : Machine) (t : Timer) (action : Action) : List TimerEvent :=
  let settings := ((m.executed? action).bind (m.setting? t)).toList.map TimerEvent.set
  match action with
  | .reset => [.reset]
  | .tick => [.tick]
  | .cycle => if m.cycle.answer.isOk then settings ++ [.tick] else []
  | _ => settings

/-- What requests do to a timer, one after the other. -/
def timerHistory (m : Machine) (t : Timer) : List Action → List TimerEvent
  | [] => []
  | action :: actions => m.timerEvents t action ++ (m.perform action).machine.timerHistory t actions

variable {m : Machine} {t : Timer} {action : Action}

/-! ## One request -/

theorem execute_timer
    {i : Instruction Register} {e : Effect} (h : m.execute i = .ok e) :
    e.machine.timer t = (m.setting? t i).getD (m.timer t) := by
  by_cases hset : ∃ x, i = .register t.setter x
  · obtain ⟨x, rfl⟩ := hset
    cases t <;> cases h <;> rfl
  · have hne : ∀ x, i ≠ .register t.setter x := fun x heq => hset ⟨x, heq⟩
    have hnone : m.setting? t i = none := by
      unfold setting?
      split
      next op x =>
        have hop : op ≠ t.setter := by
          rintro rfl
          exact hne x rfl
        exact if_neg hop
      next => rfl
    rw [hnone]
    cases t with
    | delay => exact (execute_frame h).delay hne
    | sound => exact (execute_frame h).sound hne

theorem step_timer
    (m : Machine) (t : Timer) :
    m.step.machine.timer t =
      (m.step.answer.toOption.join.bind (m.setting? t)).getD (m.timer t) := by
  have hstep := m.stepped_step
  generalize m.step = stepped at hstep ⊢
  cases hstep with
  | executed _ _ _ hexecute => exact execute_timer hexecute
  | _ => cases t <;> rfl

theorem tick_timer
    (m : Machine) (t : Timer) :
    m.tick.machine.timer t = TimerEvent.apply (m.timer t) .tick := by
  cases t <;> rfl

theorem foldl_settings
    (setting : Option UInt8) (value : UInt8) :
    (setting.toList.map TimerEvent.set).foldl TimerEvent.apply value = setting.getD value := by
  cases setting <;> rfl

theorem timerEvents_cycle_of_ok
    {i : Option (Instruction Register)} (h : m.step.answer = .ok i) :
    m.timerEvents t .cycle =
      ((m.executed? .cycle).bind (m.setting? t)).toList.map TimerEvent.set ++ [.tick] := by
  simp only [timerEvents, cycle_answer, h, Except.isOk, Except.toBool, if_true]

theorem timerEvents_cycle_of_error
    {fault : Fault} (h : m.step.answer = .error fault) :
    m.timerEvents t .cycle = [] := by
  simp only [timerEvents, cycle_answer, h, Except.isOk, Except.toBool, Bool.false_eq_true, if_false]

theorem perform_timer
    (m : Machine) (t : Timer) (action : Action) :
    (m.perform action).machine.timer t =
      (m.timerEvents t action).foldl TimerEvent.apply (m.timer t) := by
  cases action with
  | cycle =>
      cases hanswer : m.step.answer with
      | ok i =>
          rw [timerEvents_cycle_of_ok hanswer, List.foldl_concat, foldl_settings]
          simp only [perform, cycle_of_ok hanswer, tick_timer, step_timer, executed?]
      | error fault =>
          rw [timerEvents_cycle_of_error hanswer]
          simp only [perform, cycle_of_error hanswer, List.foldl_nil]
  | step =>
      simp only [timerEvents, foldl_settings]
      exact m.step_timer t
  | execute i =>
      simp only [timerEvents, foldl_settings, perform, executed?]
      cases hexecute : m.execute i with
      | ok e => exact execute_timer hexecute
      | error fault => rfl
  | load program =>
      apply attempt_induction (P := fun n => n.timer t = m.timer t) rfl
      intro e hload
      rw [load_eq_ok hload]
      cases t <;> rfl
  | cancelWait =>
      rcases m.cancelWait_cases with ⟨-, hcancel⟩ | ⟨x, -, hcancel⟩ <;>
        simp only [perform, hcancel]
      · rfl
      · cases t <;> rfl
  | _ => cases t <;> rfl

/-- A cycle that carries nothing out is a tick like any other. -/
theorem timerEvents_cycle_of_idle
    (h : m.isAwaitingKey = true ∨ m.passedOver?.isSome = true) :
    m.timerEvents t .cycle = [.tick] := by
  have hanswer := step_answer_eq_ok_none_iff.mpr h
  rw [timerEvents_cycle_of_ok hanswer, executed?, hanswer]
  rfl

theorem tick_not_mem_timerEvents_step (m : Machine) (t : Timer) :
    TimerEvent.tick ∉ m.timerEvents t .step := by
  simp [timerEvents]

theorem register_of_readDelay
    {x : Register} (h : m.executed? action = some (.register .readDelay x)) :
    (m.perform action).machine.register x = m.timer .delay := by
  obtain ⟨e, hexecute, hv⟩ := perform_of_executed? (f := Machine.v) (fun _ => rfl) h
  have hregister : (m.perform action).machine.register x = e.machine.register x :=
    congrArg (·.get x) hv
  cases hexecute
  exact hregister.trans ((m.register_setRegister x x m.delay).trans (if_pos rfl))

/-! ## A whole history -/

theorem performAll_timer
    (m : Machine) (t : Timer) (actions : List Action) :
    (m.performAll actions).machine.timer t =
      (m.timerHistory t actions).foldl TimerEvent.apply (m.timer t) := by
  induction actions generalizing m with
  | nil => rfl
  | cons action actions ih =>
      rw [performAll_cons, ih, perform_timer, timerHistory, List.foldl_append]

theorem toNat_timer_performAll_powerOn
    (random : Random.Stream) (t : Timer) (actions : List Action) :
    (((powerOn random).performAll actions).machine.timer t).toNat =
      TimerEvent.remaining ((powerOn random).timerHistory t actions) := by
  have hzero : (powerOn random).timer t = 0 := by cases t <;> rfl
  rw [performAll_timer, hzero, TimerEvent.foldl_apply]

/-- At every point of every history since power-on, a timer holds what is left of the value that it
was last set to by an instruction: one less for each tick since then, down to zero, and zero from
the beginning if no instruction has set it since the last reset.  The value is that of the register
which the instruction names, and the cycle that carries the instruction out is the first to count.
A cycle that waits for a key or passes over a word counts as well, while one that fails does not,
nor does a step.  What is left is also what the instruction that reads the delay timer puts into its
register. -/
theorem timer_is_last_setting_less_ticks
    (random : Random.Stream) (t : Timer) (actions : List Action) :
    let start := powerOn random
    let m := (start.performAll actions).machine
    (m.timer t).toNat = TimerEvent.remaining (start.timerHistory t actions) ∧
      (m.isAwaitingKey = true ∨ m.passedOver?.isSome = true →
        m.timerEvents t .cycle = [.tick]) ∧
      (∀ fault, m.cycle.answer = .error fault → m.timerEvents t .cycle = []) ∧
      TimerEvent.tick ∉ m.timerEvents t .step ∧
      ∀ (action : Action) (x : Register),
        m.executed? action = some (.register .readDelay x) →
          ((m.perform action).machine.register x).toNat =
            TimerEvent.remaining (start.timerHistory .delay actions) := by
  intro start m
  refine ⟨toNat_timer_performAll_powerOn random t actions, timerEvents_cycle_of_idle, ?_,
    m.tick_not_mem_timerEvents_step t, ?_⟩
  · intro fault hfault
    exact timerEvents_cycle_of_error (m.cycle_answer.symm.trans hfault)
  · intro action x hexecuted
    rw [register_of_readDelay hexecuted]
    exact toNat_timer_performAll_powerOn random .delay actions

/-- The delay timer is set to five, and is down to one after a cycle that passes over a word, one
that begins to wait for a key, one that waits on, and the one that set it.  The wait given up, the
next instruction reads the timer. -/
theorem timer_read_after_skip_and_wait :
    let start := powerOn (Random.Stream.ofSeed 0)
    let actions : List Action :=
      [.load [0x60, 0x05, 0xF0, 0x15, 0xFF, 0xFF, 0xF1, 0x0A, 0xF2, 0x07],
        .cycle, .cycle, .cycle, .cycle, .cycle, .cancelWait]
    let m := (start.performAll actions).machine
    start.timerHistory .delay actions = [.tick, .set 5, .tick, .tick, .tick, .tick] ∧
      m.timer .delay = 1 ∧
      m.executed? .step = some (.register .readDelay 2) ∧
      (m.perform .step).machine.register 2 = 1 := by
  intro start actions m
  obtain ⟨hevents, hexecuted⟩ :
      start.timerHistory .delay actions = [.tick, .set 5, .tick, .tick, .tick, .tick] ∧
        m.executed? .step = some (.register .readDelay 2) := by
    decide +kernel
  obtain ⟨hdelay, -, -, -, hread⟩ :=
    timer_is_last_setting_less_ticks (Random.Stream.ofSeed 0) .delay actions
  have hleft : TimerEvent.remaining (start.timerHistory .delay actions) = (1 : UInt8).toNat := by
    rw [hevents]
    decide
  exact ⟨hevents, UInt8.toNat_inj.mp (hdelay.trans hleft), hexecuted,
    UInt8.toNat_inj.mp ((hread .step 2 hexecuted).trans hleft)⟩

end Machine

end Chip8
