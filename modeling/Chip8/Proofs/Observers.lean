import Chip8.Proofs.History
import Chip8.Proofs.Unread

/-!
# Observers

A speaker hears tones, a log keeps records, a renderer looks at the flag of the screen, and a host
may ask how many words were passed over.  None of this has an influence on the machine.  Machines
that agree on everything else, `Machine.Agrees`, are those that become equal once the flag and the
count are blotted out, and no request reads either: after the same request the machines agree again
and have told of the same events.  Only the question whether there is something to show is answered
from the flag.
-/

namespace Chip8

/-- What a host may do with an emulator: make a request to the machine, or attach a speaker. -/
inductive Call where
  | request (action : Action)
  | attach (speaker : Speaker)

namespace Machine

/-- The machines are alike but for the flag of the screen and the count of words passed over. -/
structure Agrees (m n : Machine) : Prop where
  memory : m.memory = n.memory
  stack : m.stack = n.stack
  index : m.index = n.index
  pc : m.pc = n.pc
  v : m.v = n.v
  pixels : m.screen.pixels = n.screen.pixels
  delay : m.delay = n.delay
  sound : m.sound = n.sound
  keypad : m.keypad = n.keypad
  mode : m.mode = n.mode
  random : m.random = n.random

/-- The machine with the flag of the screen and the count of words passed over blotted out. -/
def blotted (m : Machine) : Machine :=
  { m.shown with unrecognized := 0 }

variable {m n : Machine}

theorem agrees_iff_blotted :
    m.Agrees n ↔ m.blotted = n.blotted := by
  obtain ⟨_, _, _, _, _, ⟨_, _⟩, _, _, _, _, _, _⟩ := m
  obtain ⟨_, _, _, _, _, ⟨_, _⟩, _, _, _, _, _, _⟩ := n
  constructor
  · rintro ⟨rfl, rfl, rfl, rfl, rfl, rfl, rfl, rfl, rfl, rfl, rfl⟩
    rfl
  · intro h
    cases h
    constructor <;> rfl

/-! ## Steps and cycles -/

theorem sparesCore_blotted : SparesCore blotted :=
  fun _ _ _ _ _ _ _ _ _ => rfl

theorem execute_blotted
    (m : Machine) (i : Instruction Register) :
    (m.blotted.execute i).map (Effect.mapMachine blotted) =
      (m.execute i).map (Effect.mapMachine blotted) := by
  have hindex : m.blotted.index = m.index := rfl
  have hscreen : m.blotted.screen = m.screen.clearDirty := rfl
  cases i with
  | clearScreen => rfl
  | draw x y n =>
      simp only [execute, draw, hindex, hscreen, Screen.draw_clearDirty, Memory.checkRange_bind]
      split <;> rfl
  | register op x =>
      cases op with
      | readDelay | setDelay | setSound => rfl
      | _ => exact sparesCore_blotted.map_execute (fun _ => rfl) m rfl rfl
  | _ => exact sparesCore_blotted.map_execute (fun _ => rfl) m rfl rfl

theorem step_blotted
    (m : Machine) :
    m.blotted.step.mapMachine blotted = m.step.mapMachine blotted := by
  apply step_mapMachine rfl rfl rfl rfl
  · intro x
    have hkeypad : m.blotted.keypad = m.keypad := rfl
    simp only [resolveWait, hkeypad]
    split <;> rfl
  · intro word
    rfl
  · intro i _
    exact m.execute_blotted i

theorem cycle_blotted
    (m : Machine) :
    m.blotted.cycle.mapMachine blotted = m.cycle.mapMachine blotted :=
  cycle_mapMachine rfl rfl m.step_blotted fun _ => rfl

/-! ## Requests -/

theorem mapMachine_attempt
    (f : Machine → Machine) (m : Machine) (result : Except Fault Effect) :
    (m.attempt result).mapMachine f = (f m).attempt (result.map (Effect.mapMachine f)) := by
  cases result <;> rfl

theorem load_blotted
    (m : Machine) (program : List UInt8) :
    m.blotted.load program = (m.load program).map (Effect.mapMachine blotted) := by
  unfold load
  split <;> rfl

theorem cancelWait_blotted
    (m : Machine) :
    m.blotted.cancelWait.mapMachine blotted = m.cancelWait.mapMachine blotted := by
  have hmode : m.blotted.mode = m.mode := rfl
  simp only [cancelWait, hmode]
  cases m.mode <;> rfl

/-- No request reads the flag or the count, unless it asks for the flag. -/
theorem perform_blotted
    (m : Machine) {action : Action} (h : action ≠ .takeDirty) :
    (m.blotted.perform action).mapMachine blotted = (m.perform action).mapMachine blotted := by
  cases action with
  | takeDirty => exact absurd rfl h
  | cycle =>
      exact congrArg (fun o => (⟨.cycled o.answer, o.machine, o.events⟩ : Outcome Reply))
        m.cycle_blotted
  | step =>
      exact congrArg (fun o => (⟨.ofExcept o.answer, o.machine, o.events⟩ : Outcome Reply))
        m.step_blotted
  | cancelWait =>
      exact congrArg (fun o => (⟨.truth o.answer, o.machine, o.events⟩ : Outcome Reply))
        m.cancelWait_blotted
  | execute i =>
      simp only [perform, mapMachine_attempt, execute_blotted]
      rfl
  | load program =>
      simp only [perform, mapMachine_attempt, load_blotted]
      cases m.load program <;> rfl
  | screen action =>
      cases action with
      | xor x y value => cases value <;> rfl
      | _ => rfl
  | _ => rfl

/-- Machines that agree before a request agree after it. -/
theorem Agrees.perform
    (h : m.Agrees n) (action : Action) :
    (m.perform action).machine.Agrees (n.perform action).machine := by
  rw [agrees_iff_blotted] at h ⊢
  by_cases htake : action = .takeDirty
  · subst htake
    exact h
  · have hm := congrArg Outcome.machine (m.perform_blotted htake)
    have hn := congrArg Outcome.machine (n.perform_blotted htake)
    exact hm.symm.trans (h ▸ hn)

/-- Machines that agree answer every request alike, unless it asks for the flag. -/
theorem Agrees.answer_perform
    (h : m.Agrees n) {action : Action} (htake : action ≠ .takeDirty) :
    (m.perform action).answer = (n.perform action).answer := by
  rw [agrees_iff_blotted] at h
  have hm := congrArg Outcome.answer (m.perform_blotted htake)
  have hn := congrArg Outcome.answer (n.perform_blotted htake)
  exact hm.symm.trans (h ▸ hn)

end Machine

namespace Emulator

def answer (e : Emulator) : Call → Reply
  | .request action => (e.perform action).1.answer
  | .attach _ => .done

def call (e : Emulator) : Call → Emulator
  | .request action => (e.perform action).2
  | .attach speaker => e.attach speaker

/-- The emulator after one call upon the other. -/
def callAll (e : Emulator) (calls : List Call) : Emulator :=
  calls.foldl call e

/-- What each of the calls was answered. -/
def answers : Emulator → List Call → List Reply
  | _, [] => []
  | e, call :: calls => e.answer call :: (e.call call).answers calls

variable {e f : Emulator}

theorem agrees_call
    (h : e.machine.Agrees f.machine) (call : Call) :
    (e.call call).machine.Agrees (f.call call).machine := by
  cases call with
  | request action => exact h.perform action
  | attach speaker => exact h

theorem answer_eq_of_agrees
    (h : e.machine.Agrees f.machine) {call : Call} (htake : call ≠ .request .takeDirty) :
    e.answer call = f.answer call := by
  cases call with
  | request action => exact h.answer_perform fun heq => htake (congrArg Call.request heq)
  | attach speaker => rfl

theorem agrees_callAll
    (h : e.machine.Agrees f.machine) (calls : List Call) :
    (e.callAll calls).machine.Agrees (f.callAll calls).machine := by
  induction calls generalizing e f with
  | nil => exact h
  | cons call calls ih => exact ih (agrees_call h call)

theorem answers_eq_of_agrees
    (h : e.machine.Agrees f.machine) (calls : List Call) {k : Nat}
    (htake : calls[k]? ≠ some (.request .takeDirty)) :
    (e.answers calls)[k]? = (f.answers calls)[k]? := by
  induction calls generalizing e f k with
  | nil => rfl
  | cons call calls ih =>
      cases k with
      | zero =>
          have hcall : call ≠ .request .takeDirty := fun heq => htake (congrArg some heq)
          exact congrArg some (answer_eq_of_agrees h hcall)
      | succ k => exact ih (agrees_call h call) htake

/-- Those who watch an emulator do not change what it does.  Two emulators whose machines agree,
with whatever speakers and logs, have machines that agree after the same calls, and each of the
calls had the same answer from both, unless it asked whether there is something to show. -/
theorem calls_do_not_depend_on_observers
    (h : e.machine.Agrees f.machine) (calls : List Call) :
    (e.callAll calls).machine.Agrees (f.callAll calls).machine ∧
      ∀ k : Nat, calls[k]? ≠ some (.request .takeDirty) →
        (e.answers calls)[k]? = (f.answers calls)[k]? :=
  ⟨agrees_callAll h calls, fun _ => answers_eq_of_agrees h calls⟩

/-- An emulator that nobody watches and one with a speaker and a log, whose screen was looked at and
which passed over words before, are asked for the flag and then pass over a word, start a tone and
fail to return.  Only the question for the flag is answered differently. -/
theorem watched_return_into_empty_stack :
    let m := Machine.booted [0xFF, 0xFF, 0x6E, 0x03, 0xFE, 0x18, 0x00, 0xEE]
    let e : Emulator := ⟨m, none, none⟩
    let f : Emulator := ⟨{ m.shown with unrecognized := 41 }, some .full, some .trace⟩
    let calls : List Call :=
      [.request .takeDirty, .request .cycle, .attach .stopOnly, .request .cycle, .request .cycle,
        .request .cycle]
    e.machine.Agrees f.machine ∧
      (e.callAll calls).machine.Agrees (f.callAll calls).machine ∧
      (e.answers calls)[0]? = some (.truth true) ∧
      (f.answers calls)[0]? = some (.truth false) ∧
      (e.answers calls)[5]? = (f.answers calls)[5]? := by
  intro m e f calls
  have hagrees : e.machine.Agrees f.machine := by constructor <;> rfl
  obtain ⟨hmachine, hanswers⟩ := calls_do_not_depend_on_observers hagrees calls
  have hcall : calls[5]? ≠ some (.request .takeDirty) := by
    intro h
    cases h
  exact ⟨hagrees, hmachine, rfl, rfl, hanswers 5 hcall⟩

end Emulator

end Chip8
