import Chip8.Proofs.History

/-!
# The display and its flag

A renderer that keeps a copy of the pixels need not copy them at every look: it may trust the flag.
For every instruction that changes the screen raises the flag, nothing but a look lowers it, and all
other requests leave the screen alone.  So between two looks either the flag is up or the pixels
have stayed what they were.
-/

namespace Chip8

namespace Action

/-- The requests that leave the display to the program and lower its flag only by a look at it. -/
def sparesDisplay : Action → Bool
  | execute _ => false
  | clearDirty => false
  | screen _ => false
  | _ => true

end Action

namespace Machine

/-- A request runs the program, which carries out an instruction that changes the screen. -/
def Displays (m : Machine) (action : Action) : Prop :=
  action.runs = true ∧
    ∃ i : Instruction Register, m.step.answer = .ok (some i) ∧ i.isDisplay = true

variable {m : Machine}

/-! ## Who writes to the screen -/

theorem isDirty_of_isDisplay
    {i : Instruction Register} {e : Effect}
    (hdisplay : i.isDisplay = true) (h : m.execute i = .ok e) :
    e.machine.screen.isDirty = true := by
  cases i with
  | clearScreen =>
      cases h
      rfl
  | draw x y n =>
      cases Memory.eq_ok_of_checkRange_bind h
      rfl
  | _ => cases hdisplay

/-- A step raises the flag with an instruction that changes the screen, or leaves the screen
alone. -/
theorem step_screen_cases
    (m : Machine) :
    (m.step.machine.screen.isDirty = true ∧ m.Displays .step) ∨
      (m.step.machine.screen = m.screen ∧ ¬ m.Displays .step) := by
  have hstep := m.stepped_step
  unfold Displays
  generalize m.step = stepped at hstep ⊢
  cases hstep with
  | @executed word i e hmode hfetch hword hexecute =>
      cases hdisplay : i.isDisplay with
      | true => exact .inl ⟨isDirty_of_isDisplay hdisplay hexecute, rfl, i, rfl, hdisplay⟩
      | false =>
          refine .inr ⟨(execute_frame hexecute).screen hdisplay, ?_⟩
          rintro ⟨-, j, hj, hdisplay'⟩
          cases hj
          rw [hdisplay] at hdisplay'
          cases hdisplay'
  | _ =>
      refine .inr ⟨rfl, ?_⟩
      rintro ⟨-, j, hj, -⟩
      cases hj

theorem runs_screen_cases
    {action : Action} (hruns : action.runs = true) :
    ((m.perform action).machine.screen.isDirty = true ∧ m.Displays action) ∨
      ((m.perform action).machine.screen = m.screen ∧ ¬ m.Displays action) := by
  have hdisplays : m.Displays action ↔ m.Displays .step := by
    rw [Displays, Displays, hruns, Action.runs]
  rw [m.perform_eq_step_of_runs (f := Machine.screen) (fun _ => rfl) hruns, hdisplays]
  exact m.step_screen_cases

/-- What a request does to the screen: it raises the flag with a reset or an instruction, it is a
look and lowers it, or it leaves the screen alone. -/
theorem perform_screen_cases
    {action : Action} (hspares : action.sparesDisplay = true) :
    ((m.perform action).machine.screen.isDirty = true ∧
        (action = .reset ∨ m.Displays action)) ∨
      action = .takeDirty ∨
      (m.perform action).machine.screen = m.screen := by
  by_cases hruns : action.runs = true
  · rcases runs_screen_cases (m := m) hruns with ⟨hdirty, hdisplays⟩ | ⟨hscreen, -⟩
    · exact .inl ⟨hdirty, .inr hdisplays⟩
    · exact .inr (.inr hscreen)
  · cases action with
    | reset => exact .inl ⟨rfl, .inl rfl⟩
    | load program =>
        refine .inr (.inr ?_)
        apply attempt_induction (P := fun n => n.screen = m.screen) rfl
        intro e hload
        rw [load_eq_ok hload]
    | cancelWait =>
        refine .inr (.inr ?_)
        rcases m.cancelWait_cases with ⟨-, hcancel⟩ | ⟨x, -, hcancel⟩ <;>
          simp only [perform, hcancel, advance]
    | takeDirty => exact .inr (.inl rfl)
    | cycle | step => exact absurd rfl hruns
    | execute | clearDirty | screen => cases hspares
    | _ => exact .inr (.inr rfl)

/-- Only a reset and an instruction that changes the screen change the pixels. -/
theorem pixels_ne_imp
    {action : Action} (hspares : action.sparesDisplay = true)
    (h : (m.perform action).machine.screen.pixels ≠ m.screen.pixels) :
    action = .reset ∨ m.Displays action := by
  rcases perform_screen_cases hspares with ⟨-, hcause⟩ | rfl | hscreen
  · exact hcause
  · exact absurd rfl h
  · exact absurd (congrArg Screen.pixels hscreen) h

theorem isDirty_iff_of_clean
    {action : Action} (hruns : action.runs = true) (hclean : m.screen.isDirty = false) :
    (m.perform action).machine.screen.isDirty = true ↔ m.Displays action := by
  rcases runs_screen_cases (m := m) hruns with ⟨hdirty, hdisplays⟩ | ⟨hscreen, hdisplays⟩
  · exact iff_of_true hdirty hdisplays
  · rw [hscreen, hclean]
    exact iff_of_false Bool.false_ne_true hdisplays

/-! ## A renderer -/

/-- What a renderer's copy of the pixels is after a request, if it is refreshed exactly when a look
at the display finds something to show. -/
def refresh (copy : Vector Bool 2048) (action : Action) (outcome : Outcome Reply) :
    Vector Bool 2048 :=
  match action, outcome.answer with
  | .takeDirty, .truth true => outcome.machine.screen.pixels
  | _, _ => copy

/-- The renderer's copy after some requests. -/
def rendered : Machine → Vector Bool 2048 → List Action → Vector Bool 2048
  | _, copy, [] => copy
  | m, copy, action :: actions =>
    let outcome := m.perform action
    outcome.machine.rendered (refresh copy action outcome) actions

/-- The flag is up unless the copy shows the pixels as they are. -/
def Current (m : Machine) (copy : Vector Bool 2048) : Prop :=
  m.screen.isDirty = true ∨ copy = m.screen.pixels

variable {copy : Vector Bool 2048}

theorem refresh_of_ne_takeDirty
    {action : Action} (outcome : Outcome Reply) (h : action ≠ .takeDirty) :
    refresh copy action outcome = copy := by
  cases action with
  | takeDirty => exact absurd rfl h
  | _ => rfl

/-- Right after a look the copy is up to date. -/
theorem Current.refresh_takeDirty
    (h : m.Current copy) :
    refresh copy .takeDirty (m.perform .takeDirty) =
      (m.perform .takeDirty).machine.screen.pixels := by
  rcases h with hdirty | hcopy
  · simp [refresh, perform, takeDirty, answer, hdirty]
  · cases hdirty : m.screen.isDirty <;>
      simp [refresh, perform, takeDirty, answer, Screen.clearDirty, hdirty, hcopy]

theorem Current.perform
    (h : m.Current copy) {action : Action} (hspares : action.sparesDisplay = true) :
    (m.perform action).machine.Current (refresh copy action (m.perform action)) := by
  by_cases hlook : action = .takeDirty
  · subst hlook
    exact .inr h.refresh_takeDirty
  · rw [refresh_of_ne_takeDirty _ hlook]
    rcases perform_screen_cases hspares with ⟨hdirty, -⟩ | hlook' | hscreen
    · exact .inl hdirty
    · exact absurd hlook' hlook
    · unfold Current
      rw [hscreen]
      exact h

theorem Current.rendered_append_takeDirty
    (h : m.Current copy) {actions : List Action}
    (hspares : ∀ action ∈ actions, action.sparesDisplay = true) :
    m.rendered copy (actions ++ [.takeDirty]) =
      (m.performAll (actions ++ [.takeDirty])).machine.screen.pixels := by
  induction actions generalizing m copy with
  | nil => exact h.refresh_takeDirty
  | cons action actions ih =>
      rw [List.forall_mem_cons] at hspares
      exact ih (h.perform hspares.1) hspares.2

/-- A renderer that refreshes its copy exactly when a look finds something to show has the pixels as
they are after every look, whatever happened since power-on and whatever it began with.  On the way
only a reset and the instructions that change the screen change a pixel, and of the cycles and
steps exactly those that carry out such an instruction raise a flag that is down. -/
theorem polling_renderer_is_current :
    (∀ (random : Random.Stream) (actions : List Action),
      (∀ action ∈ actions, action.sparesDisplay = true) →
      ∀ copy : Vector Bool 2048,
        (powerOn random).rendered copy (actions ++ [.takeDirty]) =
          ((powerOn random).performAll (actions ++ [.takeDirty])).machine.screen.pixels) ∧
    ∀ (m : Machine) (action : Action), action.sparesDisplay = true →
      ((m.perform action).machine.screen.pixels ≠ m.screen.pixels →
        action = .reset ∨ m.Displays action) ∧
      (action.runs = true → m.screen.isDirty = false →
        ((m.perform action).machine.screen.isDirty = true ↔ m.Displays action)) := by
  constructor
  · intro random actions hspares copy
    have hcurrent : (powerOn random).Current copy := .inl rfl
    exact hcurrent.rendered_append_takeDirty hspares
  · intro m action hspares
    exact ⟨pixels_ne_imp hspares, isDirty_iff_of_clean⟩

/-- A renderer that begins with every pixel on, and looks before and after a zero is drawn in the
upper left corner. -/
theorem renderer_sees_drawn_zero :
    let random := Random.Stream.ofSeed 0
    let before : List Action := [.load [0xF0, 0x29, 0xD0, 0x05], .takeDirty, .cycle, .takeDirty]
    let drawing := ((powerOn random).performAll before).machine
    let history := before ++ [.cycle]
    let copy := (powerOn random).rendered (Vector.replicate 2048 true) (history ++ [.takeDirty])
    copy = ((powerOn random).performAll (history ++ [.takeDirty])).machine.screen.pixels ∧
      copy[0] = true ∧ copy[4] = false ∧
      drawing.screen.isDirty = false ∧
      (drawing.perform .cycle).machine.screen.isDirty = true ∧
      drawing.Displays .cycle := by
  intro random before drawing history copy
  obtain ⟨hcurrent, hcauses⟩ := polling_renderer_is_current
  have hspares : ∀ action ∈ history, action.sparesDisplay = true := by decide
  have hcopy := hcurrent random history hspares (Vector.replicate 2048 true)
  obtain ⟨hfirst, hfifth, hclean, hdirty⟩ :
      copy[0] = true ∧ copy[4] = false ∧ drawing.screen.isDirty = false ∧
        (drawing.perform .cycle).machine.screen.isDirty = true := by
    decide +kernel
  have hdisplays := ((hcauses drawing .cycle rfl).2 rfl hclean).mp hdirty
  exact ⟨hcopy, hfirst, hfifth, hclean, hdirty, hdisplays⟩

end Machine

end Chip8
