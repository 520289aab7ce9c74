import Chip8.Proofs.Cycles
import Chip8.Proofs.Unread
import Chip8.Runner.Session

/-!
# Sessions and plain cycles

A session carries out its cycles in frames, looks at the display between them and keeps a log.  None
of this has an influence on the program.  Within a frame nothing but cycles happens to the machine,
and `Session.after` says what they come to; the look behind a frame is noticed by no cycle.  By
induction on the frames a session goes through the same cycles as a machine that is cycled again and
again, and it ends where they end, be that at the end of a frame or in the middle of one.

The two loops are also shown to be one, which counts the cycles of the present frame.  Nor does it
matter whether the log is shown at the end or in parts while the session goes on.
-/

namespace Chip8

namespace Machine

/-! ## Cycles and looks -/

variable {m m' : Machine} {limit n : Nat} {fault : Option Fault}

/-- Machines that differ in the flag of the screen at most go through all their cycles alike. -/
theorem after_congr_shown
    (h : m.shown = m'.shown) (n : Nat) :
    (m.after n).shown = (m'.after n).shown := by
  induction n with
  | zero => exact h
  | succ n ih =>
      rw [after_succ, after_succ]
      exact (congrArg Outcome.machine (cycle_congr_shown ih) :)

theorem answer_congr_shown
    (h : m.shown = m'.shown) (n : Nat) :
    (m.after n).cycle.answer = (m'.after n).cycle.answer :=
  (congrArg Outcome.answer (cycle_congr_shown (after_congr_shown h n)) :)

theorem cycleRecords_congr_shown
    (h : m.shown = m'.shown) (n : Nat) :
    m.cycleRecords n = m'.cycleRecords n := by
  induction n with
  | zero => rfl
  | succ n ih =>
      have hevents : (m.after n).cycle.events = (m'.after n).cycle.events :=
        (congrArg Outcome.events (cycle_congr_shown (after_congr_shown h n)) :)
      rw [cycleRecords_succ, cycleRecords_succ, ih, hevents]

theorem CyclesSucceed.congr_shown
    (hsucceed : m.CyclesSucceed n) (h : m.shown = m'.shown) :
    m'.CyclesSucceed n := by
  intro j hj
  rw [← answer_congr_shown h]
  exact hsucceed j hj

theorem Ends.congr_shown
    (hends : m.Ends limit n fault) (h : m.shown = m'.shown) :
    m'.Ends limit n fault := by
  obtain hsucceed | ⟨hlt, hsucceed, hfault⟩ := hends
  · exact .finished (hsucceed.congr_shown h)
  · exact .halted hlt (hsucceed.congr_shown h) ((answer_congr_shown h _).symm.trans hfault)

end Machine

namespace Runner

/-- What a session says when it ends after `n` cycles. -/
def SessionNote.closing (n frames unrecognized : Nat) : Option Fault → SessionNote
  | none => .finished n frames unrecognized
  | some fault => .halted n fault

namespace Session

variable {opened s : Session} {j k n : Nat} {limit : UInt64} {fault : Option Fault}

@[simp] theorem write_machine (s : Session) (records : List Record) :
    (s.write records).machine = s.machine := rfl

theorem reverse_log_write
    (s : Session) (records : List Record) :
    (s.write records).log.reverse =
      s.log.reverse ++ records.filter (shows s.settings.logLevel) := by
  simp [write]

theorem write_write
    (s : Session) (records others : List Record) :
    (s.write records).write others = s.write (records ++ others) := by
  simp [write]

/-! ## The cycles of a frame -/

/-- The session behind one more cycle of its machine, with the events in the log. -/
def cycled (s : Session) : Session :=
  { s with machine := s.machine.cycle.machine }.follow s.machine.cycle.events

/-- The session behind one more cycle that succeeded. -/
def counted (s : Session) : Session :=
  { s.cycled with cycles := s.cycles + 1 }

/-- The session behind `k` more cycles that succeeded. -/
def after (s : Session) (k : Nat) : Session :=
  { s with machine := s.machine.after k, cycles := s.cycles + k }.write (s.machine.cycleRecords k)

theorem after_succ (s : Session) (k : Nat) : s.after (k + 1) = (s.after k).counted := by
  have hmachine := s.machine.after_succ k
  have hrecords := s.machine.cycleRecords_succ k
  simp only [after, counted, cycled, follow, write, hmachine, hrecords, List.filter_append,
    List.reverse_append, List.append_assoc, Nat.add_assoc]

theorem isOver_eq_false
    (h : ∀ limit ∈ s.settings.maxCycles, s.cycles < limit.toNat) :
    s.isOver = false := by
  unfold isOver
  split
  next limit hlimit => exact decide_eq_false (Nat.not_le_of_lt (h limit hlimit))
  next => rfl

theorem isOver_eq_true
    (hlimit : s.settings.maxCycles = some limit) (h : limit.toNat ≤ s.cycles) :
    s.isOver = true := by
  simp only [isOver, hlimit, h, decide_true]

theorem runFrame_of_over
    (n : Nat) (hover : s.isOver = true) :
    s.runFrame (n + 1) = .reached s := by
  rw [runFrame, if_pos hover]

theorem runFrame_of_ok
    {i : Option (Instruction Register)} (n : Nat)
    (hover : s.isOver = false) (hok : s.machine.cycle.answer = .ok i) :
    s.runFrame (n + 1) = s.counted.runFrame n := by
  simp only [runFrame, hover, Bool.false_eq_true, if_false, hok]
  rfl

theorem runFrame_of_error
    {fault : Fault} (n : Nat)
    (hover : s.isOver = false) (herror : s.machine.cycle.answer = .error fault) :
    s.runFrame (n + 1) = .halted (s.cycled.note (.halted s.cycles fault)) fault := by
  simp only [runFrame, hover, Bool.false_eq_true, if_false, herror]
  rfl

/-- Two parts of a frame, one behind the other, are a frame. -/
theorem runFrame_add
    (s : Session) (m n : Nat) :
    s.runFrame (m + n) =
      match s.runFrame m with
      | .complete t => t.runFrame n
      | ended => ended := by
  induction m generalizing s with
  | zero => rw [Nat.zero_add, runFrame]
  | succ m ih =>
      rw [Nat.succ_add]
      cases hover : s.isOver with
      | true => rw [runFrame_of_over _ hover, runFrame_of_over _ hover]
      | false =>
          cases hanswer : s.machine.cycle.answer with
          | ok i => rw [runFrame_of_ok _ hover hanswer, runFrame_of_ok _ hover hanswer, ih]
          | error fault =>
              rw [runFrame_of_error _ hover hanswer, runFrame_of_error _ hover hanswer]

/-- Below the limit, cycles that succeed are carried out one after the other. -/
theorem runFrame_of_succeed
    (hlimit : ∀ limit ∈ s.settings.maxCycles, s.cycles + k ≤ limit.toNat)
    (hsucceed : s.machine.CyclesSucceed k) :
    s.runFrame k = .complete (s.after k) := by
  induction k with
  | zero => rfl
  | succ k ih =>
      obtain ⟨hbefore, i, hlast⟩ := Machine.cyclesSucceed_succ_iff.mp hsucceed
      have hover : (s.after k).isOver = false := isOver_eq_false hlimit
      rw [runFrame_add, ih (fun limit h => Nat.le_of_succ_le (hlimit limit h)) hbefore, after_succ]
      exact runFrame_of_ok 0 hover hlast

/-- The session at its end, `k` cycles later. -/
def closed (s : Session) (k : Nat) : Option Fault → Session
  | none => (s.after k).finish
  | some fault => (s.after k).cycled.note (.halted (s.cycles + k) fault)

theorem reverse_log_closed
    (s : Session) (k : Nat) (fault : Option Fault) :
    (s.closed k fault).log.reverse =
      s.log.reverse ++
        (s.machine.cycleRecords (k + fault.toList.length) ++
          [(SessionNote.closing (s.cycles + k) s.frames (s.machine.after k).unrecognized
            fault).record]).filter (shows s.settings.logLevel) := by
  cases fault with
  | none =>
      rw [closed, finish, note, reverse_log_write, after, reverse_log_write, List.filter_append,
        List.append_assoc]
      rfl
  | some fault =>
      have hlog : (s.after k).cycled.log = (s.after (k + 1)).log := by
        rw [after_succ]
        rfl
      rw [closed, note, reverse_log_write, hlog, after, reverse_log_write, List.filter_append,
        List.append_assoc]
      rfl

/-- The end of a session comes in the middle of a frame if its last cycle does. -/
theorem progress_runFrame_of_ends
    (hlimit : s.settings.maxCycles = some limit)
    (hends : s.machine.Ends (limit.toNat - s.cycles) k fault)
    (hle : s.cycles ≤ limit.toNat) (hlt : k < n) :
    (s.runFrame n).progress = .ended (s.closed k fault) fault := by
  obtain ⟨rest, rfl⟩ := Nat.exists_eq_add_of_lt hlt
  have hk := hends.le
  have hbelow : ∀ limit ∈ s.settings.maxCycles, s.cycles + k ≤ limit.toNat := by
    rw [hlimit]
    rintro _ ⟨rfl⟩
    omega
  rw [Nat.add_assoc, runFrame_add, runFrame_of_succeed hbelow hends.cyclesSucceed]
  obtain _ | ⟨hk, _, herror⟩ := hends
  · have hover : (s.after (limit.toNat - s.cycles)).isOver = true :=
      isOver_eq_true hlimit (Nat.le_of_eq (Nat.add_sub_cancel' hle).symm)
    simp only [runFrame_of_over _ hover]
    rfl
  · have hover : (s.after k).isOver = false := by
      apply isOver_eq_false
      rw [show (s.after k).settings.maxCycles = some limit from hlimit]
      rintro _ ⟨rfl⟩
      show s.cycles + k < limit.toNat
      omega
    have hfailed : (s.after k).machine.cycle.answer = .error _ := herror
    simp only [runFrame_of_error _ hover hfailed]
    rfl

/-! ## Frame by frame -/

theorem frameLength_pos (s : Session) : 0 < s.frameLength :=
  Nat.le_max_right ..

theorem frameLength_congr
    {t : Session} (h : s.settings = t.settings) :
    s.frameLength = t.frameLength := by
  rw [Session.frameLength, Session.frameLength, h]

theorem advance_of_running
    {t : Session} (n : Nat) (h : (s.runFrame s.frameLength).progress = .running t) :
    s.advance (n + 1) = t.advance n := by
  simp only [advance, h]

theorem advance_of_ended
    {t : Session} (n : Nat) (h : (s.runFrame s.frameLength).progress = .ended t fault) :
    s.advance (n + 1) = .ended t fault := by
  simp only [advance, h]

/-- Two parts of a run, one behind the other, are a run. -/
theorem advance_add
    (s : Session) (m n : Nat) :
    s.advance (m + n) =
      match s.advance m with
      | .running t => t.advance n
      | .ended t fault => .ended t fault := by
  induction m generalizing s with
  | zero => rw [Nat.zero_add, advance]
  | succ m ih =>
      rw [Nat.succ_add, advance, advance]
      cases (s.runFrame s.frameLength).progress with
      | running t => exact ih t
      | ended t fault => rfl

/-- A session in which `j` frames were completed since `opened`. -/
structure Follows (opened : Session) (j : Nat) (s : Session) : Prop where
  settings : s.settings = opened.settings
  /-- All that the looks at the display did is to count it as shown. -/
  machine : s.machine.shown = (opened.machine.after (j * opened.frameLength)).shown
  cycles : s.cycles = j * opened.frameLength
  log : s.log.reverse =
    opened.log.reverse ++
      (opened.machine.cycleRecords (j * opened.frameLength)).filter
        (shows opened.settings.logLevel)

namespace Follows

theorem refl (h : opened.cycles = 0) : opened.Follows 0 opened := by
  constructor
  · rfl
  · rw [Nat.zero_mul]
    rfl
  · rw [h, Nat.zero_mul]
  · rw [Nat.zero_mul]
    exact (List.append_nil _).symm

theorem frameLength (h : opened.Follows j s) : s.frameLength = opened.frameLength :=
  frameLength_congr h.settings

theorem machine_after
    (h : opened.Follows j s) (k : Nat) :
    (s.machine.after k).shown =
      (opened.machine.after (j * opened.frameLength + k)).shown := by
  rw [Machine.after_add]
  exact Machine.after_congr_shown h.machine k

theorem log_write_cycleRecords
    (h : opened.Follows j s) (k : Nat) :
    s.log.reverse ++ (s.machine.cycleRecords k).filter (shows opened.settings.logLevel) =
      opened.log.reverse ++
        (opened.machine.cycleRecords (j * opened.frameLength + k)).filter
          (shows opened.settings.logLevel) := by
  rw [h.log, Machine.cycleRecords_congr_shown h.machine, Machine.cycleRecords_add,
    List.filter_append, List.append_assoc]

/-- One more frame, and the look behind it. -/
theorem look_after
    (h : opened.Follows j s) :
    opened.Follows (j + 1) (s.after opened.frameLength).look := by
  have hcycles : (j + 1) * opened.frameLength =
      j * opened.frameLength + opened.frameLength :=
    Nat.succ_mul ..
  constructor
  · exact h.settings
  · rw [hcycles]
    exact h.machine_after opened.frameLength
  · rw [hcycles, ← h.cycles]
    rfl
  · rw [hcycles, ← h.log_write_cycleRecords, ← h.settings]
    exact reverse_log_write ..

theorem runFrame
    (h : opened.Follows j s) (hlimit : opened.settings.maxCycles = some limit)
    (hle : (j + 1) * opened.frameLength ≤ limit.toNat)
    (hsucceed : opened.machine.CyclesSucceed ((j + 1) * opened.frameLength)) :
    s.runFrame s.frameLength = .complete (s.after opened.frameLength) := by
  rw [Nat.succ_mul] at hle hsucceed
  rw [h.frameLength]
  apply runFrame_of_succeed
  · rw [h.settings, hlimit, h.cycles]
    rintro _ ⟨rfl⟩
    exact hle
  · exact hsucceed.after.congr_shown h.machine.symm

/-- What is left to do in the frame in which the cycles end. -/
theorem ends
    (h : opened.Follows j s) (hends : opened.machine.Ends limit.toNat n fault)
    (hle : j * opened.frameLength ≤ n) :
    s.machine.Ends (limit.toNat - s.cycles) (n - j * opened.frameLength) fault := by
  rw [h.cycles]
  exact (hends.after hle).congr_shown h.machine.symm

end Follows

/-- As long as no cycle fails and the limit is not passed, a session completes its frames.  What
holds of it at the start, and is preserved by a frame and the look behind it, holds of it then. -/
theorem follows_induction
    {P : Nat → Session → Prop}
    (hcycles : opened.cycles = 0) (hlimit : opened.settings.maxCycles = some limit)
    (hopened : P 0 opened)
    (hframe : ∀ j s, opened.Follows j s → P j s → P (j + 1) (s.after opened.frameLength).look)
    (hle : j * opened.frameLength ≤ limit.toNat)
    (hsucceed : opened.machine.CyclesSucceed (j * opened.frameLength)) :
    ∃ s, opened.advance j = .running s ∧ opened.Follows j s ∧ P j s := by
  induction j with
  | zero => exact ⟨opened, rfl, .refl hcycles, hopened⟩
  | succ j ih =>
      have hbefore : j * opened.frameLength ≤ (j + 1) * opened.frameLength :=
        Nat.mul_le_mul_right _ (Nat.le_succ j)
      obtain ⟨s, hadvance, hfollows, hs⟩ := ih (Nat.le_trans hbefore hle) (hsucceed.mono hbefore)
      refine ⟨_, ?_, hfollows.look_after, hframe j s hfollows hs⟩
      have hcomplete := congrArg FrameEnd.progress (hfollows.runFrame hlimit hle hsucceed)
      rw [advance_add, hadvance]
      exact advance_of_running 0 hcomplete

/-- A session ends where the cycles of its machine end, behind as many frames as are complete by
then. -/
theorem exists_closed
    {P : Nat → Session → Prop} {fuel : Nat}
    (hcycles : opened.cycles = 0) (hlimit : opened.settings.maxCycles = some limit)
    (hopened : P 0 opened)
    (hframe : ∀ j s, opened.Follows j s → P j s → P (j + 1) (s.after opened.frameLength).look)
    (hends : opened.machine.Ends limit.toNat n fault) (hfuel : n < fuel) :
    let j := n / opened.frameLength
    ∃ s, opened.Follows j s ∧ P j s ∧
      opened.advance fuel = .ended (s.closed (n - j * opened.frameLength) fault) fault := by
  intro j
  have hle : j * opened.frameLength ≤ n := Nat.div_mul_le_self ..
  obtain ⟨s, hadvance, hfollows, hs⟩ := follows_induction hcycles hlimit hopened hframe
    (Nat.le_trans hle hends.le) (hends.cyclesSucceed.mono hle)
  refine ⟨s, hfollows, hs, ?_⟩
  -- what is left of the fuel is enough for the frame in which the end comes
  have hj : j < fuel := Nat.lt_of_le_of_lt (Nat.div_le_self ..) hfuel
  obtain ⟨rest, rfl⟩ := Nat.exists_eq_add_of_lt hj
  have hlast : n - j * opened.frameLength < s.frameLength := by
    rw [hfollows.frameLength, Nat.mul_comm, ← Nat.mod_eq_sub_mul_div]
    exact Nat.mod_lt _ opened.frameLength_pos
  have hbelow : s.cycles ≤ limit.toNat := by
    rw [hfollows.cycles]
    exact Nat.le_trans hle hends.le
  have hprogress := progress_runFrame_of_ends (hfollows.settings ▸ hlimit)
    (hfollows.ends hends hle) hbelow hlast
  rw [Nat.add_assoc, advance_add, hadvance]
  exact advance_of_ended rest hprogress

namespace Follows

theorem machine_closed
    (h : opened.Follows j s) (hends : opened.machine.Ends limit.toNat n fault)
    (hle : j * opened.frameLength ≤ n) :
    (s.closed (n - j * opened.frameLength) fault).machine.shown =
      (opened.machine.after n).shown := by
  have hmachine := h.machine_after (n - j * opened.frameLength)
  rw [Nat.add_sub_cancel' hle] at hmachine
  rw [← hmachine]
  cases fault with
  | none => rfl
  | some f =>
      -- the machine that the failing cycle leaves is the one before it
      have hfailed := (h.ends hends hle).answer_of_fault
      have hcycle := Machine.cycle_of_error ((Machine.cycle_answer _).symm.trans hfailed)
      exact congrArg (Machine.shown ∘ Outcome.machine) hcycle

theorem log_closed
    (h : opened.Follows j s) (hle : j * opened.frameLength ≤ n) (fault : Option Fault) :
    (s.closed (n - j * opened.frameLength) fault).log.reverse =
      opened.log.reverse ++
        (opened.machine.cycleRecords (n + fault.toList.length) ++
          [(SessionNote.closing n s.frames (opened.machine.after n).unrecognized
            fault).record]).filter (shows opened.settings.logLevel) := by
  have hn : j * opened.frameLength + (n - j * opened.frameLength) = n := Nat.add_sub_cancel' hle
  have hcount : (s.machine.after (n - j * opened.frameLength)).unrecognized =
      (opened.machine.after n).unrecognized := by
    have hmachine := h.machine_after (n - j * opened.frameLength)
    rw [hn] at hmachine
    exact (congrArg Machine.unrecognized hmachine :)
  rw [reverse_log_closed, h.settings, h.cycles, hn, hcount, List.filter_append,
    ← List.append_assoc, h.log_write_cycleRecords, ← Nat.add_assoc, hn, List.append_assoc,
    ← List.filter_append]

end Follows

/-! ## One loop in place of two -/

/-- The session as one loop over `n` cycles, with `done` of the present frame carried out before. -/
def flat : Nat → Nat → Session → Progress
  | 0, _, s => .running s
  | n + 1, done, s =>
    if s.isOver then .ended s.finish none
    else
      let cycled := s.machine.cycle
      let s := { s with machine := cycled.machine }.follow cycled.events
      match cycled.answer with
      | .error fault => .ended (s.note (.halted s.cycles fault)) (some fault)
      | .ok _ =>
        let s := { s with cycles := s.cycles + 1 }
        if done + 1 = s.frameLength then s.look.flat n 0 else s.flat n (done + 1)

theorem settings_of_complete
    {t : Session} (h : s.runFrame n = .complete t) :
    t.settings = s.settings := by
  induction n generalizing s with
  | zero =>
      cases h
      rfl
  | succ n ih =>
      cases hover : s.isOver with
      | true =>
          rw [runFrame_of_over n hover] at h
          cases h
      | false =>
          cases hanswer : s.machine.cycle.answer with
          | ok i =>
              rw [runFrame_of_ok n hover hanswer] at h
              exact (ih h).trans rfl
          | error fault =>
              rw [runFrame_of_error n hover hanswer] at h
              cases h

theorem frameLength_of_complete
    {t : Session} (h : s.runFrame n = .complete t) :
    t.frameLength = s.frameLength :=
  frameLength_congr (settings_of_complete h)

/-- The one loop carries out a cycle as a frame does. -/
theorem flat_succ
    (s : Session) (n done : Nat) :
    s.flat (n + 1) done =
      match s.runFrame 1 with
      | .complete t => if done + 1 = t.frameLength then t.look.flat n 0 else t.flat n (done + 1)
      | ended => ended.progress := by
  cases hover : s.isOver with
  | true =>
      rw [flat, if_pos hover, runFrame_of_over 0 hover]
      rfl
  | false =>
      cases hanswer : s.machine.cycle.answer with
      | ok i =>
          rw [runFrame_of_ok 0 hover hanswer]
          simp only [flat, hover, Bool.false_eq_true, if_false, hanswer]
          rfl
      | error fault =>
          rw [runFrame_of_error 0 hover hanswer]
          simp only [flat, hover, Bool.false_eq_true, if_false, hanswer]
          rfl

/-- The one loop goes to the end of the present frame as the loop over its cycles does. -/
theorem flat_add
    (k rest : Nat) {done : Nat} (hframe : done + (1 + k) = s.frameLength) :
    s.flat (rest + (1 + k)) done =
      match (s.runFrame (1 + k)).progress with
      | .running t => t.flat rest 0
      | ended => ended := by
  induction k generalizing s done with
  | zero =>
      rw [flat_succ]
      cases hone : s.runFrame 1 with
      | complete t =>
          have hfull : done + 1 = t.frameLength := (frameLength_of_complete hone).symm ▸ hframe
          simp only [if_pos hfull]
          rfl
      | reached t => rfl
      | halted t fault => rfl
  | succ k ih =>
      rw [runFrame_add, ← Nat.add_assoc, ← Nat.add_assoc, flat_succ]
      cases hone : s.runFrame 1 with
      | complete t =>
          have hlength := frameLength_of_complete hone
          have hnot : done + 1 ≠ t.frameLength := by omega
          have hframe' : done + 1 + (1 + k) = t.frameLength := by omega
          simp only [if_neg hnot]
          rw [Nat.add_assoc, Nat.add_comm k 1]
          exact ih hframe'
      | reached t => rfl
      | halted t fault => rfl

/-- The loop over the frames and the one over the cycles of a frame are one loop over as many cycles
as the frames have. -/
theorem advance_eq_flat
    (s : Session) (n : Nat) :
    s.advance n = s.flat (n * s.frameLength) 0 := by
  induction n generalizing s with
  | zero =>
      rw [Nat.zero_mul]
      rfl
  | succ n ih =>
      obtain ⟨k, hk⟩ := Nat.exists_eq_add_of_lt s.frameLength_pos
      have hframe : 0 + (1 + k) = s.frameLength := by omega
      have hlength : s.frameLength = 1 + k := by omega
      have hflat := flat_add k (n * s.frameLength) hframe
      rw [← hlength] at hflat
      rw [Nat.succ_mul, hflat, advance]
      cases hone : s.runFrame s.frameLength with
      | complete t =>
          have hsame : t.look.frameLength = s.frameLength :=
            (frameLength_of_complete hone : t.frameLength = s.frameLength)
          rw [← hsame]
          exact ih t.look
      | reached t => rfl
      | halted t fault => rfl

end Session

/-! ## A log that is shown in parts -/

def FrameEnd.map (f : Session → Session) : FrameEnd → FrameEnd
  | complete s => .complete (f s)
  | reached s => .reached (f s)
  | halted s fault => .halted (f s) fault

def Progress.map (f : Session → Session) : Progress → Progress
  | running s => .running (f s)
  | ended s fault => .ended (f s) fault

namespace Session

/-- A session whose log has older records than its own. -/
def onLog (s : Session) (older : List Record) : Session :=
  { s with log := s.log ++ older }

theorem write_onLog
    (s : Session) (older records : List Record) :
    (s.onLog older).write records = (s.write records).onLog older := by
  simp [onLog, write]

theorem cycled_onLog (s : Session) (older : List Record) :
    (s.onLog older).cycled = s.cycled.onLog older :=
  write_onLog { s with machine := s.machine.cycle.machine } ..

theorem counted_onLog (s : Session) (older : List Record) :
    (s.onLog older).counted = s.counted.onLog older := by
  rw [counted, cycled_onLog]
  rfl

theorem runFrame_onLog
    (s : Session) (older : List Record) (n : Nat) :
    (s.onLog older).runFrame n = (s.runFrame n).map (onLog · older) := by
  induction n generalizing s with
  | zero => rfl
  | succ n ih =>
      cases hover : s.isOver with
      | true =>
          have hover' : (s.onLog older).isOver = true := hover
          rw [runFrame_of_over n hover, runFrame_of_over n hover']
          rfl
      | false =>
          have hover' : (s.onLog older).isOver = false := hover
          cases hanswer : s.machine.cycle.answer with
          | ok i =>
              have hanswer' : (s.onLog older).machine.cycle.answer = .ok i := hanswer
              rw [runFrame_of_ok n hover hanswer, runFrame_of_ok n hover' hanswer',
                counted_onLog, ih]
          | error fault =>
              have hanswer' : (s.onLog older).machine.cycle.answer = .error fault := hanswer
              rw [runFrame_of_error n hover hanswer, runFrame_of_error n hover' hanswer',
                cycled_onLog, note, write_onLog]
              rfl

theorem progress_map_onLog
    (ended : FrameEnd) (older : List Record) :
    (ended.map (onLog · older)).progress = ended.progress.map (onLog · older) := by
  cases ended with
  | complete s => rfl
  | reached s => exact congrArg (Progress.ended · none) (write_onLog ..)
  | halted s fault => rfl

theorem advance_onLog
    (s : Session) (older : List Record) (n : Nat) :
    (s.onLog older).advance n = (s.advance n).map (onLog · older) := by
  induction n generalizing s with
  | zero => rfl
  | succ n ih =>
      have hlength : (s.onLog older).frameLength = s.frameLength := rfl
      simp only [advance, hlength, runFrame_onLog, progress_map_onLog]
      cases (s.runFrame s.frameLength).progress with
      | running t => exact ih t
      | ended t fault => rfl

/-- A frame may be stopped in the middle, and go on with its log shown and left behind. -/
theorem runFrame_of_takeLines
    {s t : Session} {m : Nat} (h : s.runFrame m = .complete t) (n : Nat) :
    s.runFrame (m + n) = (t.takeLines.2.runFrame n).map (onLog · t.log) := by
  have ht : t = t.takeLines.2.onLog t.log := rfl
  rw [runFrame_add, h, ← runFrame_onLog, ← ht]

/-- A session whose log is shown and left behind ends like one that keeps it all. -/
theorem report_of_takeLines
    {s t : Session} {n : Nat} {fault : Option Fault}
    (h : s.takeLines.2.advance n = .ended t fault) :
    ∃ whole, s.advance n = .ended whole fault ∧
      whole.report fault =
        { t.report fault with stderr := s.takeLines.1 ++ (t.report fault).stderr } := by
  have hs : s = s.takeLines.2.onLog s.log := rfl
  refine ⟨t.onLog s.log, ?_, ?_⟩
  · rw [hs, advance_onLog, h]
    rfl
  · simp [report, lines, onLog, takeLines]

end Session

end Runner

end Chip8
