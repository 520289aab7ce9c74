import Chip8.Proofs.Display
import Chip8.Proofs.Report
import Chip8.Proofs.WordCount

/-!
# Frames

A session looks at the display after every frame of `c` cycles and counts the looks that find
something new.  A new machine has something to show, so the first look always finds something.  A
look lowers the flag, so every other one finds something exactly if a cycle of its own frame changed
the screen.  The cycles behind the last whole frame are not followed by a look.
-/

namespace Chip8

namespace Machine

variable {m m' : Machine}

/-- The flag stays up until a look, and a cycle raises it if it changes the screen. -/
theorem isDirty_cycle_iff
    (m : Machine) :
    m.cycle.machine.screen.isDirty = true ↔ m.screen.isDirty = true ∨ m.Displays .cycle := by
  have hcases := @runs_screen_cases m .cycle rfl
  rcases hcases with ⟨hdirty, hdisplays⟩ | ⟨hscreen, hdisplays⟩
  · exact iff_of_true hdirty (.inr hdisplays)
  · have hsame : m.cycle.machine.screen = m.screen := hscreen
    rw [hsame, or_iff_left hdisplays]

theorem isDirty_after_iff
    (m : Machine) (n : Nat) :
    (m.after n).screen.isDirty = true ↔
      m.screen.isDirty = true ∨ ∃ k < n, (m.after k).Displays .cycle := by
  induction n with
  | zero => simp [after]
  | succ n ih =>
      rw [after_succ, isDirty_cycle_iff, ih, or_assoc]
      apply or_congr_right
      constructor
      · rintro (⟨k, hlt, hdisplays⟩ | hdisplays)
        · exact ⟨k, Nat.lt_succ_of_lt hlt, hdisplays⟩
        · exact ⟨n, Nat.lt_succ_self n, hdisplays⟩
      · rintro ⟨k, hlt, hdisplays⟩
        obtain hlt' | rfl := Nat.lt_succ_iff_lt_or_eq.mp hlt
        · exact .inl ⟨k, hlt', hdisplays⟩
        · exact .inr hdisplays

theorem displays_congr_shown
    (h : m.shown = m'.shown) :
    m.Displays .cycle ↔ m'.Displays .cycle := by
  have hanswer : m.cycle.answer = m'.cycle.answer := answer_congr_shown h 0
  rw [displays_cycle_iff, displays_cycle_iff, hanswer]

/-! ## What there is to show -/

/-- Frame `j` of `c` cycles since `start` has something to show: it is the first, or one of its
cycles changes the screen. -/
def FrameShows (start : Machine) (c j : Nat) : Prop :=
  j = 0 ∨ ∃ k < (j + 1) * c, j * c ≤ k ∧ (start.after k).Displays .cycle

instance (start : Machine) (c : Nat) : DecidablePred (start.FrameShows c) :=
  fun j => inferInstanceAs (Decidable (j = 0 ∨ _))

end Machine

namespace Runner

namespace Session

/-! ## A session between its frames -/

variable {opened s : Session} {settings : Settings} {start : Machine} {before : List Record}
variable {j n : Nat} {limit : UInt64} {fault : Option Fault}

/-- Of the `j` frames since `opened` the session `s` has counted those with something to show.  What
it has not looked at is there from the start. -/
structure Framed (opened : Session) (j : Nat) (s : Session) : Prop where
  frames : s.frames = Nat.count (opened.machine.FrameShows opened.frameLength) j
  isDirty : s.machine.screen.isDirty = true ↔ j = 0

/-- The cycles of a frame change the screen where those of the machine do. -/
theorem Follows.exists_displays_iff
    (h : opened.Follows j s) :
    (∃ k < opened.frameLength, (s.machine.after k).Displays .cycle) ↔
      ∃ k < (j + 1) * opened.frameLength, j * opened.frameLength ≤ k ∧
        (opened.machine.after k).Displays .cycle := by
  rw [Nat.succ_mul]
  constructor
  · rintro ⟨k, hlt, hdisplays⟩
    exact ⟨j * opened.frameLength + k, Nat.add_lt_add_left hlt _, Nat.le_add_right ..,
      (Machine.displays_congr_shown (h.machine_after k)).mp hdisplays⟩
  · rintro ⟨k, hlt, hle, hdisplays⟩
    obtain ⟨i, rfl⟩ := Nat.exists_eq_add_of_le hle
    exact ⟨i, Nat.lt_of_add_lt_add_left hlt,
      (Machine.displays_congr_shown (h.machine_after i)).mpr hdisplays⟩

namespace Framed

theorem of_opens
    (h : opened.Opens settings start before) (hdirty : start.screen.isDirty = true) :
    opened.Framed 0 opened := by
  constructor
  · rw [h.frames, Nat.count_zero]
  · rw [h.machine]
    exact iff_of_true hdirty rfl

/-- The look behind a frame counts it if it has something to show. -/
theorem look_after
    (h : opened.Framed j s) (hfollows : opened.Follows j s) :
    opened.Framed (j + 1) (s.after opened.frameLength).look := by
  have hshows : (s.machine.after opened.frameLength).screen.isDirty = true ↔
      opened.machine.FrameShows opened.frameLength j := by
    rw [Machine.isDirty_after_iff, h.isDirty, hfollows.exists_displays_iff]
    rfl
  constructor
  · have hframes : (s.after opened.frameLength).look.frames =
        s.frames + if (s.machine.after opened.frameLength).screen.isDirty then 1 else 0 := rfl
    simp only [hframes, h.frames, Nat.count_succ, hshows]
  · exact iff_of_false Bool.false_ne_true (Nat.succ_ne_zero j)

end Framed

end Session

/-! ## The numbers of a run -/

/-- The last line of a log from a level on that shows the numbers of a run. -/
theorem getLast?_logLines_finished
    (records : List Record) (cycles frames unrecognized : Nat) {level : Severity}
    (hlevel : level ∈ [Severity.trace, .debug, .info]) :
    (logLines level (records ++
        [⟨.info, "finished",
          [("cycles", toString cycles), ("frames", toString frames),
            ("unrecognized", toString unrecognized)]⟩])).getLast? =
      some ("INFO finished, unrecognized: " ++ toString unrecognized ++ ", frames: " ++
        toString frames ++ ", cycles: " ++ toString cycles) := by
  have hrank : level.rank ≤ Severity.info.rank := by
    revert level
    decide
  rw [logLines_append]
  simp only [logLines, ne_eq, reduceCtorEq, not_false_eq_true, hrank, and_self, decide_true,
    List.filter_cons_of_pos, List.filter_nil, List.map_cons, List.map_nil, Record.line_three,
    Severity.short, String.append_assoc, List.getLast?_concat]
  rfl

/-- The numbers that a run ends with, if no cycle fails before the limit.  The frames are those that
are complete and have something to show, and the words passed over are those of all cycles. -/
theorem run_accounts_for_frames
    {seed limit : UInt64} {fuel : Nat} (random : Random.Stream) (path : String)
    {program : List UInt8} (perFrame : UInt32) (level : Severity)
    (hfits : program.length ≤ 3584) (hfuel : limit.toNat ≤ fuel)
    (hsucceed : (loadedMachine random seed program).CyclesSucceed limit.toNat) :
    let start := loadedMachine random seed program
    let c := max perFrame.toNat 1
    let frames := Nat.count (start.FrameShows c) (limit.toNat / c)
    let passedOver := Nat.count (fun k => (start.after k).passedOver?.isSome) limit.toNat
    ∃ report,
      run ⟨level, some seed, perFrame, some limit⟩ random path (.ok program) fuel = some report ∧
      report.exitCode = 0 ∧
      report.stderr = logLines level (opening path program.length ++
        start.cycleRecords limit.toNat ++
          [⟨.info, "finished",
            [("cycles", toString limit.toNat), ("frames", toString frames),
              ("unrecognized", toString passedOver)]⟩]) ∧
      (level ∈ [Severity.trace, .debug, .info] → report.stderr.getLast? =
        some ("INFO finished, unrecognized: " ++ toString passedOver ++ ", frames: " ++
          toString frames ++ ", cycles: " ++ toString limit.toNat)) := by
  intro start c frames passedOver
  obtain ⟨opened, hload, hopens⟩ :=
    Session.exists_opens ⟨level, some seed, perFrame, some limit⟩ random path rfl hfits
  have hstart := loadedMachine_of_fits random seed hfits
  have hdirty : start.screen.isDirty = true := congrArg (·.screen.isDirty) hstart
  have hzero : start.unrecognized = 0 := congrArg Machine.unrecognized hstart
  have hlength : opened.frameLength = c := by
    rw [Session.frameLength, hopens.settings]
  obtain ⟨s, hfollows, hframed, hadvance⟩ :=
    Session.exists_closed hopens.cycles (by rw [hopens.settings])
      (Session.Framed.of_opens hopens hdirty) (fun _ _ hfollows h => h.look_after hfollows)
      (.finished (hopens.machine ▸ hsucceed)) (Nat.lt_succ_of_le hfuel)
  have hframes : s.frames = frames := by
    rw [hframed.frames, hlength, hopens.machine]
  have hwords : (start.after limit.toNat).unrecognized = passedOver := by
    rw [Machine.after_unrecognized, hzero, Nat.zero_add]
  have hstderr := hopens.stderr_closed hfollows (Nat.div_mul_le_self ..) none
  rw [hframes, hwords, Option.toList_none, List.map_nil, List.append_nil] at hstderr
  refine ⟨_, ?_, rfl, hstderr, ?_⟩
  · simp only [run, hload, hadvance]
  · intro hlevel
    rw [hstderr]
    exact getLast?_logLines_finished _ limit.toNat frames passedOver hlevel

/-- Seven cycles in frames of two: the first frame counts although it only passes over a word, the
second does not, the third clears the screen, and the sprite in the seventh cycle is drawn too late
for a look. -/
theorem run_of_three_frames_and_a_half :
    let program : List UInt8 :=
      [0x60, 0x01, 0xFF, 0xFF, 0x60, 0x01, 0xFF, 0xFF, 0x00, 0xE0, 0x60, 0x01, 0xD0, 0x05]
    let random := Random.Stream.ofSeed 0
    let start := loadedMachine random 7 program
    program.length ≤ 3584 ∧ (7 : UInt64).toNat ≤ 7 ∧ start.CyclesSucceed 7 ∧
      ∃ report, run ⟨.info, some 7, 2, some 7⟩ random "rom" (.ok program) 7 = some report ∧
        report.exitCode = 0 ∧
        report.stderr =
          ["INFO loaded rom, bytes: 14, path: rom",
            "WARN skipping unrecognized opcode, opcode: 0xFFFF, pc: 0x0202",
            "WARN skipping unrecognized opcode, opcode: 0xFFFF, pc: 0x0206",
            "INFO finished, unrecognized: 2, frames: 2, cycles: 7"] := by
  intro program random start
  have hsucceed : start.CyclesSucceed 7 := by decide +kernel
  have hfits : program.length ≤ 3584 := by decide
  have hfuel : (7 : UInt64).toNat ≤ 7 := by decide
  obtain ⟨report, hrun, hexit, hstderr, -⟩ :=
    run_accounts_for_frames random "rom" 2 .info hfits hfuel hsucceed
  refine ⟨hfits, hfuel, hsucceed, report, hrun, hexit, ?_⟩
  rw [hstderr]
  decide +kernel

end Runner

end Chip8
