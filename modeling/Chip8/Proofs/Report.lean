import Chip8.Proofs.Fault
import Chip8.Proofs.Session
import Chip8.Proofs.Tally
import Chip8.Runner.Options

/-!
# What a run shows

A run prints the screen of a machine that went through the cycles of its program, and ends with the
fault of the first cycle that fails, if there is one.  How often it looks at the display and how
much its log shows has no influence on what it prints and on its exit code.
-/

namespace Chip8

namespace Runner

/-! ## The printed screen -/

/-- A text has a line for each row of a screen, and in it a character for each pixel. -/
structure Depicts (s : Screen) (text : List String) : Prop where
  height : text.length = 32
  width : ∀ line ∈ text, line.length = 64
  pixel : ∀ x < 64, ∀ y < 32, ∃ line, text[y]? = some line ∧
    line.toList[x]? = some (if s.pixel (UInt8.ofNat x) (UInt8.ofNat y) then '#' else '.')

theorem screenText_eq_of_pixels_eq
    {s t : Screen} (h : s.pixels = t.pixels) :
    screenText s = screenText t := by
  unfold screenText Screen.rows Screen.row
  rw [h]

theorem row_getElem?
    (s : Screen) {x y : Nat} (hx : x < 64) (hy : y < 32) :
    (s.row y)[x]? = some (s.pixel (UInt8.ofNat x) (UInt8.ofNat y)) := by
  have hplace : (Screen.index (UInt8.ofNat x) (UInt8.ofNat y)).val = y * 64 + x := by
    simp [Screen.index]
    omega
  have hlt : y * 64 + x < 2048 := by omega
  simp [Screen.row, Screen.width, Screen.pixel, hx, hlt, hplace]

theorem depicts_screenText
    (s : Screen) :
    Depicts s (screenText s) := by
  constructor
  · simp [screenText, Screen.rows, Screen.height]
  · intro line hline
    obtain ⟨row, hrow, rfl⟩ := List.mem_map.mp hline
    obtain ⟨y, -, rfl⟩ := List.mem_map.mp hrow
    simp [rowText, Screen.row, Screen.width]
  · intro x hx y hy
    refine ⟨rowText (s.row y), ?_, ?_⟩
    · simp [screenText, Screen.rows, Screen.height, hy]
    · simp [rowText, row_getElem? s hx hy]

theorem Depicts.unique
    {s : Screen} {text text' : List String} (h : Depicts s text) (h' : Depicts s text') :
    text = text' := by
  apply List.ext_getElem (by rw [h.height, h'.height])
  intro y hy hy'
  have hwidth := h.width _ (List.getElem_mem hy)
  have hwidth' := h'.width _ (List.getElem_mem hy')
  apply String.toList_inj.mp
  apply List.ext_getElem?
  intro x
  by_cases hx : x < 64
  · obtain ⟨line, hline, hpixel⟩ := h.pixel x hx y (h.height ▸ hy)
    obtain ⟨line', hline', hpixel'⟩ := h'.pixel x hx y (h.height ▸ hy)
    obtain rfl := (List.getElem_eq_iff hy).mpr hline
    obtain rfl := (List.getElem_eq_iff hy').mpr hline'
    rw [hpixel, hpixel']
  · -- both lines end with the last column
    have hle : text[y].toList.length ≤ x := by
      rw [String.length_toList, hwidth]
      omega
    have hle' : text'[y].toList.length ≤ x := by
      rw [String.length_toList, hwidth']
      omega
    rw [List.getElem?_eq_none hle, List.getElem?_eq_none hle']

/-! ## Reports -/

/-- A machine that was switched on, was given a seed and had a program loaded. -/
def loadedMachine (random : Random.Stream) (seed : UInt64) (program : List UInt8) : Machine :=
  ((Machine.powerOn random).performAll [.seed seed, .load program]).machine

theorem loadedMachine_of_fits
    (random : Random.Stream) (seed : UInt64) {program : List UInt8}
    (hfits : program.length ≤ 3584) :
    loadedMachine random seed program =
      { (Machine.powerOn random).seed seed with
        memory := Memory.initial.write Memory.programStart program } := by
  have hload := ((Machine.powerOn random).seed seed).load_of_fits hfits
  have hloaded : loadedMachine random seed program =
      (((Machine.powerOn random).seed seed).attempt
        (((Machine.powerOn random).seed seed).load program)).machine := rfl
  rw [hloaded, hload]
  rfl

theorem Record.line_two
    (severity : Severity) (message field value field' value' : String) :
    Record.line ⟨severity, message, [(field, value), (field', value')]⟩ =
      severity.short ++ " " ++ message ++ ", " ++ (field' ++ ": " ++ value') ++ ", " ++
        (field ++ ": " ++ value) := rfl

theorem Record.line_three
    (severity : Severity) (message field value field' value' field'' value'' : String) :
    Record.line ⟨severity, message, [(field, value), (field', value'), (field'', value'')]⟩ =
      severity.short ++ " " ++ message ++ ", " ++ (field'' ++ ": " ++ value'') ++ ", " ++
        (field' ++ ": " ++ value') ++ ", " ++ (field ++ ": " ++ value) := rfl

/-- The lines that a log from `level` on shows of some records.  No level shows traces. -/
def logLines (level : Severity) (records : List Record) : List String :=
  (records.filter fun r => r.severity ≠ .trace ∧ level.rank ≤ r.severity.rank).map Record.line

/-- What a session has to say until its first cycle. -/
def opening (path : String) (length : Nat) : List Record :=
  [⟨.debug, "reset interpreter", []⟩,
    ⟨.debug, "loaded program", [("bytes", toString length)]⟩,
    ⟨.info, "loaded rom", [("path", path), ("bytes", toString length)]⟩]

theorem logLines_eq
    (level : Severity) (records : List Record) :
    logLines level records = (records.filter (shows level)).map Record.line := by
  rw [logLines]
  congr 1
  apply List.filter_congr
  intro r _
  simp [shows, Severity.reaches]

theorem logLines_append
    (level : Severity) (records others : List Record) :
    logLines level (records ++ others) = logLines level records ++ logLines level others := by
  rw [logLines, List.filter_append, List.map_append]
  rfl

/-- A run that does not get to its first cycle: nothing is printed, and the last thing to be said
is why. -/
structure Report.Refuses (r : Report) (fault : Fault) : Prop where
  exitCode : r.exitCode = 1
  stdout : r.stdout = []
  stderr : r.stderr.getLast? = some fault.message

/-- A run that ended after `n` cycles of `start`: the screen is printed as it was then.  The log has
the records from before the first cycle, those of the cycles, and one that says how the run ended,
each as far as `level` shows it.  Behind the log stands the fault if there was one. -/
structure Report.Concludes (r : Report) (before : List Record) (level : Severity)
    (start : Machine) (n : Nat) (fault : Option Fault) : Prop where
  exitCode : r.exitCode = if fault.isSome then 1 else 0
  stdout : Depicts (start.after n).screen r.stdout
  finished : fault = none → ∃ frames : Nat,
    r.stderr = logLines level (before ++ start.cycleRecords n ++
      [⟨.info, "finished",
        [("cycles", toString n), ("frames", toString frames),
          ("unrecognized", toString (start.after n).unrecognized)]⟩])
  /-- The records of the cycles include those of the one that failed. -/
  halted : ∀ f ∈ fault,
    r.stderr = logLines level (before ++ start.cycleRecords (n + 1) ++
      [⟨.error, "emulation halted", [("cycles", toString n), ("error", f.message)]⟩]) ++
        [f.message]
  haltedLine : ∀ f ∈ fault, level ≠ .critical → ∃ lines,
    r.stderr = lines ++
      ["ERRO emulation halted, error: " ++ f.message ++ ", cycles: " ++ toString n, f.message]
  lastLine : ∀ f ∈ fault, r.stderr.getLast? = some f.message

/-- What there is to say of a run of `image` that stops after `limit` cycles at the latest. -/
structure Report.Answers (r : Report) (random : Random.Stream) (path : String)
    (image : Except ReadFailure (List UInt8)) (seed limit : UInt64) (level : Severity) :
    Prop where
  unreadable : ∀ failure, image = .error failure → r.Refuses (.unreadable failure)
  tooLong : ∀ program, image = .ok program → 3584 < program.length →
    r.Refuses (.loadCapacity program.length 3584)
  fits : ∀ program, image = .ok program → program.length ≤ 3584 →
    ∃ n fault, (loadedMachine random seed program).Ends limit.toNat n fault ∧
      r.Concludes (opening path program.length) level (loadedMachine random seed program) n fault

/-- A session that is about to carry out its first cycle on `start`, and has said `before`. -/
structure Session.Opens (opened : Session) (settings : Settings) (start : Machine)
    (before : List Record) : Prop where
  log : opened.log.reverse = before.filter (shows settings.logLevel)
  settings : opened.settings = settings
  machine : opened.machine = start
  cycles : opened.cycles = 0
  frames : opened.frames = 0

theorem Session.exists_opens
    {seed : UInt64} {program : List UInt8}
    (settings : Settings) (random : Random.Stream) (path : String)
    (hseed : settings.seed = some seed) (hfits : program.length ≤ 3584) :
    ∃ opened, (fresh settings random).load path (.ok program) = .ok opened ∧
      opened.Opens settings (loadedMachine random seed program) (opening path program.length) := by
  let started := (Machine.powerOn random).seed seed
  have hmachine : (fresh settings random).machine = started := by
    rw [fresh, hseed]
    rfl
  have hfresh : ∀ m, { fresh settings random with machine := m } =
      write ⟨settings, m, 0, 0, []⟩ [Note.reset.record] := fun m => rfl
  have hload := started.load_of_fits hfits
  have hloaded := loadedMachine_of_fits random seed hfits
  refine ⟨write ⟨settings, loadedMachine random seed program, 0, 0, []⟩
    (opening path program.length), ?_, reverse_log_write .., rfl, by rw [write_machine], rfl, rfl⟩
  simp only [load, hmachine, hload, hloaded, note, follow, hfresh, bind, Except.bind]
  rw [write_write, write_write]
  rfl

/-- What is said in the end: the log with the record that closes it, and the fault. -/
theorem Session.Opens.stderr_closed
    {opened s : Session} {settings : Settings} {start : Machine} {before : List Record} {j n : Nat}
    (h : opened.Opens settings start before) (hfollows : opened.Follows j s)
    (hle : j * opened.frameLength ≤ n) (fault : Option Fault) :
    ((s.closed (n - j * opened.frameLength) fault).report fault).stderr =
      logLines settings.logLevel
        (before ++ start.cycleRecords (n + fault.toList.length) ++
          [(SessionNote.closing n s.frames (start.after n).unrecognized fault).record]) ++
        fault.toList.map Fault.message := by
  have hlog := hfollows.log_closed hle fault
  rw [h.log, h.settings, h.machine, ← List.filter_append, ← List.append_assoc] at hlog
  rw [report, lines, hlog, logLines_eq]

/-- Only the highest level leaves out that the emulation was halted. -/
theorem logLines_emulationHalted
    (n : Nat) (f : Fault) {level : Severity} (hlevel : level ≠ .critical) :
    logLines level [⟨.error, "emulation halted", [("cycles", toString n), ("error", f.message)]⟩] =
      ["ERRO emulation halted, error: " ++ f.message ++ ", cycles: " ++ toString n] := by
  have hrank : level.rank ≤ Severity.error.rank := by
    cases level with
    | critical => exact absurd rfl hlevel
    | _ => decide
  simp only [logLines, ne_eq, reduceCtorEq, not_false_eq_true, hrank, and_self, decide_true,
    List.filter_cons_of_pos, List.filter_nil, List.map_cons, List.map_nil, Record.line_two,
    Severity.short, String.append_assoc]
  rfl

theorem Session.Opens.report_concludes
    {opened s : Session} {settings : Settings} {start : Machine} {before : List Record} {j n : Nat}
    {limit : UInt64} {fault : Option Fault}
    (h : opened.Opens settings start before) (hfollows : opened.Follows j s)
    (hends : start.Ends limit.toNat n fault) (hle : j * opened.frameLength ≤ n) :
    ((s.closed (n - j * opened.frameLength) fault).report fault).Concludes before
      settings.logLevel start n fault := by
  have hstderr := h.stderr_closed hfollows hle fault
  refine ⟨rfl, ?_, ?_, ?_, ?_, ?_⟩
  · have hmachine := hfollows.machine_closed (h.machine ▸ hends) hle
    rw [h.machine] at hmachine
    have hpixels : (s.closed (n - j * opened.frameLength) fault).machine.screen.pixels =
        (start.after n).screen.pixels :=
      (congrArg (fun m => m.screen.pixels) hmachine :)
    rw [report, screenText_eq_of_pixels_eq hpixels]
    exact depicts_screenText _
  · rintro rfl
    exact ⟨s.frames, hstderr.trans (List.append_nil _)⟩
  · rintro f ⟨rfl⟩
    exact hstderr
  · rintro f ⟨rfl⟩ hlevel
    have hline := logLines_emulationHalted n f hlevel
    refine ⟨logLines settings.logLevel (before ++ start.cycleRecords (n + 1)), ?_⟩
    rw [← List.singleton_append, ← List.append_assoc, ← hline, ← logLines_append]
    exact hstderr
  · rintro f ⟨rfl⟩
    rw [hstderr]
    exact List.getLast?_concat ..

theorem Session.refusal_refuses (s : Session) (fault : Fault) : (s.refusal fault).Refuses fault :=
  ⟨rfl, rfl, by simp [refusal]⟩

theorem run_of_unreadable
    (settings : Settings) (random : Random.Stream) (path : String) (failure : ReadFailure)
    (fuel : Nat) :
    run settings random path (.error failure) fuel =
      some ((Session.fresh settings random).refusal (.unreadable failure)) := rfl

theorem run_of_tooLong
    (settings : Settings) (random : Random.Stream) (path : String) {program : List UInt8}
    (fuel : Nat) (h : 3584 < program.length) :
    run settings random path (.ok program) fuel =
      some ((Session.fresh settings random).refusal (.loadCapacity program.length 3584)) := by
  have hload := (Session.fresh settings random).machine.load_of_tooLong h
  simp only [run, Session.load, hload, bind, Except.bind]

theorem run_of_fits
    {seed limit : UInt64} {fuel : Nat} (random : Random.Stream) (path : String)
    {program : List UInt8} (perFrame : UInt32) (level : Severity)
    (hfits : program.length ≤ 3584) (hfuel : limit.toNat ≤ fuel) :
    ∃ report n fault,
      run ⟨level, some seed, perFrame, some limit⟩ random path (.ok program) fuel = some report ∧
      (loadedMachine random seed program).Ends limit.toNat n fault ∧
      report.Concludes (opening path program.length) level (loadedMachine random seed program)
        n fault := by
  obtain ⟨opened, hload, hopens⟩ :=
    Session.exists_opens ⟨level, some seed, perFrame, some limit⟩ random path rfl hfits
  obtain ⟨n, fault, hends⟩ := (loadedMachine random seed program).exists_ends limit.toNat
  have hlt : n < fuel + 1 := Nat.lt_succ_of_le (Nat.le_trans hends.le hfuel)
  obtain ⟨s, hfollows, -, hadvance⟩ :=
    Session.exists_closed (P := fun _ _ => True) hopens.cycles (by rw [hopens.settings]) trivial
      (fun _ _ _ _ => trivial) (hopens.machine ▸ hends) hlt
  refine ⟨_, n, fault, ?_, hends,
    hopens.report_concludes hfollows hends (Nat.div_mul_le_self ..)⟩
  simp only [run, hload, hadvance]

theorem exists_answers
    {limit : UInt64} {fuel : Nat} (random : Random.Stream) (path : String)
    (image : Except ReadFailure (List UInt8)) (seed : UInt64) (perFrame : UInt32)
    (level : Severity) (hfuel : limit.toNat ≤ fuel) :
    ∃ report,
      run ⟨level, some seed, perFrame, some limit⟩ random path image fuel = some report ∧
      report.Answers random path image seed limit level := by
  obtain failure | program := image
  · refine ⟨_, run_of_unreadable .., ?_, ?_, ?_⟩
    · rintro _ ⟨rfl⟩
      exact Session.refusal_refuses ..
    · rintro _ ⟨⟩
    · rintro _ ⟨⟩
  · obtain htooLong | hfits := Nat.lt_or_ge 3584 program.length
    · refine ⟨_, run_of_tooLong _ _ _ _ htooLong, ?_, ?_, ?_⟩
      · rintro _ ⟨⟩
      · rintro _ ⟨rfl⟩ -
        exact Session.refusal_refuses ..
      · rintro _ ⟨rfl⟩ hfits
        omega
    · obtain ⟨report, n, fault, hrun, hends, hconcludes⟩ :=
        run_of_fits random path perFrame level hfits hfuel
      refine ⟨report, hrun, ?_, ?_, ?_⟩
      · rintro _ ⟨⟩
      · rintro _ ⟨rfl⟩ htooLong
        omega
      · rintro _ ⟨rfl⟩ -
        exact ⟨n, fault, hends, hconcludes⟩

theorem Report.Refuses.output_eq
    {r r' : Report} {fault : Fault} (h : r.Refuses fault) (h' : r'.Refuses fault) :
    r'.stdout = r.stdout ∧ r'.exitCode = r.exitCode :=
  ⟨h'.stdout.trans h.stdout.symm, h'.exitCode.trans h.exitCode.symm⟩

/-- What is printed, and the exit code, are settled by the image, the seed and the limit. -/
theorem Report.Answers.output_eq
    {r r' : Report} {random random' : Random.Stream} {path path' : String}
    {image : Except ReadFailure (List UInt8)} {seed limit : UInt64} {level level' : Severity}
    (h : r.Answers random path image seed limit level)
    (h' : r'.Answers random' path' image seed limit level') :
    r'.stdout = r.stdout ∧ r'.exitCode = r.exitCode := by
  obtain failure | program := image
  · exact (h.unreadable _ rfl).output_eq (h'.unreadable _ rfl)
  · obtain htooLong | hfits := Nat.lt_or_ge 3584 program.length
    · exact (h.tooLong _ rfl htooLong).output_eq (h'.tooLong _ rfl htooLong)
    · obtain ⟨n, fault, hends, hconcludes⟩ := h.fits _ rfl hfits
      obtain ⟨n', fault', hends', hconcludes'⟩ := h'.fits _ rfl hfits
      -- the seed takes the place of the stream that the machine was switched on with
      have hstart : loadedMachine random' seed program = loadedMachine random seed program := rfl
      rw [hstart] at hends' hconcludes'
      obtain ⟨rfl, rfl⟩ := hends.unique hends'
      exact ⟨hconcludes'.stdout.unique hconcludes.stdout,
        hconcludes'.exitCode.trans hconcludes.exitCode.symm⟩

/-- The plain loop over the cycles, which has no frames and keeps no log, comes to the same screen
as a run and to the same fault, if to any, after the same number of cycles. -/
theorem run_agrees_with_cycles
    {seed limit : UInt64} {fuel : Nat} (random : Random.Stream) (path : String)
    {program : List UInt8} (perFrame : UInt32) (level : Severity)
    (hfits : program.length ≤ 3584) (hfuel : limit.toNat ≤ fuel) :
    let start := loadedMachine random seed program
    let plain := start.cycles limit.toNat
    let tally := RunTally.ofResults plain.answer
    ∃ report,
      run ⟨level, some seed, perFrame, some limit⟩ random path (.ok program) fuel = some report ∧
      report.Concludes (opening path program.length) level start tally.succeeded tally.fault ∧
      Depicts plain.machine.screen report.stdout := by
  intro start plain tally
  obtain ⟨report, n, fault, hrun, hends, hconcludes⟩ :=
    run_of_fits random path perFrame level hfits hfuel
  have htally := RunTally.ofResults_cycles hends
  have hmachine : plain.machine = start.after n :=
    congrArg Outcome.machine (Machine.cycles_of_ends hends)
  have hsucceeded : tally.succeeded = n := congrArg RunTally.succeeded htally
  have hfault : tally.fault = fault := congrArg RunTally.fault htally
  rw [hsucceeded, hfault, hmachine]
  exact ⟨report, hrun, hconcludes, hconcludes.stdout⟩

/-- A run is nothing but cycles.  An image that cannot be read or does not fit is refused before the
first of them.  Otherwise the cycles of the loaded machine end, at the limit or with the first that
fails, and the report tells of the machine as it is then and of the fault.  What is printed and the
exit code do not depend on the number of cycles in a frame, nor on the level of the log, the path,
or the random stream that the seed replaces. -/
theorem run_refines_cycles
    (random : Random.Stream) (path : String) (image : Except ReadFailure (List UInt8))
    (seed limit : UInt64) (perFrame : UInt32) (level : Severity) (fuel : Nat)
    (hlimit : limit ≠ 0) (hfuel : limit.toNat ≤ fuel) :
    Invocation.ofChosen? ⟨some path, some limit, some perFrame, some seed, some level⟩ =
        some (.run path ⟨level, some seed, perFrame, some limit⟩) ∧
      ∃ report,
        run ⟨level, some seed, perFrame, some limit⟩ random path image fuel = some report ∧
        report.Answers random path image seed limit level ∧
        ∀ (random' : Random.Stream) (path' : String) (perFrame' : UInt32) (level' : Severity)
          (fuel' : Nat), limit.toNat ≤ fuel' →
          ∃ report',
            run ⟨level', some seed, perFrame', some limit⟩ random' path' image fuel' =
                some report' ∧
              report'.stdout = report.stdout ∧ report'.exitCode = report.exitCode := by
  refine ⟨?_, ?_⟩
  · simp [Invocation.ofChosen?, hlimit]
  · obtain ⟨report, hrun, hanswers⟩ := exists_answers random path image seed perFrame level hfuel
    refine ⟨report, hrun, hanswers, ?_⟩
    intro random' path' perFrame' level' fuel' hfuel'
    obtain ⟨report', hrun', hanswers'⟩ :=
      exists_answers random' path' image seed perFrame' level' hfuel'
    exact ⟨report', hrun', hanswers.output_eq hanswers'⟩

/-- The program draws a zero, and then returns although it has called nothing. -/
theorem run_of_return_without_call :
    let program : List UInt8 := [0xA0, 0x50, 0xD0, 0x05, 0x00, 0xEE]
    let random := Random.Stream.ofSeed 0
    let start := loadedMachine random 7 program
    (5 : UInt64) ≠ 0 ∧ (5 : UInt64).toNat ≤ 5 ∧
      start.Ends 5 2 (some (.stackUnderflow 0x204)) ∧
      ∃ report, run ⟨.info, some 7, 0, some 5⟩ random "rom" (.ok program) 5 = some report ∧
        report.exitCode = 1 ∧ Depicts (start.after 2).screen report.stdout ∧
        report.stdout[1]? =
          some "#..#............................................................" ∧
        report.stderr =
          ["INFO loaded rom, bytes: 6, path: rom",
            "ERRO halting, error: return at 0x0204 with an empty call stack, pc: 0x0204",
            "ERRO emulation halted, error: return at 0x0204 with an empty call stack, cycles: 2",
            "return at 0x0204 with an empty call stack"] := by
  intro program random start
  obtain ⟨hsucceed, hreturn, hempty, hpc⟩ :
      start.CyclesSucceed 2 ∧ (start.after 2).next? = some .ret ∧
        (start.after 2).stack.depth = 0 ∧ (start.after 2).pc = 0x204 := by
    decide +kernel
  have hstuck : (start.after 2).Stuck (.stackUnderflow 0x204) :=
    .obstructed hreturn (hpc ▸ .emptyStack hempty)
  have hfault := Machine.step_answer_eq_error_iff.mpr hstuck
  have hends : start.Ends 5 2 (some (.stackUnderflow 0x204)) :=
    .halted (by decide) hsucceed ((Machine.cycle_answer _).trans hfault)
  obtain ⟨-, report, hrun, hanswers, -⟩ :=
    run_refines_cycles random "rom" (.ok program) 7 5 0 .info 5 (by decide) (by decide)
  obtain ⟨n, fault, hends', hconcludes⟩ := hanswers.fits program rfl (by decide)
  obtain ⟨rfl, rfl⟩ := hends.unique hends'
  have hstdout := hconcludes.stdout.unique (depicts_screenText _)
  refine ⟨by decide, by decide, hends, report, hrun, hconcludes.exitCode, hconcludes.stdout,
    ?_, ?_⟩
  · rw [hstdout]
    decide +kernel
  · rw [hconcludes.halted _ rfl]
    decide +kernel

end Runner

end Chip8
