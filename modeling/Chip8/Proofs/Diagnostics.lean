import Chip8.Proofs.Footprint
import Chip8.Proofs.Reset

/-!
# The log as a record of the run

A cycle comes to one of six things, and its answer, the log, the count of words passed over and the
machine each tell of it on their own.  Here they are shown to tell the same.  Most notes are details
for which there is a severity of its own; what the log holds besides them are the *diagnostics*, and
`cycle_diagnostics` lists those of one cycle from what it fetched and what it answered.
-/

namespace Chip8

/-- The notes among some events in words. -/
def Event.records (events : List Event) : List Record :=
  (events.filterMap Event.note?).map Note.record

/-- The records of a log that are more than details. -/
def diagnostics (log : List Record) : List Record :=
  log.filter (·.severity ≠ .debug)

/-- Whether a record warns of a word that was passed over. -/
def Record.isSkip (r : Record) : Bool :=
  r.severity = .warning ∧ r.message = "skipping unrecognized opcode"

/-- An instruction as a cycle comes across it. -/
structure Decoding where
  pc : UInt16
  word : UInt16
  instruction : Instruction Register
deriving DecidableEq

/-- The record that an instruction is about to be carried out. -/
def Decoding.record (d : Decoding) : Record where
  severity := .trace
  message := "execute"
  fields :=
    [("pc", wordText d.pc), ("opcode", wordText d.word), ("op", d.instruction.recorded.listing)]

/-- The requests that leave it to cycles to run the program, and do not begin it anew. -/
def Action.sparesCount : Action → Bool
  | reset => false
  | step => false
  | execute _ => false
  | _ => true

namespace Machine

/-- The instruction that the next step comes across, whether it will succeed or fail. -/
def decoded? (m : Machine) : Option Decoding :=
  match m.mode, m.fetch with
  | .running, .ok word => (Instruction.ofWord? word).map fun i => ⟨m.pc, word, i⟩
  | _, _ => none

/-- The instruction that a request comes across if it is a cycle. -/
def decodedBy? (m : Machine) : Action → Option Decoding
  | .cycle => m.decoded?
  | _ => none

/-- The instructions that the cycles among some requests come across, one after the other. -/
def decodings : Machine → List Action → List Decoding
  | _, [] => []
  | m, action :: actions =>
    (m.decodedBy? action).toList ++ (m.perform action).machine.decodings actions

end Machine

/-- The warning of a word that was passed over at `pc`. -/
def skipRecord (pc word : UInt16) : Record where
  severity := .warning
  message := "skipping unrecognized opcode"
  fields := [("pc", wordText pc), ("opcode", wordText word)]

/-- The warning that comes with the answer of a cycle, if it has carried out a machine call. -/
def callRecord? : StepResult → Option Record
  | .ok (some (.address .machineCall addr)) =>
    some ⟨.warning, "ignoring machine code call", [("addr", hexText 3 addr.toNat)]⟩
  | _ => none

/-- The error that comes with the answer of a cycle at `pc`, if it has failed. -/
def haltRecord? (pc : UInt16) : StepResult → Option Record
  | .error fault => some ⟨.error, "halting", [("pc", wordText pc), ("error", fault.message)]⟩
  | .ok _ => none

/-- A search for records that are more than details may leave out the details. -/
theorem filter_diagnostics
    {p : Record → Bool} (hp : ∀ r, p r = true → r.severity ≠ .debug) (log : List Record) :
    (diagnostics log).filter p = log.filter p := by
  rw [diagnostics, List.filter_filter]
  apply List.filter_congr
  intro r _
  cases hr : p r with
  | false => rfl
  | true => simpa using hp r hr

theorem Event.records_append
    (first second : List Event) :
    records (first ++ second) = records first ++ records second := by
  rw [records, List.filterMap_append, List.map_append]
  rfl

theorem Event.diagnostics_append
    (first second : List Event) :
    diagnostics (records (first ++ second)) =
      diagnostics (records first) ++ diagnostics (records second) := by
  rw [records_append, diagnostics, List.filter_append]
  rfl

theorem Record.severity_of_isSkip {r : Record} (h : r.isSkip = true) : r.severity ≠ .debug := by
  have hwarning : r.severity = .warning := (of_decide_eq_true h).1
  simp [hwarning]

namespace Machine

variable {m : Machine}

/-! ## One cycle -/

theorem diagnostics_tick (m : Machine) : diagnostics (Event.records m.tick.events) = [] := by
  unfold tick
  dsimp only
  split <;> rfl

theorem diagnostics_setSound
    (m : Machine) (ticks : UInt8) :
    diagnostics (Event.records (m.setSound ticks).events) = [] := by
  unfold setSound
  dsimp only
  split
  · rfl
  · split <;> rfl

/-- Of the instructions only a machine call has more to say than details. -/
theorem diagnostics_execute
    {i : Instruction Register} {e : Effect} (h : m.execute i = .ok e) :
    diagnostics (Event.records e.events) = (callRecord? (.ok (some i))).toList := by
  cases i with
  | clearScreen | byte | pair =>
      cases h
      rfl
  | ret =>
      obtain ⟨addr, stack, -, rfl⟩ := ret_eq_ok h
      rfl
  | address op addr =>
      cases op with
      | call =>
          obtain ⟨stack, -, rfl⟩ := call_eq_ok h
          rfl
      | _ =>
          cases h
          rfl
  | register op x =>
      cases op with
      | decimal | store | fetch =>
          cases Memory.eq_ok_of_checkRange_bind h
          rfl
      | setSound =>
          cases h
          exact m.diagnostics_setSound (m.register x)
      | _ =>
          cases h
          rfl
  | draw x y n =>
      cases Memory.eq_ok_of_checkRange_bind h
      rfl

theorem decoded?_eq_none_of_awaitingKey
    {x : Register} (hmode : m.mode = .awaitingKey x) :
    m.decoded? = none ∧ m.passedOver? = none := by
  simp only [decoded?, passedOver?, hmode, and_self]

theorem decoded?_eq_some
    {word : UInt16} {i : Instruction Register} (hmode : m.mode = .running)
    (hfetch : m.fetch = .ok word) (hword : Instruction.ofWord? word = some i) :
    m.decoded? = some ⟨m.pc, word, i⟩ ∧ m.passedOver? = none := by
  simp [decoded?, passedOver?, hmode, hfetch, hword]

theorem step_diagnostics
    (m : Machine) :
    diagnostics (Event.records m.step.events) =
      (m.decoded?.map Decoding.record).toList ++
        (m.passedOver?.map (skipRecord m.pc)).toList ++
        (callRecord? m.step.answer).toList := by
  have hstep := m.stepped_step
  generalize m.step = stepped at hstep ⊢
  cases hstep with
  | resolved hmode | waiting hmode =>
      obtain ⟨hdecoded, hpassed⟩ := decoded?_eq_none_of_awaitingKey hmode
      rw [hdecoded, hpassed]
      rfl
  | outside hmode hpc =>
      have hfetch := fetch_eq_error hpc
      simp only [decoded?, passedOver?, hmode, hfetch]
      rfl
  | skipped hmode hfetch hword =>
      have hpassed := passedOver?_eq_some_iff.mpr ⟨hmode, hfetch, hword⟩
      have hdecoded : m.decoded? = none := by
        simp only [decoded?, hmode, hfetch, hword, Option.map_none]
      rw [hdecoded, hpassed]
      rfl
  | executed hmode hfetch hword hexecute =>
      obtain ⟨hdecoded, hpassed⟩ := decoded?_eq_some hmode hfetch hword
      rw [hdecoded, hpassed]
      exact congrArg (_ :: ·) (diagnostics_execute hexecute)
  | failed hmode hfetch hword hexecute =>
      obtain ⟨hdecoded, hpassed⟩ := decoded?_eq_some hmode hfetch hword
      rw [hdecoded, hpassed]
      rfl

/-- What a cycle has to say besides details: the instruction that it has come across, the word that
it has passed over, the machine call that it has ignored, and the fault for which it has failed. -/
theorem cycle_diagnostics
    (m : Machine) :
    diagnostics (Event.records m.cycle.events) =
      (m.decoded?.map Decoding.record).toList ++
        (m.passedOver?.map (skipRecord m.pc)).toList ++
        (callRecord? m.cycle.answer).toList ++
        (haltRecord? m.pc m.cycle.answer).toList := by
  have hstep := m.step_diagnostics
  rw [cycle_answer]
  cases hanswer : m.step.answer with
  | ok i =>
      rw [hanswer] at hstep
      rw [cycle_of_ok hanswer, Event.diagnostics_append, hstep, diagnostics_tick]
      rfl
  | error fault =>
      rw [hanswer] at hstep
      rw [cycle_of_error hanswer, Event.diagnostics_append, hstep]
      rfl

/-- The words that are passed over are counted. -/
theorem step_unrecognized
    (m : Machine) :
    m.step.machine.unrecognized = m.unrecognized + m.passedOver?.toList.length := by
  have hstep := m.stepped_step
  generalize m.step = stepped at hstep ⊢
  cases hstep with
  | resolved hmode | waiting hmode =>
      rw [(decoded?_eq_none_of_awaitingKey hmode).2]
      rfl
  | outside hmode hpc =>
      have hfetch := fetch_eq_error hpc
      simp only [passedOver?, hmode, hfetch]
      rfl
  | skipped hmode hfetch hword =>
      rw [passedOver?_eq_some_iff.mpr ⟨hmode, hfetch, hword⟩]
      rfl
  | executed hmode hfetch hword hexecute =>
      rw [(decoded?_eq_some hmode hfetch hword).2]
      exact (execute_frame hexecute).unrecognized
  | failed hmode hfetch hword =>
      rw [(decoded?_eq_some hmode hfetch hword).2]
      rfl

theorem cycle_answer_of_decoded?
    {d : Decoding} (h : m.decoded? = some d) :
    m.cycle.answer = (m.execute d.instruction).map fun _ => some d.instruction := by
  rw [cycle_answer]
  unfold decoded? at h
  split at h
  next word hmode hfetch =>
    obtain ⟨i, hword, rfl⟩ := Option.map_eq_some_iff.mp h
    simp only [step, hmode, hfetch, hword, executeWord]
    cases m.execute i <;> rfl
  next => cases h

/-! ## One request -/

variable {action : Action}

/-- A request that does not run the program has no more to say than details. -/
theorem perform_of_ne_cycle
    (hspares : action.sparesCount = true) (hne : action ≠ .cycle) :
    diagnostics (Event.records (m.perform action).events) = [] ∧
      (m.perform action).machine.unrecognized = m.unrecognized := by
  cases action with
  | load program =>
      simp only [perform, load]
      split <;> exact ⟨rfl, rfl⟩
  | tick => exact ⟨m.diagnostics_tick, rfl⟩
  | cancelWait =>
      rcases m.cancelWait_cases with ⟨-, hcancel⟩ | ⟨x, -, hcancel⟩ <;>
        rw [perform, hcancel] <;> exact ⟨rfl, rfl⟩
  | cycle => exact absurd rfl hne
  | reset | step | execute => cases hspares
  | _ => exact ⟨rfl, rfl⟩

/-- The records of the instructions that cycles come across are the only traces. -/
theorem perform_traces
    (hspares : action.sparesCount = true) :
    (Event.records (m.perform action).events).filter (·.severity = .trace) =
      ((m.decodedBy? action).map Decoding.record).toList := by
  have htrace : ∀ r : Record, decide (r.severity = .trace) = true → r.severity ≠ .debug := by
    intro r hr
    simp [of_decide_eq_true hr]
  rw [← filter_diagnostics htrace]
  by_cases hcycle : action = .cycle
  · subst hcycle
    have hevents : (m.perform .cycle).events = m.cycle.events := rfl
    have hcall : (callRecord? m.cycle.answer).toList.filter (·.severity = .trace) = [] := by
      unfold callRecord?
      split <;> rfl
    have hhalt : (haltRecord? m.pc m.cycle.answer).toList.filter (·.severity = .trace) = [] := by
      cases m.cycle.answer <;> rfl
    rw [hevents, cycle_diagnostics, List.filter_append, List.filter_append, List.filter_append,
      hcall, hhalt, decodedBy?]
    cases m.decoded? <;> cases m.passedOver? <;> rfl
  · have hnone : m.decodedBy? action = none := by
      cases action with
      | cycle => exact absurd rfl hcycle
      | _ => rfl
    rw [(perform_of_ne_cycle hspares hcycle).1, hnone]
    rfl

/-- Of the words that are passed over there are as many warnings as are counted. -/
theorem perform_unrecognized
    (hspares : action.sparesCount = true) :
    (m.perform action).machine.unrecognized =
      m.unrecognized + (Event.records (m.perform action).events).countP Record.isSkip := by
  rw [List.countP_eq_length_filter, ← filter_diagnostics fun _ => Record.severity_of_isSkip]
  by_cases hcycle : action = .cycle
  · subst hcycle
    have hevents : (m.perform .cycle).events = m.cycle.events := rfl
    have hdecoded : (m.decoded?.map Decoding.record).toList.filter Record.isSkip = [] := by
      cases m.decoded? <;> rfl
    have hpassed : ((m.passedOver?.map (skipRecord m.pc)).toList.filter Record.isSkip).length =
        m.passedOver?.toList.length := by
      cases m.passedOver? <;> rfl
    have hcall : (callRecord? m.cycle.answer).toList.filter Record.isSkip = [] := by
      unfold callRecord?
      split <;> rfl
    have hhalt : (haltRecord? m.pc m.cycle.answer).toList.filter Record.isSkip = [] := by
      cases m.cycle.answer <;> rfl
    rw [m.perform_eq_step_of_runs (f := Machine.unrecognized) (fun _ => rfl) rfl,
      step_unrecognized, hevents, cycle_diagnostics, List.filter_append, List.filter_append,
      List.filter_append, hdecoded, hcall, hhalt, List.append_nil, List.append_nil,
      List.nil_append, hpassed]
  · obtain ⟨hnone, hsame⟩ := perform_of_ne_cycle (m := m) hspares hcycle
    rw [hnone, hsame]
    rfl

/-! ## A whole run -/

theorem performAll_traces
    (m : Machine) {actions : List Action} (hspares : ∀ a ∈ actions, a.sparesCount = true) :
    (Event.records (m.performAll actions).events).filter (·.severity = .trace) =
      (m.decodings actions).map Decoding.record := by
  induction actions generalizing m with
  | nil => rfl
  | cons action actions ih =>
      rw [List.forall_mem_cons] at hspares
      rw [performAll_cons, Event.records_append, List.filter_append, perform_traces hspares.1,
        ih _ hspares.2, decodings, List.map_append, ← Option.toList_map]

theorem performAll_unrecognized
    (m : Machine) {actions : List Action} (hspares : ∀ a ∈ actions, a.sparesCount = true) :
    (m.performAll actions).machine.unrecognized =
      m.unrecognized + (Event.records (m.performAll actions).events).countP Record.isSkip := by
  induction actions generalizing m with
  | nil => rfl
  | cons action actions ih =>
      rw [List.forall_mem_cons] at hspares
      rw [performAll_cons, ih _ hspares.2, perform_unrecognized hspares.1, Event.records_append,
        List.countP_append, Nat.add_assoc]

/-- What an answer and a log have to say of a cycle of `m`. -/
structure Documents (m : Machine) (result : StepResult) (log : List Record) : Prop where
  records : diagnostics log =
    (m.decoded?.map Decoding.record).toList ++
      (m.passedOver?.map (skipRecord m.pc)).toList ++
      (callRecord? result).toList ++
      (haltRecord? m.pc result).toList
  /-- The cycle answers with the instruction that it has come across, or with its fault. -/
  decoded : ∀ d ∈ m.decoded?, result = (m.execute d.instruction).map fun _ => some d.instruction
  /-- It answers with nothing if it has waited for a key or passed over a word, and only then. -/
  idle : result = .ok none ↔ m.isAwaitingKey = true ∨ m.passedOver?.isSome = true
  /-- If it fails, the program counter is still where it was, as is everything else. -/
  halted : ∀ fault, result = .error fault → m.cycle.machine = m

theorem documents_cycle
    (m : Machine) :
    m.Documents m.cycle.answer (Event.records m.cycle.events) where
  records := m.cycle_diagnostics
  decoded := fun _ hd => cycle_answer_of_decoded? hd
  idle := by rw [cycle_answer, step_answer_eq_ok_none_iff]
  halted := by
    intro fault hfault
    rw [cycle_of_error (m.cycle_answer.symm.trans hfault)]

end Machine

namespace Emulator

/-- Nothing is below the least severity. -/
theorem kept_of_trace
    {e : Emulator} (h : e.threshold = some .trace) (events : List Event) :
    e.kept events = Event.records events := by
  simp [kept, h, Event.records, Severity.reaches, Severity.rank]

theorem threshold_performAll
    (e : Emulator) (actions : List Action) :
    (e.performAll actions).2.threshold = e.threshold :=
  rfl

/-- The log is a faithful record of the run.  Once a machine was reset, and as long as it is run by
cycles, the traces are those of the instructions that the cycles came across, in their order, with
the address and the word of each; and as many words have been passed over as there are warnings of
it.  A cycle leaves exactly the following besides details: the trace of the instruction that it came
across, the warning of the word that it passed over, the warning of the machine call that it
ignored, and the error with its fault and the address of the faulty instruction.  It answers with
the instruction or with its fault, and with nothing if there was none because it waited for a key or
passed over a word. -/
theorem log_documents_the_run
    (e : Emulator) (hlog : e.threshold = some .trace) {actions : List Action}
    (hspares : ∀ action ∈ actions, action.sparesCount = true) :
    let start := (e.perform .reset).2
    let run := start.performAll actions
    run.1.log.filter (·.severity = .trace) =
        (start.machine.decodings actions).map Decoding.record ∧
      run.2.machine.unrecognized = run.1.log.countP Record.isSkip ∧
      ∀ before after : List Action, actions = before ++ .cycle :: after →
        let now := (start.performAll before).2
        let response := (now.perform .cycle).1
        ∃ result, response.answer = .cycled result ∧ now.machine.Documents result response.log := by
  intro start run
  have hstart : start.threshold = some .trace := (e.perform_listeners .reset).2.trans hlog
  have hkept : run.1.log = Event.records (start.machine.performAll actions).events :=
    kept_of_trace hstart _
  refine ⟨?_, ?_, ?_⟩
  · rw [hkept]
    exact start.machine.performAll_traces hspares
  · have hzero : start.machine.unrecognized = 0 := rfl
    have hcount := start.machine.performAll_unrecognized hspares
    rw [hzero, Nat.zero_add] at hcount
    rw [hkept]
    exact hcount
  · intro before after _ now response
    have hnow : now.threshold = some .trace := (start.threshold_performAll before).trans hstart
    have hresponse : response.log = Event.records now.machine.cycle.events :=
      kept_of_trace hnow _
    rw [hresponse]
    exact ⟨now.machine.cycle.answer, rfl, now.machine.documents_cycle⟩

/-- A machine call is ignored, a word is passed over, a key is waited for and pressed, and then a
return fails because nothing was called. -/
theorem log_of_run_into_empty_stack :
    let e : Emulator := ⟨Machine.booted [], none, some .trace⟩
    let before : List Action :=
      [.load [0x01, 0x23, 0xFF, 0xFF, 0xF1, 0x0A, 0x00, 0xEE], .cycle, .cycle, .cycle, .cycle,
        .press 5, .cycle]
    let start := (e.perform .reset).2
    let run := start.performAll (before ++ [.cycle])
    let response := ((start.performAll before).2.perform .cycle).1
    (∀ action ∈ before ++ [.cycle], action.sparesCount = true) ∧
      run.1.log.filter (·.severity = .trace) =
        [⟨.trace, "execute",
            [("pc", "0x0200"), ("opcode", "0x0123"), ("op", "CallRca { addr: 291 }")]⟩,
          ⟨.trace, "execute",
            [("pc", "0x0204"), ("opcode", "0xF10A"), ("op", "WaitKey { x: 1 }")]⟩,
          ⟨.trace, "execute", [("pc", "0x0206"), ("opcode", "0x00EE"), ("op", "Return")]⟩] ∧
      run.1.log.countP Record.isSkip = 1 ∧
      diagnostics response.log =
        [⟨.trace, "execute", [("pc", "0x0206"), ("opcode", "0x00EE"), ("op", "Return")]⟩,
          ⟨.error, "halting",
            [("pc", "0x0206"), ("error", "return at 0x0206 with an empty call stack")]⟩] := by
  intro e before start run response
  have hspares : ∀ action ∈ before ++ [.cycle], action.sparesCount = true := by decide
  obtain ⟨hdecodings, hcount, hdecoded, hpassed, hanswer, hpc⟩ :
      start.machine.decodings (before ++ [.cycle]) =
          [⟨0x200, 0x0123, .address .machineCall 0x123⟩, ⟨0x204, 0xF10A, .register .waitKey 1⟩,
            ⟨0x206, 0x00EE, .ret⟩] ∧
        run.2.machine.unrecognized = 1 ∧
        (start.performAll before).2.machine.decoded? = some ⟨0x206, 0x00EE, .ret⟩ ∧
        (start.performAll before).2.machine.passedOver? = none ∧
        (start.performAll before).2.machine.cycle.answer = .error (.stackUnderflow 0x206) ∧
        (start.performAll before).2.machine.pc = 0x206 := by
    decide +kernel
  obtain ⟨htraces, hskips, hdocuments⟩ := e.log_documents_the_run rfl hspares
  obtain ⟨result, hresult, hdocuments⟩ := hdocuments before [] rfl
  cases hresult
  have hrecords := hdocuments.records
  rw [hdecoded, hpassed, hanswer, hpc] at hrecords
  rw [hdecodings] at htraces
  exact ⟨hspares, htraces, hskips.symm.trans hcount, hrecords⟩

end Emulator

end Chip8
