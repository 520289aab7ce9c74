import Chip8.Proofs.JsonPrinting
import Chip8.Proofs.Members
import Chip8.Settings.Document

/-!
# Settings that a document gives

A document gives some of the settings, as members in any order or as a list of the first ones, and
is read as those settings with the defaults for the others.  A setting that is given is never
replaced by its default: what cannot be read in its place is the end of the reading.
-/

namespace Chip8

namespace Settings

variable {s : Settings} {j : Json}

/-- The settings where they are given, and the defaults elsewhere. -/
def orDefault (s : Settings) (given : String → Bool) : Settings where
  logLevel := if given "log_level" then s.logLevel else default.logLevel
  seed := if given "rng_seed" then s.seed else default.seed
  cyclesPerFrame := if given "cycles_per_frame" then s.cyclesPerFrame else default.cyclesPerFrame
  maxCycles := if given "max_cycles" then s.maxCycles else default.maxCycles

/-- The settings as they are written, each with its name. -/
def written (s : Settings) : List (String × Json) :=
  fieldNames.zip s.fieldValues

theorem names_written (s : Settings) : s.written.map Prod.fst = fieldNames :=
  rfl

theorem nodup_written (s : Settings) : (s.written.map Prod.fst).Nodup := by
  rw [names_written]
  decide

/-! ## Settings one by one -/

theorem ofJson?_name (severity : Severity) :
    Severity.ofJson? (.ofString severity.name) = some severity := by
  cases severity <;> decide

theorem readLong?_written (n : Option UInt64) :
    readLong? (.ofNat? (n.map UInt64.toNat)) = some n := by
  cases n with
  | none => rfl
  | some n =>
      change ((if n.toNat < UInt64.size then some n.toNat else none).map some).map _ = _
      rw [if_pos n.toNat_lt]
      exact congrArg (some ∘ some) UInt64.ofNat_toNat

theorem readCount?_written (n : UInt32) : readCount? (.ofNat n.toNat) = some n := by
  rw [readCount?, Json.below?_ofNat n.toNat_lt]
  exact congrArg some UInt32.ofNat_toNat

/-- A setting is read as what it is given, or else keeps its default. -/
theorem readOr_given
    {α : Type} {fallback a : α} {read : Json → Option α} (h : read j = some a) (given : Bool) :
    readOr fallback read (if given then some j else none) =
      some (if given then a else fallback) := by
  cases given with
  | false => rfl
  | true => exact h

theorem ofJson?_of_values
    {logLevel seed cyclesPerFrame maxCycles : Option Json}
    (h : j.fields? fieldNames = some [logLevel, seed, cyclesPerFrame, maxCycles]) :
    ofJson? j =
      (readOr default.logLevel Severity.ofJson? logLevel).bind fun logLevel =>
        (readOr default.seed readLong? seed).bind fun seed =>
          (readOr default.cyclesPerFrame readCount? cyclesPerFrame).bind fun cyclesPerFrame =>
            (readOr default.maxCycles readLong? maxCycles).bind fun maxCycles =>
              some { logLevel, seed, cyclesPerFrame, maxCycles } := by
  rw [ofJson?, h]
  rfl

/-- The fields that are given are read, and the others keep their defaults. -/
theorem ofJson?_of_fields?
    {given : String → Bool}
    (h : j.fields? fieldNames =
      some (s.written.map fun (name, value) => if given name then some value else none)) :
    ofJson? j = some (s.orDefault given) := by
  rw [ofJson?_of_values h, readOr_given (ofJson?_name _), readOr_given (readLong?_written _),
    readOr_given (readCount?_written _), readOr_given (readLong?_written _)]
  rfl

/-! ## Documents that give some settings -/

/-- The settings may be given in any order, among members that nobody knows. -/
theorem ofJson?_of_gives
    {members : List (Option String × Json)} (given : String → Bool)
    (h : Json.Gives fieldNames (s.written.filter (given ·.1)) members) :
    ofJson? (.object members) = some (s.orDefault given) :=
  ofJson?_of_fields? (Json.Gives.fields?_of_filter given s.nodup_written h)

/-- The first settings may be given as a list. -/
theorem ofJson?_of_take (s : Settings) (n : Nat) :
    ofJson? (.array (s.fieldValues.take n)) =
      some (s.orDefault fun name => decide (name ∈ fieldNames.take n)) := by
  apply ofJson?_of_fields?
  simp only [decide_eq_true_eq]
  exact Json.fields?_take n s.nodup_written

theorem ofJson?_toJson (s : Settings) : ofJson? s.toJson = some s := by
  have hgives : Json.Gives fieldNames (s.written.filter fun _ => true)
      (s.written.map fun (name, value) => (some name, value)) := by
    rw [List.filter_true]
    exact .refl _ _
  exact ofJson?_of_gives (fun _ => true) hgives

/-! ## Documents that are rejected -/

/-- The numbers of a setting are below this bound; a severity is no number. -/
def numberBound : String → Nat
  | "log_level" => 0
  | "cycles_per_frame" => UInt32.size
  | _ => UInt64.size

/-- What a setting must not be given: a number that is not below its bound, or null in place of a
severity or of the cycles between two frames. -/
inductive Unfit : String → Json → Prop
  | null {name : String} : name ∈ ["log_level", "cycles_per_frame"] → Unfit name .null
  | number {name : String} {value : Option Nat} :
      (∀ n < numberBound name, value ≠ some n) → Unfit name (.number value)

/-- In a document that is read every setting is read, if it is given. -/
theorem ofJson?_cases (h : ofJson? j = some s) :
    ∃ logLevel seed cyclesPerFrame maxCycles,
      j.fields? fieldNames = some [logLevel, seed, cyclesPerFrame, maxCycles] ∧
      readOr default.logLevel Severity.ofJson? logLevel = some s.logLevel ∧
      readOr default.seed readLong? seed = some s.seed ∧
      readOr default.cyclesPerFrame readCount? cyclesPerFrame = some s.cyclesPerFrame ∧
      readOr default.maxCycles readLong? maxCycles = some s.maxCycles := by
  rw [ofJson?] at h
  split at h
  next logLevel seed cyclesPerFrame maxCycles hfields =>
    simp only [Option.bind_eq_bind, Option.bind_eq_some_iff] at h
    obtain ⟨_, hlogLevel, _, hseed, _, hcyclesPerFrame, _, hmaxCycles, heq⟩ := h
    obtain rfl := Option.some.inj heq
    exact ⟨_, _, _, _, hfields, hlogLevel, hseed, hcyclesPerFrame, hmaxCycles⟩
  next => cases h

theorem ofJson?_eq_none_of_fields? (h : j.fields? fieldNames = none) : ofJson? j = none := by
  rw [ofJson?, h]

theorem below?_of_unfit
    {name : String} {value : Json} (h : Unfit name value) :
    value.below? (numberBound name) = none := by
  cases h with
  | null => rfl
  | number hvalue =>
      refine Json.below?_eq_none fun n hn heq => ?_
      exact hvalue n hn (Json.number.inj heq)

/-- What a setting must not be given is not read in its place. -/
theorem severity_of_unfit {value : Json} (h : Unfit "log_level" value) :
    Severity.ofJson? value = none := by
  cases h <;> rfl

theorem readCount?_of_unfit {value : Json} (h : Unfit "cycles_per_frame" value) :
    readCount? value = none := by
  rw [readCount?]
  exact congrArg (Option.map UInt32.ofNat) (below?_of_unfit h)

theorem readLong?_of_unfit
    {name : String} {value : Json} (hname : name ∈ ["rng_seed", "max_cycles"])
    (h : Unfit name value) :
    readLong? value = none := by
  have hbound : numberBound name = UInt64.size := by
    simp only [List.mem_cons, List.not_mem_nil, or_false] at hname
    rcases hname with rfl | rfl <;> rfl
  have hbelow := below?_of_unfit h
  rw [hbound] at hbelow
  cases h with
  | null hnull =>
      exact absurd hname ((by decide : ∀ name ∈ ["log_level", "cycles_per_frame"],
        name ∉ ["rng_seed", "max_cycles"]) name hnull)
  | number =>
      rw [readLong?, Json.nullOrBelow?, hbelow]
      · rfl
      · nofun

/-- A setting that is given what it must not be is the end of the reading. -/
theorem ofJson?_of_unfit
    {i : Nat} {name : String} {value : Json} (hname : fieldNames[i]? = some name)
    (hassigns : Json.Assigns fieldNames i value j) (hunfit : Unfit name value) :
    ofJson? j = none := by
  rw [Option.eq_none_iff_forall_ne_some]
  intro s hs
  obtain ⟨logLevel, seed, cyclesPerFrame, maxCycles, hfields, hlogLevel, hseed, hcyclesPerFrame,
    hmaxCycles⟩ := ofJson?_cases hs
  have hvalue := hassigns.getElem?_fields? hfields
  rcases i with _ | _ | _ | _ | i
  · obtain rfl := Option.some.inj hname
    obtain rfl := Option.some.inj hvalue
    cases (severity_of_unfit hunfit).symm.trans hlogLevel
  · obtain rfl := Option.some.inj hname
    obtain rfl := Option.some.inj hvalue
    cases (readLong?_of_unfit (by decide) hunfit).symm.trans hseed
  · obtain rfl := Option.some.inj hname
    obtain rfl := Option.some.inj hvalue
    cases (readCount?_of_unfit hunfit).symm.trans hcyclesPerFrame
  · obtain rfl := Option.some.inj hname
    obtain rfl := Option.some.inj hvalue
    cases (readLong?_of_unfit (by decide) hunfit).symm.trans hmaxCycles
  · cases hname

/-- Every document that gives some settings, in any order among scalars that nobody knows, or as a
list of the first ones, is read as those settings with the defaults for the others; all settings
together are read back.  A document that gives a setting twice, a list that is too long, and a
number or null where it must not be are rejected. -/
theorem partial_documents_keep_defaults :
    Json.Records toJson ofJson? ∧
    (∀ (s : Settings) (given : String → Bool) members text,
      Json.Gives fieldNames (s.written.filter (given ·.1)) members →
      Json.IsText (.object members) text →
      Json.read? ofJson? text = some (s.orDefault given)) ∧
    (∀ (s : Settings) n text,
      Json.IsText (.array (s.fieldValues.take n)) text →
      Json.read? ofJson? text = some (s.orDefault fun name => name ∈ fieldNames.take n)) ∧
    (∀ name members text,
      name ∈ fieldNames → 1 < (members.map Prod.fst).count (some name) →
      Json.IsText (.object members) text →
      Json.read? ofJson? text = none) ∧
    (∀ items text,
      4 < items.length →
      Json.IsText (.array items) text →
      Json.read? ofJson? text = none) ∧
    (∀ i name value j text,
      fieldNames[i]? = some name → Json.Assigns fieldNames i value j → Unfit name value →
      Json.IsText j text →
      Json.read? ofJson? text = none) := by
  refine ⟨Json.records_of_ofJson?_toJson ofJson?_toJson, ?_, ?_, ?_, ?_, ?_⟩
  · intro s given members text hgives htext
    rw [Json.read?_of_isText htext, ofJson?_of_gives given hgives]
  · intro s n text htext
    rw [Json.read?_of_isText htext, ofJson?_of_take]
  · intro name members text hname hrepeated htext
    rw [Json.read?_of_isText htext]
    exact ofJson?_eq_none_of_fields? (Json.fields?_eq_none_of_repeated hname hrepeated)
  · intro items text hlong htext
    rw [Json.read?_of_isText htext]
    exact ofJson?_eq_none_of_fields? (Json.fields?_eq_none_of_tooLong hlong)
  · intro i name value j text hname hassigns hunfit htext
    rw [Json.read?_of_isText htext, ofJson?_of_unfit hname hassigns hunfit]

/-- A seed and a number of cycles are read from an object that also has a note, and a severity is
not replaced by its default when null is given for it. -/
theorem seed_and_cycles_read_with_defaults :
    Json.read? ofJson? (Json.ofFields
      [("note", .bool true), ("max_cycles", .ofNat 500), ("rng_seed", .ofNat 7)]).print =
      some { default with seed := some 7, maxCycles := some 500 } ∧
    Json.read? ofJson? (Json.ofFields [("log_level", .null)]).print = none := by
  obtain ⟨-, hgiven, -, -, -, hunfit⟩ := partial_documents_keep_defaults
  have hperm := List.reverse_perm
    ([("rng_seed", Json.ofNat 7), ("max_cycles", .ofNat 500), ("note", .bool true)].map
      fun member => (some member.1, member.2))
  exact ⟨hgiven { default with seed := some 7, maxCycles := some 500 }
      (fun name => name ∈ ["rng_seed", "max_cycles"]) _ _ ⟨[("note", .bool true)], by decide, hperm⟩
      (Json.isText_print _),
    hunfit 0 "log_level" .null _ _ rfl (.member rfl (.head _)) (.null (by decide))
      (Json.isText_print _)⟩

end Settings

end Chip8
