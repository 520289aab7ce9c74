import Chip8.Json.Parser
import Chip8.Proofs.JsonText
import Mathlib.Data.List.DropRight

/-!
# Reading the texts of a value

Every text of a value is read as that value.  Each scanner is shown to take exactly the text of its
production from the front, whatever follows it, as long as that cannot belong to a number.
-/

namespace Chip8

namespace Json

variable {s rest blanks : List Char}

/-! ## Blanks -/

theorem isBlank_eq_true_iff {c : Char} : isBlank c = true ↔ c ∈ [' ', '\t', '\n', '\r'] := by
  simp [isBlank, or_assoc]

/-- Blanks at the front are left out, whatever comes behind them. -/
theorem skipBlanks_append (h : Blanks blanks) (s : List Char) :
    skipBlanks (blanks ++ s) = skipBlanks s :=
  List.dropWhile_append_of_pos fun c hc => isBlank_eq_true_iff.mpr (h c hc)

theorem skipBlanks_skipBlanks (s : List Char) : skipBlanks (skipBlanks s) = skipBlanks s :=
  List.dropWhile_idempotent isBlank s

/-! ## Numbers -/

/-- What stands here does not begin with a digit. -/
def EndsDigits (s : List Char) : Prop :=
  ∀ c ∈ s.head?, c.isDigit = false

/-- What stands here does not go on with a number. -/
def EndsNumber (s : List Char) : Prop :=
  EndsDigits s ∧ ∀ c ∈ s.head?, c ∉ ['.', 'e', 'E']

theorem Digits.exists_cons (h : Digits s) : ∃ c rest, c.isDigit = true ∧ s = c :: rest := by
  obtain ⟨c, rest, rfl⟩ := List.exists_cons_of_ne_nil h.1
  exact ⟨c, rest, h.2 c (.head _), rfl⟩

theorem scanDigits?_append (h : Digits s) (hrest : EndsDigits rest) :
    scanDigits? (s ++ rest) = some (s, rest) := by
  have htake : rest.takeWhile Char.isDigit = [] ∧ rest.dropWhile Char.isDigit = rest := by
    cases rest with
    | nil => exact ⟨rfl, rfl⟩
    | cons c rest => simp [hrest c rfl]
  obtain ⟨c, t, -, rfl⟩ := h.exists_cons
  rw [scanDigits?, List.takeWhile_append_of_pos h.2, List.dropWhile_append_of_pos h.2, htake.1,
    htake.2, List.append_nil]

theorem scanWhole?_append (h : Whole s) (hrest : EndsDigits rest) :
    scanWhole? (s ++ rest) = some (s, rest) := by
  obtain ⟨c, t, -, rfl⟩ := h.1.exists_cons
  by_cases hc : c = '0'
  · subst hc
    obtain rfl : t = [] := List.tail_eq_of_cons_eq (h.2 rfl)
    rfl
  · rw [← scanDigits?_append h.1 hrest, List.cons_append, scanWhole?]
    exact fun _ heq => hc (List.head_eq_of_cons_eq heq)

theorem scanFraction?_append
    (h : Fraction s) (hrest : EndsDigits rest) (hdot : '.' ∉ rest.head?) :
    scanFraction? (s ++ rest) = some (!s.isEmpty, rest) := by
  cases h with
  | absent =>
      rw [List.nil_append, scanFraction?]
      · rfl
      · rintro t rfl
        exact hdot rfl
  | @digits s hs =>
      change (scanDigits? (s ++ rest)).bind _ = _
      rw [scanDigits?_append hs hrest]
      rfl

theorem skipSign_append
    {sign : List Char} (hsign : sign ∈ [[], ['+'], ['-']]) (hs : Digits s) (rest : List Char) :
    skipSign (sign ++ s ++ rest) = s ++ rest := by
  obtain ⟨c, t, hc, rfl⟩ := hs.exists_cons
  simp only [List.mem_cons, List.not_mem_nil, or_false] at hsign
  rcases hsign with rfl | rfl | rfl
  · rw [List.nil_append, List.cons_append, skipSign]
    all_goals
      intro u heq
      obtain rfl := List.head_eq_of_cons_eq heq
      exact absurd hc (by decide)
  · rfl
  · rfl

theorem scanExponent?_append
    (h : Exponent s) (hrest : EndsNumber rest) :
    scanExponent? (s ++ rest) = some (!s.isEmpty, rest) := by
  cases h with
  | absent =>
      rw [List.nil_append, scanExponent?]
      · rfl
      · rintro t rfl
        exact hrest.2 _ rfl (by decide)
      · rintro t rfl
        exact hrest.2 _ rfl (by decide)
  | @digits e sign s he hsign hs =>
      have hscan : scanDigits? (skipSign (sign ++ s ++ rest)) = some (s, rest) := by
        rw [skipSign_append hsign hs, scanDigits?_append hs hrest.1]
      simp only [List.mem_cons, List.not_mem_nil, or_false] at he
      rcases he with rfl | rfl
      all_goals
        change (scanDigits? (skipSign (sign ++ s ++ rest))).bind _ = _
        rw [hscan]
        rfl

theorem Fraction.endsDigits_append (h : Fraction s) (hrest : EndsDigits rest) :
    EndsDigits (s ++ rest) := by
  cases h with
  | absent => exact hrest
  | digits hs => exact fun c hc => by cases hc; rfl

theorem Exponent.endsDigits_append (h : Exponent s) (hrest : EndsNumber rest) :
    EndsDigits (s ++ rest) := by
  cases h with
  | absent => exact hrest.1
  | digits he =>
      intro c hc
      obtain rfl := Option.some.inj hc
      simp only [List.mem_cons, List.not_mem_nil, or_false] at he
      rcases he with rfl | rfl <;> rfl

theorem Exponent.dot_not_mem_head? (h : Exponent s) (hrest : EndsNumber rest) :
    '.' ∉ (s ++ rest).head? := by
  cases h with
  | absent => exact fun hdot => hrest.2 _ hdot (.head _)
  | digits he =>
      intro hdot
      obtain rfl := Option.some.inj hdot
      exact absurd he (by decide)

/-- The parts of a number are read as a natural number if there is nothing but digits. -/
theorem scanNumber?_append
    {sign whole fraction exponent : List Char} (hsign : sign ∈ [[], ['-']]) (hwhole : Whole whole)
    (hfraction : Fraction fraction) (hexponent : Exponent exponent) (hrest : EndsNumber rest) :
    scanNumber? (sign ++ (whole ++ (fraction ++ (exponent ++ rest)))) =
      some (number (if sign ++ fraction ++ exponent = [] then
        some (Nat.ofDigitChars 10 whole 0) else none), rest) := by
  have hends := hexponent.endsDigits_append hrest
  have hwholeScan := scanWhole?_append hwhole (hfraction.endsDigits_append hends)
  have hfractionScan := scanFraction?_append hfraction hends (hexponent.dot_not_mem_head? hrest)
  have hexponentScan := scanExponent?_append hexponent hrest
  simp only [List.mem_cons, List.not_mem_nil, or_false] at hsign
  rcases hsign with rfl | rfl
  · obtain ⟨c, t, hc, hcons⟩ := hwhole.1.exists_cons
    unfold scanNumber?
    split
    next hasSign s hmatch =>
      split at hmatch
      next _ heq =>
        rw [hcons] at heq
        obtain rfl := List.head_eq_of_cons_eq heq
        exact absurd hc (by decide)
      next =>
        obtain ⟨rfl, rfl⟩ := Prod.mk.inj hmatch
        rw [List.nil_append, hwholeScan]
        simp only [Option.bind_eq_bind, Option.bind_some, hfractionScan, hexponentScan]
        cases fraction <;> cases exponent <;> rfl
  · simp [scanNumber?, hwholeScan, hfractionScan, hexponentScan]

theorem whole_toDigits (n : Nat) : Whole (Nat.toDigits 10 n) := by
  refine ⟨⟨Nat.toDigits_ne_nil, fun c hc => Nat.isDigit_of_mem_toDigits (by decide) (by decide) hc⟩,
    ?_⟩
  induction n using Nat.strongRecOn with
  | _ n ih =>
      intro hhead
      by_cases hn : n < 10
      · rw [Nat.toDigits_of_lt_base hn] at hhead ⊢
        exact congrArg (fun c => [c]) (Option.some.inj hhead)
      · -- The digits before the last one would be those of zero.
        rw [Nat.toDigits_of_base_le (by decide) (Nat.le_of_not_lt hn),
          List.head?_append_of_ne_nil _ Nat.toDigits_ne_nil] at hhead
        have hzero := congrArg (Nat.ofDigitChars 10 · 0) (ih (n / 10) (by omega) hhead)
        rw [Nat.ofDigitChars_ten_toDigits] at hzero
        have hzero : n / 10 = 0 := hzero
        omega

/-- A number is read as its value, up to where it ends. -/
theorem scanNumber?_of_numberText
    {value : Option Nat} (h : NumberText value s) (hrest : EndsNumber rest) :
    scanNumber? (s ++ rest) = some (number value, rest) := by
  cases h with
  | natural n =>
      have hscan := scanNumber?_append (.head _) (whole_toDigits n) .absent .absent hrest
      rw [Nat.ofDigitChars_ten_toDigits] at hscan
      exact hscan
  | other hsign hwhole hfraction hexponent hne =>
      have hscan := scanNumber?_append hsign hwhole hfraction hexponent hrest
      rw [if_neg hne] at hscan
      simpa only [List.append_assoc] using hscan

/-! ## Strings -/

/-- The text of a piece is read as that piece before whatever follows. -/
theorem scanPieces_append
    {piece : Piece} (h : PieceText piece s) (rest : List Char) :
    scanPieces (s ++ rest) =
      (scanPieces rest).map fun (pieces, rest) => (piece :: pieces, rest) := by
  cases h with
  | plain hc hquote hslash =>
      rw [List.singleton_append, scanPieces]
      · rw [if_neg (not_or.mpr ⟨Nat.not_lt.mpr hc, hslash⟩)]
        cases scanPieces rest <;> rfl
      · exact hquote
      · exact fun _ _ _ _ _ h => absurd h hslash
      · exact fun _ _ h => absurd h hslash
  | @letter letter c hletter =>
      change scanPieces ('\\' :: letter :: rest) = _
      rw [scanPieces]
      · rw [hletter]
        cases scanPieces rest <;> rfl
      · rintro a b d e t rfl -
        cases hletter
  | @unit a b c d value hvalue =>
      change scanPieces ('\\' :: 'u' :: a :: b :: c :: d :: rest) = _
      rw [scanPieces, hvalue]
      cases scanPieces rest <;> rfl

/-- The pieces up to the closing quote are read one after the other. -/
theorem scanPieces_of_piecesText
    {pieces : List Piece} (h : PiecesText pieces s) (rest : List Char) :
    scanPieces (s ++ '\"' :: rest) = some (pieces, rest) := by
  induction h with
  | nil => rfl
  | cons hpiece _ ih =>
      rw [List.append_assoc, scanPieces_append hpiece, ih]
      rfl

/-- A string is read as its value, up to and with its closing quote. -/
theorem scanString?_of_stringText
    {value : Option String} (h : StringText value s) :
    ∃ body, s = '\"' :: body ∧
      ∀ rest, scanString? (body ++ rest) = some (value, rest) := by
  obtain ⟨pieces, body, hpieces, hvalue, rfl⟩ := h
  refine ⟨_, rfl, fun rest => ?_⟩
  rw [scanString?, List.append_assoc, List.singleton_append, scanPieces_of_piecesText hpieces]
  exact congrArg (fun value => some (value, rest)) hvalue

/-! ## One step of a value -/

section Steps

variable {fuel : Nat} {items : List Json} {members : List (Option String × Json)}
variable {key : Option String} {item value : Json} {t u v w x : List Char}

theorem scanValue?_skipBlanks (fuel : Nat) (s : List Char) :
    scanValue? fuel (skipBlanks s) = scanValue? fuel s := by
  cases fuel with
  | zero => rfl
  | succ fuel => rw [scanValue?, scanValue?, skipBlanks_skipBlanks]

theorem scanItems?_skipBlanks (fuel : Nat) (s : List Char) :
    scanItems? fuel (skipBlanks s) = scanItems? fuel s := by
  cases fuel with
  | zero => rfl
  | succ fuel => rw [scanItems?, scanItems?, scanValue?_skipBlanks]

theorem scanMembers?_skipBlanks (fuel : Nat) (s : List Char) :
    scanMembers? fuel (skipBlanks s) = scanMembers? fuel s := by
  cases fuel with
  | zero => rfl
  | succ fuel => rw [scanMembers?, scanMembers?, skipBlanks_skipBlanks]

/-- No item begins with the closing bracket. -/
theorem scanItems?_bracket (fuel : Nat) (s : List Char) : scanItems? fuel (']' :: s) = none := by
  match fuel with
  | 0 => rfl
  | 1 => rfl
  | _ + 2 => rfl

/-- No member begins with the closing brace. -/
theorem scanMembers?_brace (fuel : Nat) (s : List Char) : scanMembers? fuel ('}' :: s) = none := by
  cases fuel <;> rfl

/-- A sign or a digit begins a number. -/
theorem scanValue?_number
    {c : Char} (hc : c = '-' ∨ c.isDigit = true) :
    scanValue? (fuel + 1) (c :: s) = scanNumber? (c :: s) := by
  have hskip : skipBlanks (c :: s) = c :: s := by
    refine List.dropWhile_cons_of_neg fun hblank => ?_
    have hmem := isBlank_eq_true_iff.mp hblank
    simp only [List.mem_cons, List.not_mem_nil, or_false] at hmem
    rcases hmem with rfl | rfl | rfl | rfl
    all_goals exact absurd hc (by decide)
  rw [scanValue?, hskip]
  split
  case h_7 => rfl
  all_goals
    next heq =>
      obtain rfl := List.head_eq_of_cons_eq heq
      exact absurd hc (by decide)

theorem scanValue?_string (h : scanString? s = some (key, rest)) :
    scanValue? (fuel + 1) ('\"' :: s) = some (string key, rest) := by
  change (scanString? s).bind _ = _
  rw [h]
  rfl

theorem scanValue?_bracket :
    scanValue? (fuel + 1) ('[' :: s) =
      match skipBlanks s with
      | ']' :: rest => some (array [], rest)
      | rest => (scanItems? fuel rest).bind fun (items, rest) => some (array items, rest) :=
  rfl

theorem scanValue?_brace :
    scanValue? (fuel + 1) ('{' :: s) =
      match skipBlanks s with
      | '}' :: rest => some (object [], rest)
      | rest => (scanMembers? fuel rest).bind fun (members, rest) => some (object members, rest) :=
  rfl

theorem scanValue?_emptyArray (h : Blanks blanks) :
    scanValue? (fuel + 1) ('[' :: (blanks ++ ']' :: rest)) = some (array [], rest) := by
  rw [scanValue?_bracket, skipBlanks_append h]
  rfl

theorem scanValue?_emptyObject (h : Blanks blanks) :
    scanValue? (fuel + 1) ('{' :: (blanks ++ '}' :: rest)) = some (object [], rest) := by
  rw [scanValue?_brace, skipBlanks_append h]
  rfl

/-- An array that has items is not taken for an empty one. -/
theorem scanValue?_array (h : scanItems? fuel s = some (items, rest)) :
    scanValue? (fuel + 1) ('[' :: s) = some (array items, rest) := by
  rw [← scanItems?_skipBlanks] at h
  rw [scanValue?_bracket]
  split
  next heq =>
    rw [heq, scanItems?_bracket] at h
    cases h
  next => exact congrArg (Option.bind · _) h

/-- An object that has members is not taken for an empty one. -/
theorem scanValue?_object (h : scanMembers? fuel s = some (members, rest)) :
    scanValue? (fuel + 1) ('{' :: s) = some (object members, rest) := by
  rw [← scanMembers?_skipBlanks] at h
  rw [scanValue?_brace]
  split
  next heq =>
    rw [heq, scanMembers?_brace] at h
    cases h
  next => exact congrArg (Option.bind · _) h

theorem scanItems?_last
    (hitem : scanValue? fuel s = some (item, t)) (hclose : skipBlanks t = ']' :: rest) :
    scanItems? (fuel + 1) s = some ([item], rest) := by
  simp only [scanItems?, hitem, Option.bind_eq_bind, Option.bind_some, hclose]
  rfl

theorem scanItems?_next
    (hitem : scanValue? fuel s = some (item, t)) (hcomma : skipBlanks t = ',' :: u)
    (hitems : scanItems? fuel u = some (items, rest)) :
    scanItems? (fuel + 1) s = some (item :: items, rest) := by
  simp only [scanItems?, hitem, Option.bind_eq_bind, Option.bind_some, hcomma, hitems]
  rfl

theorem scanMembers?_last
    (hquote : skipBlanks s = '\"' :: t) (hkey : scanString? t = some (key, u))
    (hcolon : skipBlanks u = ':' :: v) (hvalue : scanValue? fuel v = some (value, w))
    (hclose : skipBlanks w = '}' :: rest) :
    scanMembers? (fuel + 1) s = some ([(key, value)], rest) := by
  simp only [scanMembers?, hquote, hkey, hcolon, hvalue, hclose, Option.bind_eq_bind,
    Option.bind_some]
  rfl

theorem scanMembers?_next
    (hquote : skipBlanks s = '\"' :: t) (hkey : scanString? t = some (key, u))
    (hcolon : skipBlanks u = ':' :: v) (hvalue : scanValue? fuel v = some (value, w))
    (hcomma : skipBlanks w = ',' :: x) (hmembers : scanMembers? fuel x = some (members, rest)) :
    scanMembers? (fuel + 1) s = some ((key, value) :: members, rest) := by
  simp only [scanMembers?, hquote, hkey, hcolon, hvalue, hcomma, hmembers, Option.bind_eq_bind,
    Option.bind_some]
  rfl

end Steps

/-! ## What follows a value -/

theorem endsNumber_nil : EndsNumber [] :=
  ⟨nofun, nofun⟩

/-- Blanks and what separates or closes values do not go on with a number. -/
theorem endsNumber_cons
    {c : Char} (hc : c ∈ [' ', '\t', '\n', '\r', ',', ']', '}']) (s : List Char) :
    EndsNumber (c :: s) := by
  have hall : c.isDigit = false ∧ c ∉ ['.', 'e', 'E'] := by
    simp only [List.mem_cons, List.not_mem_nil, or_false] at hc
    rcases hc with rfl | rfl | rfl | rfl | rfl | rfl | rfl <;> decide
  refine ⟨fun d hd => ?_, fun d hd => ?_⟩
  all_goals obtain rfl := Option.some.inj hd
  · exact hall.1
  · exact hall.2

theorem EndsNumber.blanks_append (hrest : EndsNumber rest) (h : Blanks blanks) :
    EndsNumber (blanks ++ rest) := by
  cases blanks with
  | nil => exact hrest
  | cons c blanks =>
      refine endsNumber_cons ?_ _
      exact List.mem_append_left [',', ']', '}'] (h c (.head _))

theorem NumberText.exists_cons {value : Option Nat} (h : NumberText value s) :
    ∃ c t, (c = '-' ∨ c.isDigit = true) ∧ s = c :: t := by
  cases h with
  | natural n =>
      obtain ⟨c, t, hc, hcons⟩ := (whole_toDigits n).1.exists_cons
      exact ⟨c, t, .inr hc, hcons⟩
  | other hsign hwhole =>
      obtain ⟨c, t, hc, rfl⟩ := hwhole.1.exists_cons
      simp only [List.mem_cons, List.not_mem_nil, or_false] at hsign
      rcases hsign with rfl | rfl
      · exact ⟨c, _, .inr hc, rfl⟩
      · exact ⟨'-', _, .inl rfl, rfl⟩

/-! ## Values -/

-- The recursion is on the derivation of the text.  Fuel above the length of its text lasts for a
-- value, and one more for items and members, since each of them is a call of its own.
mutual

/-- The text of a value is read as the value, up to what follows it. -/
theorem scanValue?_of_valueText
    {j : Json} {s : List Char} (h : ValueText j s) {fuel : Nat} (hfuel : s.length < fuel)
    {rest : List Char} (hrest : EndsNumber rest) :
    scanValue? fuel (s ++ rest) = some (j, rest) := by
  obtain ⟨fuel, rfl⟩ := Nat.exists_eq_add_one_of_ne_zero (Nat.ne_zero_of_lt hfuel)
  cases h with
  | null => rfl
  | true => rfl
  | false => rfl
  | number hnumber =>
      rw [← scanNumber?_of_numberText hnumber hrest]
      obtain ⟨c, t, hc, rfl⟩ := hnumber.exists_cons
      exact scanValue?_number hc
  | string hstring =>
      obtain ⟨body, rfl, hbody⟩ := scanString?_of_stringText hstring
      exact scanValue?_string (hbody rest)
  | @emptyArray blanks hblanks =>
      rw [List.cons_append, List.append_assoc]
      exact scanValue?_emptyArray hblanks
  | @array items s hitems =>
      rw [List.length_cons, List.length_append, List.length_singleton] at hfuel
      rw [List.cons_append, List.append_assoc]
      exact scanValue?_array (scanItems?_of_itemsText hitems (by omega) rest)
  | @emptyObject blanks hblanks =>
      rw [List.cons_append, List.append_assoc]
      exact scanValue?_emptyObject hblanks
  | @object members s hmembers =>
      rw [List.length_cons, List.length_append, List.length_singleton] at hfuel
      rw [List.cons_append, List.append_assoc]
      exact scanValue?_object (scanMembers?_of_membersText hmembers (by omega) rest)

/-- The text of a value between blanks is read as the value, and blanks at most are left in front of
what follows it. -/
theorem scanValue?_of_paddedText
    {j : Json} {s : List Char} (h : PaddedText j s) {fuel : Nat} (hfuel : s.length < fuel)
    {rest : List Char} (hrest : EndsNumber rest) :
    ∃ tail, scanValue? fuel (s ++ rest) = some (j, tail) ∧ skipBlanks tail = skipBlanks rest := by
  cases h with
  | @padded j before s after hbefore hvalue hafter =>
      rw [List.length_append, List.length_append] at hfuel
      refine ⟨after ++ rest, ?_, skipBlanks_append hafter rest⟩
      rw [List.append_assoc, List.append_assoc, ← scanValue?_skipBlanks, skipBlanks_append hbefore,
        scanValue?_skipBlanks]
      exact scanValue?_of_valueText hvalue (by omega) (hrest.blanks_append hafter)

/-- The items of an array are read up to the closing bracket. -/
theorem scanItems?_of_itemsText
    {items : List Json} {s : List Char} (h : ItemsText items s)
    {fuel : Nat} (hfuel : s.length + 1 < fuel) (rest : List Char) :
    scanItems? fuel (s ++ ']' :: rest) = some (items, rest) := by
  obtain ⟨fuel, rfl⟩ := Nat.exists_eq_add_one_of_ne_zero (Nat.ne_zero_of_lt hfuel)
  cases h with
  | @last item s hitem =>
      have hclose : EndsNumber (']' :: rest) := endsNumber_cons (by decide) rest
      obtain ⟨tail, hscan, hskip⟩ :=
        scanValue?_of_paddedText hitem (show s.length < fuel by omega) hclose
      exact scanItems?_last hscan hskip
  | @next item items s t hitem hitems =>
      rw [List.length_append, List.length_cons] at hfuel
      rw [List.append_assoc, List.cons_append]
      have hcomma : EndsNumber (',' :: (t ++ ']' :: rest)) := endsNumber_cons (by decide) _
      obtain ⟨tail, hscan, hskip⟩ :=
        scanValue?_of_paddedText hitem (show s.length < fuel by omega) hcomma
      exact scanItems?_next hscan hskip (scanItems?_of_itemsText hitems (by omega) rest)

/-- The members of an object are read up to the closing brace. -/
theorem scanMembers?_of_membersText
    {members : List (Option String × Json)} {s : List Char} (h : MembersText members s)
    {fuel : Nat} (hfuel : s.length + 1 < fuel) (rest : List Char) :
    scanMembers? fuel (s ++ '}' :: rest) = some (members, rest) := by
  obtain ⟨fuel, rfl⟩ := Nat.exists_eq_add_one_of_ne_zero (Nat.ne_zero_of_lt hfuel)
  cases h with
  | @last key value before k after s hbefore hkey hafter hvalue =>
      obtain ⟨body, rfl, hbody⟩ := scanString?_of_stringText hkey
      simp only [List.length_append, List.length_cons] at hfuel
      have hclose : EndsNumber ('}' :: rest) := endsNumber_cons (by decide) rest
      obtain ⟨tail, hscan, hskip⟩ :=
        scanValue?_of_paddedText hvalue (show s.length < fuel by omega) hclose
      simp only [List.append_assoc, List.cons_append]
      exact scanMembers?_last (skipBlanks_append hbefore _) (hbody _) (skipBlanks_append hafter _)
        hscan hskip
  | @next key value members before k after s t hbefore hkey hafter hvalue hmembers =>
      obtain ⟨body, rfl, hbody⟩ := scanString?_of_stringText hkey
      simp only [List.length_append, List.length_cons] at hfuel
      have hcomma : EndsNumber (',' :: (t ++ '}' :: rest)) := endsNumber_cons (by decide) _
      obtain ⟨tail, hscan, hskip⟩ :=
        scanValue?_of_paddedText hvalue (show s.length < fuel by omega) hcomma
      simp only [List.append_assoc, List.cons_append]
      exact scanMembers?_next (skipBlanks_append hbefore _) (hbody _) (skipBlanks_append hafter _)
        hscan hskip (scanMembers?_of_membersText hmembers (by omega) rest)

end

/-- Every text of a value is read as that value. -/
theorem parse?_of_isText
    {j : Json} {text : String} (h : IsText j text) :
    parse? text = some j := by
  obtain ⟨tail, hscan, hskip⟩ := scanValue?_of_paddedText h
    (show text.toList.length < 2 * text.toList.length + 2 by omega) endsNumber_nil
  rw [List.append_nil] at hscan
  simp only [parse?, hscan, Option.bind_eq_bind, Option.bind_some]
  exact if_pos hskip

/-- Read a text as a value of a domain type. -/
def read? {α : Type} (ofJson? : Json → Option α) (text : String) : Option α :=
  (parse? text).bind ofJson?

/-- How a value is written down makes no difference to what it is read as. -/
theorem read?_of_isText
    {α : Type} {ofJson? : Json → Option α} {j : Json} {text : String} (h : IsText j text) :
    read? ofJson? text = ofJson? j := by
  rw [read?, parse?_of_isText h]
  rfl

/-- No text is a text of two values. -/
theorem IsText.unique
    {j k : Json} {text : String} (hj : IsText j text) (hk : IsText k text) :
    j = k :=
  Option.some.inj ((parse?_of_isText hj).symm.trans (parse?_of_isText hk))

end Json

end Chip8
