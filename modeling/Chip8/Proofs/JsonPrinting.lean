import Chip8.Json.Printer
import Chip8.Proofs.JsonReading

/-!
# The text that is printed

What `Json.print` writes is one of the texts of the value, so it is read back as the value.  The
only part with an argument in it is the escaping: a character is written as one piece, and that
piece stands for the character whatever pieces follow.
-/

namespace Chip8

namespace Json

/-! ## Strings -/

/-- A unit below the surrogates stands for a character by itself. -/
theorem joinPieces?_unit
    {value : Nat} (h : value < 0xD800) (rest : List Piece) :
    joinPieces? (.unit value :: rest) = (joinPieces? rest).map (Char.ofNat value :: ·) := by
  have hhigh : isHighSurrogate value = false := by
    simp only [isHighSurrogate, Bool.and_eq_false_iff, decide_eq_false_iff_not]
    omega
  have hlow : isLowSurrogate value = false := by
    simp only [isLowSurrogate, Bool.and_eq_false_iff, decide_eq_false_iff_not]
    omega
  cases rest with
  | nil => simp [joinPieces?, hhigh, hlow]
  | cons piece rest => cases piece <;> simp [joinPieces?, hhigh, hlow]

/-- The four digits of an escaped control character give its number. -/
theorem unitValue?_lowerDigit :
    ∀ n < 0x20, unitValue? '0' '0' (lowerDigit (n / 16)) (lowerDigit (n % 16)) = some n := by
  decide

/-- A character is escaped by a letter, escaped by its number, or stands for itself. -/
theorem escape_cases (c : Char) :
    (∃ letter, letterEscape? letter = some c ∧ escape c = ['\\', letter]) ∨
    (c.toNat < 0x20 ∧
      escape c = ['\\', 'u', '0', '0', lowerDigit (c.toNat / 16), lowerDigit (c.toNat % 16)]) ∨
    (0x20 ≤ c.toNat ∧ c ≠ '\"' ∧ c ≠ '\\' ∧ escape c = [c]) := by
  by_cases hletter : c ∈ ['\"', '\\', '\x08', '\x0c', '\n', '\r', '\t']
  · refine .inl ?_
    simp only [List.mem_cons, List.not_mem_nil, or_false] at hletter
    rcases hletter with rfl | rfl | rfl | rfl | rfl | rfl | rfl
    all_goals exact ⟨_, by rfl, rfl⟩
  · simp only [List.mem_cons, List.not_mem_nil, or_false, not_or] at hletter
    obtain ⟨hquote, hslash, hb, hf, hn, hr, ht⟩ := hletter
    refine .inr ?_
    rw [escape, if_neg hquote, if_neg hslash, if_neg hb, if_neg hf, if_neg hn, if_neg hr,
      if_neg ht]
    by_cases hcontrol : c.toNat < 0x20
    · exact .inl ⟨hcontrol, if_pos hcontrol⟩
    · exact .inr ⟨Nat.not_lt.mp hcontrol, hquote, hslash, if_neg hcontrol⟩

/-- A character is written as a piece that stands for it. -/
theorem exists_piece_escape (c : Char) :
    ∃ piece, PieceText piece (escape c) ∧
      ∀ rest, joinPieces? (piece :: rest) = (joinPieces? rest).map (c :: ·) := by
  rcases escape_cases c with ⟨letter, hletter, htext⟩ | ⟨hcontrol, htext⟩ |
    ⟨hplain, hquote, hslash, htext⟩
  · exact ⟨.char c, htext ▸ .letter hletter, fun _ => rfl⟩
  · refine ⟨.unit c.toNat, htext ▸ .unit (unitValue?_lowerDigit _ hcontrol), fun rest => ?_⟩
    rw [joinPieces?_unit (by omega), Char.ofNat_toNat]
  · exact ⟨.char c, htext ▸ .plain hplain hquote hslash, fun _ => rfl⟩

/-- Characters are written as pieces that stand for them. -/
theorem exists_pieces_escape (cs : List Char) :
    ∃ pieces, PiecesText pieces (cs.flatMap escape) ∧ joinPieces? pieces = some cs := by
  induction cs with
  | nil => exact ⟨[], .nil, rfl⟩
  | cons c cs ih =>
      obtain ⟨pieces, hpieces, hjoin⟩ := ih
      obtain ⟨piece, hpiece, hstands⟩ := exists_piece_escape c
      exact ⟨piece :: pieces, .cons hpiece hpieces, by rw [hstands, hjoin]; rfl⟩

theorem stringText_renderString (value : Option String) :
    StringText value (renderString value) := by
  cases value with
  | none => exact ⟨[.unit 0xD800], _, .cons (.unit rfl) .nil, rfl, rfl⟩
  | some text =>
      obtain ⟨pieces, hpieces, hjoin⟩ := exists_pieces_escape text.toList
      refine ⟨pieces, _, hpieces, ?_, rfl⟩
      rw [hjoin, Option.map_some, String.ofList_toList]

/-! ## Numbers and values -/

theorem numberText_renderNumber (value : Option Nat) :
    NumberText value (renderNumber value) := by
  cases value with
  | none =>
      have hsign : ['-'] ∈ [[], ['-']] := by decide
      have hdigits : Digits ['0'] :=
        ⟨by decide, fun c hc => by rw [List.mem_singleton.mp hc]; rfl⟩
      have hwhole : Whole ['0'] := ⟨hdigits, fun _ => rfl⟩
      exact .other hsign hwhole .absent .absent (by decide)
  | some n => exact .natural n

theorem blanks_nil : Blanks [] :=
  nofun

/-- A value needs no blanks around it. -/
theorem ValueText.paddedText
    {j : Json} {s : List Char} (h : ValueText j s) :
    PaddedText j s := by
  have hpadded := PaddedText.padded blanks_nil h blanks_nil
  rwa [List.nil_append, List.append_nil] at hpadded

/-- The only member of an object needs no blanks around its key. -/
theorem MembersText.last_render
    {value : Json} {s : List Char} (key : Option String) (h : ValueText value s) :
    MembersText [(key, value)] (renderString key ++ ':' :: s) :=
  .last blanks_nil (stringText_renderString key) blanks_nil h.paddedText

/-- A member of an object needs no blanks around its key. -/
theorem MembersText.next_render
    {value : Json} {members : List (Option String × Json)} {s rest : List Char}
    (key : Option String) (h : ValueText value s) (hrest : MembersText members rest) :
    MembersText ((key, value) :: members) (renderString key ++ ':' :: s ++ ',' :: rest) := by
  rw [List.append_assoc]
  exact .next blanks_nil (stringText_renderString key) blanks_nil h.paddedText hrest

mutual

/-- What is printed of a value is a text of it. -/
theorem valueText_render : (j : Json) → ValueText j j.render
  | .null => .null
  | .bool true => .true
  | .bool false => .false
  | .number value => .number (numberText_renderNumber value)
  | .string value => .string (stringText_renderString value)
  | .array [] => .emptyArray blanks_nil
  | .array (item :: items) => .array (itemsText_renderItems (item :: items) nofun)
  | .object [] => .emptyObject blanks_nil
  | .object (member :: members) => .object (membersText_renderMembers (member :: members) nofun)

/-- What is printed of the items of an array is a text of them. -/
theorem itemsText_renderItems :
    (items : List Json) → items ≠ [] → ItemsText items (renderItems items)
  | [item], _ => .last (valueText_render item).paddedText
  | item :: next :: items, _ =>
      .next (valueText_render item).paddedText (itemsText_renderItems (next :: items) nofun)

/-- What is printed of the members of an object is a text of them. -/
theorem membersText_renderMembers :
    (members : List (Option String × Json)) → members ≠ [] →
      MembersText members (renderMembers members)
  | [(key, value)], _ => .last_render key (valueText_render value)
  | (key, value) :: next :: members, _ =>
      .next_render key (valueText_render value)
        (membersText_renderMembers (next :: members) nofun)

end

/-- What is printed is a text of the value. -/
theorem isText_print (j : Json) : IsText j j.print := by
  rw [IsText, print, String.toList_ofList]
  exact (valueText_render j).paddedText

/-! ## Values of a domain type -/

/-- The values of a type are recorded by their documents: what is printed of a document is a text of
it, every text of it is read as the value, and no text belongs to two values. -/
structure Records {α : Type} (toJson : α → Json) (ofJson? : Json → Option α) : Prop where
  printed (a : α) : IsText (toJson a) (toJson a).print
  reads {a : α} {text : String} : IsText (toJson a) text → read? ofJson? text = some a
  unique {a b : α} {text : String} : IsText (toJson a) text → IsText (toJson b) text → a = b

/-- A document that is read as its value records it. -/
theorem records_of_ofJson?_toJson
    {α : Type} {toJson : α → Json} {ofJson? : Json → Option α}
    (h : ∀ a, ofJson? (toJson a) = some a) :
    Records toJson ofJson? where
  printed a := isText_print (toJson a)
  reads htext := (read?_of_isText htext).trans (h _)
  unique ha hb := by
    have heq := congrArg ofJson? (ha.unique hb)
    rwa [h, h, Option.some.injEq] at heq

end Json

end Chip8
