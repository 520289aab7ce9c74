import Chip8.Instruction.Document
import Chip8.Keypad.Document
import Chip8.Proofs.JsonPrinting
import Chip8.Proofs.Members

/-!
# Recorded instructions and keys

What is recorded is read back, from every text of its document.  The name of an instruction decides
which operands it takes, so the body is read as a list of numbers of given types and the operation
is filled in with them; whether a body is accepted does not depend on anything else.
-/

namespace Chip8

/-! ## Names of operations -/

/-- No two operations share their name, not even operations of different kinds, and none has the
name of one of the other instructions. -/
theorem AddressOp.lookup_name (op : AddressOp) :
    op.name ∉ ["DispClear", "Return"] ∧ op.name ≠ "Draw" ∧
      AddressOp.ofName? op.name = some op ∧ ByteOp.ofName? op.name = none ∧
      PairOp.ofName? op.name = none ∧ RegisterOp.ofName? op.name = none := by
  cases op <;> decide

theorem ByteOp.lookup_name (op : ByteOp) :
    op.name ∉ ["DispClear", "Return"] ∧ op.name ≠ "Draw" ∧
      AddressOp.ofName? op.name = none ∧ ByteOp.ofName? op.name = some op ∧
      PairOp.ofName? op.name = none ∧ RegisterOp.ofName? op.name = none := by
  cases op <;> decide

theorem PairOp.lookup_name (op : PairOp) :
    op.name ∉ ["DispClear", "Return"] ∧ op.name ≠ "Draw" ∧
      AddressOp.ofName? op.name = none ∧ ByteOp.ofName? op.name = none ∧
      PairOp.ofName? op.name = some op ∧ RegisterOp.ofName? op.name = none := by
  cases op <;> decide

theorem RegisterOp.lookup_name (op : RegisterOp) :
    op.name ∉ ["DispClear", "Return"] ∧ op.name ≠ "Draw" ∧
      AddressOp.ofName? op.name = none ∧ ByteOp.ofName? op.name = none ∧
      PairOp.ofName? op.name = none ∧ RegisterOp.ofName? op.name = some op := by
  cases op <;> decide

namespace Instruction

variable {i : Instruction UInt8} {body : Json}

theorem name_not_mem (h : i.fields ≠ []) : i.name ∉ ["DispClear", "Return"] := by
  cases i with
  | clearScreen => exact absurd rfl h
  | ret => exact absurd rfl h
  | draw x y n => exact (by decide : "Draw" ∉ ["DispClear", "Return"])
  | address op addr => exact op.lookup_name.1
  | byte op x nn => exact op.lookup_name.1
  | pair op x y => exact op.lookup_name.1
  | register op x => exact op.lookup_name.1

/-! ## Operands -/

/-- The operands that an instruction is recorded with, each with the bound of its type. -/
def operandTypes : Instruction UInt8 → List (String × Nat)
  | clearScreen => []
  | ret => []
  | address .. => [("addr", 65536)]
  | byte .. => [("x", 256), ("nn", 256)]
  | pair .. => [("x", 256), ("y", 256)]
  | register .. => [("x", 256)]
  | draw .. => [("x", 256), ("y", 256), ("n", 256)]

/-- The operands of an instruction as they are recorded. -/
def operands (i : Instruction UInt8) : List (String × Json) :=
  i.fields.map fun (field, value) => (field, .ofNat value)

/-- The same operation with other operands, if they are as many as it takes. -/
def withOperands? : Instruction UInt8 → List Nat → Option (Instruction UInt8)
  | address op _, [addr] => some (address op (UInt16.ofNat addr))
  | byte op _ _, [x, nn] => some (byte op (UInt8.ofNat x) (UInt8.ofNat nn))
  | pair op _ _, [x, y] => some (pair op (UInt8.ofNat x) (UInt8.ofNat y))
  | register op _, [x] => some (register op (UInt8.ofNat x))
  | draw .., [x, y, n] => some (draw (UInt8.ofNat x) (UInt8.ofNat y) (UInt8.ofNat n))
  | _, _ => none

theorem toJson_of_fields (h : i.fields ≠ []) :
    i.toJson = .ofFields [(i.name, .ofFields i.operands)] := by
  cases i <;> first | rfl | exact absurd rfl h

theorem withOperands?_fields (h : i.fields ≠ []) :
    i.withOperands? (i.fields.map Prod.snd) = some i := by
  cases i with
  | clearScreen => exact absurd rfl h
  | ret => exact absurd rfl h
  | _ => simp [fields, withOperands?]

theorem fields_fit (i : Instruction UInt8) :
    List.Forall₂ (fun n type => n < type.2) (i.fields.map Prod.snd) i.operandTypes := by
  cases i with
  | clearScreen => exact .nil
  | ret => exact .nil
  | address op addr => exact .cons addr.toNat_lt .nil
  | byte op x nn => exact .cons x.toNat_lt (.cons nn.toNat_lt .nil)
  | pair op x y => exact .cons x.toNat_lt (.cons y.toNat_lt .nil)
  | register op x => exact .cons x.toNat_lt .nil
  | draw x y n => exact .cons x.toNat_lt (.cons y.toNat_lt (.cons n.toNat_lt .nil))

/-! ## Reading a body -/

theorem ofJson?_ofFields {name : String} (hname : name ∉ ["DispClear", "Return"]) (body : Json) :
    ofJson? (.ofFields [(name, body)]) = ofBody? name body := by
  simp only [List.mem_cons, List.not_mem_nil, or_false, not_or] at hname
  have hbare : (Json.ofFields [(name, body)]).bareVariant? ∈ [none, some name] := by
    cases body <;> simp [Json.bareVariant?, Json.variant?, Json.ofFields]
  rw [ofJson?]
  split
  next heq => simp [heq, Ne.symm hname.1] at hbare
  next heq => simp [heq, Ne.symm hname.2] at hbare
  next => rfl

theorem ofAddressJson?_eq (op : AddressOp) (addr : UInt16) (body : Json) :
    ofAddressJson? op body =
      (body.naturals? (address op addr).operandTypes).bind (address op addr).withOperands? := by
  unfold ofAddressJson? operandTypes
  rcases body.naturals? _ with _ | _ | ⟨_, _ | ⟨_, _⟩⟩ <;> rfl

theorem ofByteJson?_eq (op : ByteOp) (x nn : UInt8) (body : Json) :
    ofByteJson? op body =
      (body.naturals? (byte op x nn).operandTypes).bind (byte op x nn).withOperands? := by
  unfold ofByteJson? operandTypes
  rcases body.naturals? _ with _ | _ | ⟨_, _ | ⟨_, _ | ⟨_, _⟩⟩⟩ <;> rfl

theorem ofPairJson?_eq (op : PairOp) (x y : UInt8) (body : Json) :
    ofPairJson? op body =
      (body.naturals? (pair op x y).operandTypes).bind (pair op x y).withOperands? := by
  unfold ofPairJson? operandTypes
  rcases body.naturals? _ with _ | _ | ⟨_, _ | ⟨_, _ | ⟨_, _⟩⟩⟩ <;> rfl

theorem ofRegisterJson?_eq (op : RegisterOp) (x : UInt8) (body : Json) :
    ofRegisterJson? op body =
      (body.naturals? (register op x).operandTypes).bind (register op x).withOperands? := by
  unfold ofRegisterJson? operandTypes
  rcases body.naturals? _ with _ | _ | ⟨_, _ | ⟨_, _⟩⟩ <;> rfl

theorem ofDrawJson?_eq (x y n : UInt8) (body : Json) :
    ofDrawJson? body =
      (body.naturals? (draw x y n).operandTypes).bind (draw x y n).withOperands? := by
  unfold ofDrawJson? operandTypes
  rcases body.naturals? _ with _ | _ | ⟨_, _ | ⟨_, _ | ⟨_, _ | ⟨_, _⟩⟩⟩⟩ <;> rfl

/-- A body is read as the operands of the instruction that has the name. -/
theorem ofBody?_name (h : i.fields ≠ []) (body : Json) :
    ofBody? i.name body = (body.naturals? i.operandTypes).bind i.withOperands? := by
  cases i with
  | clearScreen => exact absurd rfl h
  | ret => exact absurd rfl h
  | address op addr =>
      obtain ⟨-, hdraw, haddress, hbyte, hpair, hregister⟩ := op.lookup_name
      rw [← ofAddressJson?_eq, name, ofBody?, if_neg hdraw, haddress, hbyte, hpair, hregister]
      simp
  | byte op x nn =>
      obtain ⟨-, hdraw, haddress, hbyte, hpair, hregister⟩ := op.lookup_name
      rw [← ofByteJson?_eq, name, ofBody?, if_neg hdraw, haddress, hbyte, hpair, hregister]
      simp
  | pair op x y =>
      obtain ⟨-, hdraw, haddress, hbyte, hpair, hregister⟩ := op.lookup_name
      rw [← ofPairJson?_eq, name, ofBody?, if_neg hdraw, haddress, hbyte, hpair, hregister]
      simp
  | register op x =>
      obtain ⟨-, hdraw, haddress, hbyte, hpair, hregister⟩ := op.lookup_name
      rw [← ofRegisterJson?_eq, name, ofBody?, if_neg hdraw, haddress, hbyte, hpair, hregister]
      simp
  | draw x y n =>
      rw [← ofDrawJson?_eq, name, ofBody?, if_pos rfl]

/-- An instruction with operands is read from its name and what its body says of the operands. -/
theorem ofJson?_body (h : i.fields ≠ []) (body : Json) :
    ofJson? (.ofFields [(i.name, body)]) =
      (body.naturals? i.operandTypes).bind i.withOperands? := by
  rw [ofJson?_ofFields (name_not_mem h), ofBody?_name h]

/-- A body that gives every operand its number is read as the instruction. -/
theorem ofJson?_of_fields?
    (h : i.fields ≠ [])
    (hbody : body.fields? (i.operandTypes.map Prod.fst) =
      some (i.operands.map (some ∘ Prod.snd))) :
    ofJson? (.ofFields [(i.name, body)]) = some i := by
  have hvalues : i.operands.map (some ∘ Prod.snd) =
      (i.fields.map Prod.snd).map (some ∘ Json.ofNat) := by
    rw [operands, List.map_map, List.map_map]
    rfl
  rw [hvalues] at hbody
  rw [ofJson?_body h, Json.naturals?_of_fits hbody i.fields_fit]
  exact withOperands?_fields h

theorem names_operands (i : Instruction UInt8) :
    i.operands.map Prod.fst = i.operandTypes.map Prod.fst := by
  cases i <;> rfl

theorem nodup_operands (i : Instruction UInt8) : (i.operands.map Prod.fst).Nodup := by
  rw [names_operands]
  cases i <;> simp [operandTypes]

/-! ## Documents of instructions -/

/-- The operands may come in any order, among members that nobody knows. -/
theorem ofJson?_of_gives
    {members : List (Option String × Json)} (h : i.fields ≠ [])
    (hgives : Json.Gives (i.operandTypes.map Prod.fst) i.operands members) :
    ofJson? (.ofFields [(i.name, .object members)]) = some i := by
  apply ofJson?_of_fields? h
  rw [← names_operands] at hgives ⊢
  exact hgives.fields?_of_all i.nodup_operands

theorem ofJson?_toJson (i : Instruction UInt8) : ofJson? i.toJson = some i := by
  by_cases h : i.fields = []
  · cases i with
    | clearScreen => rfl
    | ret => rfl
    | _ => cases h
  · rw [toJson_of_fields h]
    exact ofJson?_of_gives h (.refl _ _)

/-- The operands may come as a list. -/
theorem ofJson?_of_list (h : i.fields ≠ []) :
    ofJson? (.ofFields [(i.name, .array (i.operands.map Prod.snd))]) = some i := by
  apply ofJson?_of_fields? h
  rw [Json.fields?_array_full, List.map_map]
  rw [List.length_map, ← names_operands, List.length_map]

theorem ofJson?_of_misfit (h : i.fields ≠ []) (hbody : Json.Misfit i.operandTypes body) :
    ofJson? (.ofFields [(i.name, body)]) = none := by
  rw [ofJson?_body h, Json.naturals?_of_misfit hbody]
  rfl

end Instruction

theorem Key.ofJson?_toJson : ∀ key : Key, Key.ofJson? key.toJson = some key := by
  decide

/-- Recorded instructions and keys are read back.  The body of an instruction may have its operands
in any order among scalars that nobody knows, or as a list, and a body that does not give every
operand one number of its type is rejected. -/
theorem recorded_values_are_read_back :
    Json.Records Instruction.toJson Instruction.ofJson? ∧
    Json.Records Key.toJson Key.ofJson? ∧
    ∀ i : Instruction UInt8, i.fields ≠ [] →
      (∀ members text,
        Json.Gives (i.operandTypes.map Prod.fst) i.operands members →
        Json.IsText (.ofFields [(i.name, .object members)]) text →
        Json.read? Instruction.ofJson? text = some i) ∧
      (∀ text,
        Json.IsText (.ofFields [(i.name, .array (i.operands.map Prod.snd))]) text →
        Json.read? Instruction.ofJson? text = some i) ∧
      (∀ body text,
        Json.Misfit i.operandTypes body →
        Json.IsText (.ofFields [(i.name, body)]) text →
        Json.read? Instruction.ofJson? text = none) := by
  refine ⟨Json.records_of_ofJson?_toJson Instruction.ofJson?_toJson,
    Json.records_of_ofJson?_toJson Key.ofJson?_toJson, fun i h => ⟨?_, ?_, ?_⟩⟩
  · intro members text hgives htext
    rw [Json.read?_of_isText htext, Instruction.ofJson?_of_gives h hgives]
  · intro text htext
    rw [Json.read?_of_isText htext, Instruction.ofJson?_of_list h]
  · intro body text hbody htext
    rw [Json.read?_of_isText htext, Instruction.ofJson?_of_misfit h hbody]

/-- A drawing instruction is read from its operands in reverse with a note before them, and not from
a list without the rows. -/
theorem draw_read_from_reversed_operands :
    Json.read? Instruction.ofJson?
      (Json.ofFields [("Draw", .ofFields
        [("note", .bool true), ("n", .ofNat 5), ("y", .ofNat 2), ("x", .ofNat 1)])]).print =
      some (.draw 1 2 5) ∧
    Json.read? Instruction.ofJson?
      (Json.ofFields [("Draw", .array [.ofNat 1, .ofNat 2])]).print = none := by
  obtain ⟨hgiven, -, hmisfit⟩ := recorded_values_are_read_back.2.2 (.draw 1 2 5) (by decide)
  have hperm := List.reverse_perm
    (((Instruction.draw 1 2 5).operands ++ [("note", Json.bool true)]).map
      fun member => (some member.1, member.2))
  exact ⟨hgiven _ _ ⟨_, by decide, hperm⟩ (Json.isText_print _),
    hmisfit _ _ (.tooShort (by decide)) (Json.isText_print _)⟩

end Chip8
