import Chip8.Instruction
import Chip8.Json.Fields

/-!
# Recorded instructions

An instruction is recorded as its name with its operands as fields, or as the bare name if it has
no operands.  `Instruction.ofJson?` reads what `Instruction.toJson` writes.
-/

namespace Chip8

/-- The operation with a given name. -/
def AddressOp.ofName? (text : String) : Option AddressOp :=
  AddressOp.all.find? fun op => op.name == text

/-- The operation with a given name. -/
def ByteOp.ofName? (text : String) : Option ByteOp :=
  ByteOp.all.find? fun op => op.name == text

/-- The operation with a given name. -/
def PairOp.ofName? (text : String) : Option PairOp :=
  PairOp.all.find? fun op => op.name == text

/-- The operation with a given name. -/
def RegisterOp.ofName? (text : String) : Option RegisterOp :=
  RegisterOp.all.find? fun op => op.name == text

namespace Instruction

/-- The document of a recorded instruction. -/
def toJson (i : Instruction UInt8) : Json :=
  match i.fields with
  | [] => .ofString i.name
  | fields =>
    .ofFields [(i.name, .ofFields (fields.map fun (field, value) => (field, .ofNat value)))]

/-- Read the operands of an operation on an address. -/
def ofAddressJson? (op : AddressOp) (body : Json) : Option (Instruction UInt8) :=
  match body.naturals? [("addr", 65536)] with
  | some [addr] => some (address op (UInt16.ofNat addr))
  | _ => none

/-- Read the operands of an operation on a register and a byte. -/
def ofByteJson? (op : ByteOp) (body : Json) : Option (Instruction UInt8) :=
  match body.naturals? [("x", 256), ("nn", 256)] with
  | some [x, nn] => some (byte op (UInt8.ofNat x) (UInt8.ofNat nn))
  | _ => none

/-- Read the operands of an operation on two registers. -/
def ofPairJson? (op : PairOp) (body : Json) : Option (Instruction UInt8) :=
  match body.naturals? [("x", 256), ("y", 256)] with
  | some [x, y] => some (pair op (UInt8.ofNat x) (UInt8.ofNat y))
  | _ => none

/-- Read the operand of an operation on one register. -/
def ofRegisterJson? (op : RegisterOp) (body : Json) : Option (Instruction UInt8) :=
  match body.naturals? [("x", 256)] with
  | some [x] => some (register op (UInt8.ofNat x))
  | _ => none

/-- Read the operands of a drawing instruction. -/
def ofDrawJson? (body : Json) : Option (Instruction UInt8) :=
  match body.naturals? [("x", 256), ("y", 256), ("n", 256)] with
  | some [x, y, n] => some (draw (UInt8.ofNat x) (UInt8.ofNat y) (UInt8.ofNat n))
  | _ => none

/-- Read an instruction that has operands. -/
def ofBody? (name : String) (body : Json) : Option (Instruction UInt8) :=
  if name = "Draw" then ofDrawJson? body
  else
    ((AddressOp.ofName? name).bind (ofAddressJson? · body)) <|>
      ((ByteOp.ofName? name).bind (ofByteJson? · body)) <|>
      ((PairOp.ofName? name).bind (ofPairJson? · body)) <|>
      ((RegisterOp.ofName? name).bind (ofRegisterJson? · body))

/-- Read a recorded instruction. -/
def ofJson? (j : Json) : Option (Instruction UInt8) :=
  match j.bareVariant? with
  | some "DispClear" => some clearScreen
  | some "Return" => some ret
  | _ => do
    let (name, body) ← j.variant?
    ofBody? name (← body)

end Instruction

end Chip8
