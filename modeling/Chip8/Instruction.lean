import Chip8.Instruction.Operation

/-!
# Instructions

An instruction is an operation with its operands.  The type is generic in what names a register:
the machine runs an `Instruction Register`, whose registers exist by construction, while a
recorded instruction is an `Instruction UInt8`, which may name any byte.
-/

namespace Chip8

/-- One of the sixteen registers V0 to VF. -/
abbrev Register := Fin 16

/-- The register V0, which a jump can add to its address. -/
def Register.offset : Register := ⟨0, by decide⟩

/-- The register VF, into which instructions write their flag. -/
def Register.flag : Register := Fin.last 15

/-- An instruction whose registers are named by `R`. -/
inductive Instruction (R : Type) where
  | clearScreen
  | ret
  | address (op : AddressOp) (addr : UInt16)
  | byte (op : ByteOp) (x : R) (nn : UInt8)
  | pair (op : PairOp) (x y : R)
  | register (op : RegisterOp) (x : R)
  /-- Draw the `n` rows of a sprite at column `x` and row `y`. -/
  | draw (x y : R) (n : UInt8)
deriving DecidableEq

namespace Instruction

variable {R S : Type}

/-- Rename the registers of an instruction. -/
def map (f : R → S) : Instruction R → Instruction S
  | clearScreen => clearScreen
  | ret => ret
  | address op addr => address op addr
  | byte op x nn => byte op (f x) nn
  | pair op x y => pair op (f x) (f y)
  | register op x => register op (f x)
  | draw x y n => draw (f x) (f y) n

/-- The instruction as it is recorded, with its registers written as bytes. -/
def recorded (i : Instruction Register) : Instruction UInt8 :=
  i.map fun x => UInt8.ofNat x.val

/-- The register that a byte names, if it names one. -/
def register? (byte : UInt8) : Option Register :=
  if h : byte.toNat < 16 then some ⟨byte.toNat, h⟩ else none

/-- The runnable instruction behind a recorded one, if all its registers exist. -/
def ofRecorded? : Instruction UInt8 → Option (Instruction Register)
  | clearScreen => some clearScreen
  | ret => some ret
  | address op addr => some (address op addr)
  | byte op x nn => do return byte op (← register? x) nn
  | pair op x y => do return pair op (← register? x) (← register? y)
  | register op x => do return register op (← register? x)
  | draw x y n => do return draw (← register? x) (← register? y) n

/-- The instructions that change the screen, after which a host has something to show. -/
def isDisplay : Instruction R → Bool
  | clearScreen => true
  | draw .. => true
  | _ => false

def name : Instruction R → String
  | clearScreen => "DispClear"
  | ret => "Return"
  | address op _ => op.name
  | byte op .. => op.name
  | pair op .. => op.name
  | register op _ => op.name
  | draw .. => "Draw"

/-- The operands of a recorded instruction in their order, each with its name. -/
def fields : Instruction UInt8 → List (String × Nat)
  | clearScreen => []
  | ret => []
  | address _ addr => [("addr", addr.toNat)]
  | byte _ x nn => [("x", x.toNat), ("nn", nn.toNat)]
  | pair _ x y => [("x", x.toNat), ("y", y.toNat)]
  | register _ x => [("x", x.toNat)]
  | draw x y n => [("x", x.toNat), ("y", y.toNat), ("n", n.toNat)]

/-- The line that a listing shows for an instruction: the name, and the operands in braces. -/
def listing (i : Instruction UInt8) : String :=
  match i.fields with
  | [] => i.name
  | fields =>
    i.name ++ " \x7b " ++
      String.intercalate ", " (fields.map fun (field, value) => field ++ ": " ++ toString value) ++
      " \x7d"

end Instruction

end Chip8
