import Jvm.Bytes

/-!
The instructions that the machine knows: their bytes, names, widths and operand layouts.
-/

set_option autoImplicit false

namespace Jvm

inductive Layout where
  | plain
  | immediate
  | poolIndex8
  | poolIndex16
  | slotAndDelta
  /-- a signed two-byte distance from the instruction -/
  | branch
  deriving DecidableEq

inductive Opcode where
  | iconst1
  | iconst3
  | iconst5
  | bipush
  | ldc
  | iload1
  | istore1
  | irem
  | iinc
  | ifne
  | ifIcmpgt
  | goto
  | return_
  | getstatic
  | invokevirtual
  deriving DecidableEq

namespace Opcode

def byte : Opcode -> UInt8
  | iconst1 => 0x04
  | iconst3 => 0x06
  | iconst5 => 0x08
  | bipush => 0x10
  | ldc => 0x12
  | iload1 => 0x1B
  | istore1 => 0x3C
  | irem => 0x70
  | iinc => 0x84
  | ifne => 0x9A
  | ifIcmpgt => 0xA3
  | goto => 0xA7
  | return_ => 0xB1
  | getstatic => 0xB2
  | invokevirtual => 0xB6

def all : List Opcode :=
  [iconst1, iconst3, iconst5, bipush, ldc, iload1, istore1, irem, iinc, ifne, ifIcmpgt, goto, return_,
    getstatic, invokevirtual]

def ofByte? (b : UInt8) : Option Opcode := all.find? fun op => op.byte = b

def name : Opcode -> Bytes
  | iconst1 => utf8 "iconst_1"
  | iconst3 => utf8 "iconst_3"
  | iconst5 => utf8 "iconst_5"
  | bipush => utf8 "bipush"
  | ldc => utf8 "ldc"
  | iload1 => utf8 "iload_1"
  | istore1 => utf8 "istore_1"
  | irem => utf8 "irem"
  | iinc => utf8 "iinc"
  | ifne => utf8 "ifne"
  | ifIcmpgt => utf8 "if_icmpgt"
  | goto => utf8 "goto"
  | return_ => utf8 "return"
  | getstatic => utf8 "getstatic"
  | invokevirtual => utf8 "invokevirtual"

def layout : Opcode -> Layout
  | bipush => .immediate
  | ldc => .poolIndex8
  | iinc => .slotAndDelta
  | ifne | ifIcmpgt | goto => .branch
  | getstatic | invokevirtual => .poolIndex16
  | _ => .plain

def width (op : Opcode) : Nat :=
  match op.layout with
  | .plain => 1
  | .immediate | .poolIndex8 => 2
  | .poolIndex16 | .slotAndDelta | .branch => 3

theorem ofByte?_byte (op : Opcode) : ofByte? op.byte = some op := by cases op <;> rfl

end Opcode

/-- The name of the instruction with a byte; a byte without one is shown in hexadecimal. -/
def mnemonic (b : UInt8) : Bytes :=
  match Opcode.ofByte? b with
  | some op => op.name
  | none => utf8 "0x" ++ Bytes.hex 2 b.toNat

end Jvm
