import Jvm.Machine.Frame

/-!
Listings of the instructions in a Code attribute. A listing covers the code from its start to its
declared end, line by line: an instruction with its operands, or a single byte where no instruction
fits.
-/

set_option autoImplicit false

namespace Jvm.Disassembly

inductive Content where
  /-- a byte that starts no instruction that fits -/
  | byte (b : UInt8)
  | instruction (op : Opcode) (operands : Bytes)
  deriving DecidableEq

structure Line where
  pc : Nat
  content : Content
  deriving DecidableEq

def Line.width (l : Line) : Nat :=
  match l.content with
  | .byte _ => 1
  | .instruction op _ => op.width

/-- Where the listing of a payload ends: at the declared end of the code, or at the end of the
payload when that comes first. -/
def codeEnd (payload : Bytes) : Nat :=
  min payload.length (codeStart + Bytes.bigEndian ((payload.drop 4).take 4))

def linesFrom (pc : Nat) (code : Bytes) : List Line :=
  match code with
  | [] => []
  | b :: rest =>
    match Opcode.ofByte? b with
    | none => ⟨pc, .byte b⟩ :: linesFrom (pc + 1) rest
    | some op =>
      if rest.length + 1 < op.width then ⟨pc, .byte b⟩ :: linesFrom (pc + 1) rest
      else
        ⟨pc, .instruction op (rest.take (op.width - 1))⟩
          :: linesFrom (pc + op.width) (rest.drop (op.width - 1))
termination_by code.length

/-- The lines of a payload; one too short for its header has none. -/
def lines (payload : Bytes) : List Line :=
  if payload.length < codeStart then []
  else linesFrom codeStart ((payload.take (codeEnd payload)).drop codeStart)

def reference (index : UInt16) (comment : Option Bytes) : Bytes :=
  utf8 "#" ++ Bytes.nat index.toNat
    ++ (match comment with
      | some text => utf8 " // " ++ text
      | none => [])

def memberAt? (c : ClassFile) (index : UInt16) : Option MemberRef :=
  match c.resolveMethodref index with
  | .ok r => some r
  | .error _ => (c.resolveFieldref index).toOption

def operandText (c : ClassFile) (pc : Nat) (layout : Layout) (operands : Bytes) : Bytes :=
  match layout, operands with
  | .immediate, n :: _ => Bytes.int n.toInt8.toInt
  | .poolIndex8, n :: _ =>
    reference n.toUInt16 ((c.resolveString n.toUInt16).toOption.map Quoted.quote)
  | .poolIndex16, high :: low :: _ =>
    let index := (Bytes.bigEndian [high, low]).toUInt16
    reference index ((memberAt? c index).map MemberRef.id)
  | .slotAndDelta, slot :: delta :: _ =>
    Bytes.nat slot.toNat ++ utf8 ", " ++ Bytes.int delta.toInt8.toInt
  | .branch, high :: low :: _ =>
    Bytes.int (pc + (Bytes.bigEndian [high, low]).toUInt16.toInt16.toInt)
  | _, _ => []

def Line.text (c : ClassFile) (l : Line) : Bytes :=
  Bytes.padLeft 4 32 (Bytes.nat l.pc) ++ utf8 ": "
    ++ (match l.content with
      | .byte b => utf8 ".byte 0x" ++ Bytes.hex 2 b.toNat
      | .instruction op operands =>
        if op.layout = .plain then op.name
        else
          Bytes.padRight 13 op.name ++ utf8 " " ++ operandText c l.pc op.layout operands)

def listing (c : ClassFile) (payload : Bytes) : List Bytes := (lines payload).map (Line.text c)

end Jvm.Disassembly
