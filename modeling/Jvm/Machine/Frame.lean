import Jvm.Machine.Fault

/-!
The activation record: code, position, operand stack and local slots. Every operation that can fail
leaves the frame as it was when it failed, so a pop that finds the wrong kind has still popped.
-/

set_option autoImplicit false

namespace Jvm

/-- The offset of the first instruction behind max_stack, max_locals and code_length. -/
def codeStart : Nat := 8

/-- An activation record. The stack lists its top first. -/
structure Frame where
  code : Bytes
  pc : Int
  stack : List Value
  locals : List Value
  deriving DecidableEq

abbrev FrameM := EStateM Fault Frame

namespace Frame

def start (slots : Nat) (code : Bytes) : Frame :=
  { code := code, pc := codeStart, stack := [], locals := List.replicate slots .void }

def depth (f : Frame) : Nat := f.stack.length

def byteAt? (f : Frame) : Int -> Option UInt8
  | .ofNat i => f.code[i]?
  | .negSucc _ => none

def push (v : Value) : FrameM Unit := modify fun f => { f with stack := v :: f.stack }

def pop : FrameM Value := do
  let f <- get
  match f.stack with
  | [] => throw .stackUnderflow
  | v :: rest => do
    set { f with stack := rest }
    return v

def popKind (want : Kind) : FrameM Value := do
  let v <- pop
  if v.kind = want then return v else throw (.poppedKind v want)

def popInt : FrameM Int32 := do
  match <- pop with
  | .int n => return n
  | v => throw (.poppedKind v .int)

def popString : FrameM Bytes := do
  match <- pop with
  | .string s => return s
  | v => throw (.poppedKind v .string)

def getLocal (slot : Int) : FrameM Value := do
  let f <- get
  match slot with
  | .ofNat i =>
    match f.locals[i]? with
    | some v => return v
    | none => throw (.badLocal slot f.locals.length)
  | .negSucc _ => throw (.badLocal slot f.locals.length)

def getLocalInt (slot : Int) : FrameM Int32 := do
  match <- getLocal slot with
  | .int n => return n
  | v => throw (.localKind slot v)

def setLocal (slot : Int) (v : Value) : FrameM Unit := do
  let f <- get
  match slot with
  | .ofNat i =>
    if i < f.locals.length then set { f with locals := f.locals.set i v }
    else throw (.badLocal slot f.locals.length)
  | .negSucc _ => throw (.badLocal slot f.locals.length)

def seek (pc : Int) : FrameM Unit := modify fun f => { f with pc := pc }

def readU8 : FrameM UInt8 := do
  let f <- get
  match f.byteAt? f.pc with
  | some b => do
    set { f with pc := f.pc + 1 }
    return b
  | none => throw .operandOutside

def readI8 : FrameM Int8 := do return (<- readU8).toInt8

def readU16 : FrameM UInt16 := do
  let f <- get
  match f.byteAt? f.pc, f.byteAt? (f.pc + 1) with
  | some high, some low => do
    set { f with pc := f.pc + 2 }
    return (Bytes.bigEndian [high, low]).toUInt16
  | _, _ => throw .operandOutside

def readI16 : FrameM Int16 := do return (<- readU16).toInt16

end Frame

end Jvm
