import Jvm.Machine.Frame
import Jvm.Machine.Sink

/-!
What each instruction does to the frame and the sink. Operands are read first, then values are
popped, top first; only the native print methods write, and they write last.
-/

set_option autoImplicit false

namespace Jvm

structure Machine where
  frame : Frame
  sink : Sink
  deriving DecidableEq

abbrev Exec := EStateM Fault Machine

inductive Native where
  | printlnInt
  | printlnString
  deriving DecidableEq

namespace Native

def ofId? (id : Bytes) : Option Native :=
  if id = utf8 "java/io/PrintStream.println:(I)V" then some printlnInt
  else if id = utf8 "java/io/PrintStream.println:(Ljava/lang/String;)V" then some printlnString
  else none

end Native

namespace Machine

def onFrame {α : Type} (x : FrameM α) : Exec α := fun m =>
  match x m.frame with
  | .ok a f => .ok a { m with frame := f }
  | .error e f => .error e { m with frame := f }

def emit (print : Sink -> Option Sink) : Exec Unit := fun m =>
  match print m.sink with
  | some s => .ok () { m with sink := s }
  | none => .error .sinkFull m

def within {α : Type} (method : MemberRef) (x : Exec α) : Exec α := fun m =>
  match x m with
  | .ok a m => .ok a m
  | .error e m => .error (.inMethod method e) m

def native : Native -> Exec Unit
  | .printlnInt => do
    let n <- onFrame Frame.popInt
    let _ <- onFrame Frame.popInt
    emit (·.printlnInt? n)
  | .printlnString => do
    let text <- onFrame Frame.popString
    let _ <- onFrame Frame.popInt
    emit (·.println? text)

def loadString (c : ClassFile) (index : UInt16) : FrameM Unit :=
  match c.resolveString index with
  | .ok text => Frame.push (.string text)
  | .error e => throw (.badConstant e)

/-- Call the native method that a Methodref names. It is looked up before anything is popped. -/
def invoke (c : ClassFile) (index : UInt16) : Exec Unit :=
  match c.resolveMethodref index with
  | .error e => throw (.badConstant e)
  | .ok method =>
    match Native.ofId? method.id with
    | none => throw (.unknownMethod method)
    | some n => within method (native n)

/-- The remainder of a division that rounds toward zero, in wrapping 32-bit arithmetic. -/
def remainder (v1 v2 : Int32) : Int32 := v1 - v1 / v2 * v2

/-- Read a branch distance; the result is the position that the branch aims at. The position is just
behind the instruction's byte. -/
def readTarget : FrameM Int := do
  let f <- get
  let distance <- Frame.readI16
  return f.pc - 1 + distance.toInt

def proceed (x : FrameM Unit) : Exec Bool := do
  onFrame x
  return false

/-- Execute an instruction whose byte has been passed. The result tells whether the frame returns. -/
def execute (c : ClassFile) : Opcode -> Exec Bool
  | .iconst1 => proceed (Frame.push (.int 1))
  | .iconst3 => proceed (Frame.push (.int 3))
  | .iconst5 => proceed (Frame.push (.int 5))
  | .bipush => proceed do
    let n <- Frame.readI8
    Frame.push (.int n.toInt32)
  | .ldc => proceed do
    let index <- Frame.readU8
    loadString c index.toUInt16
  | .iload1 => proceed do
    let v <- Frame.getLocal 1
    Frame.push v
  | .istore1 => proceed do
    let v <- Frame.pop
    Frame.setLocal 1 v
  | .iinc => proceed do
    let slot <- Frame.readU8
    let delta <- Frame.readI8
    let n <- Frame.getLocalInt slot.toNat
    Frame.setLocal slot.toNat (.int (n + delta.toInt32))
  | .irem => proceed do
    let v2 <- Frame.popInt
    let v1 <- Frame.popInt
    if v2 = 0 then throw (.divideByZero v1) else Frame.push (.int (remainder v1 v2))
  | .ifne => proceed do
    let target <- readTarget
    let v <- Frame.popInt
    if v = 0 then return () else Frame.seek target
  | .ifIcmpgt => proceed do
    let target <- readTarget
    let v2 <- Frame.popInt
    let v1 <- Frame.popInt
    if v1 > v2 then Frame.seek target else return ()
  | .goto => proceed do
    let target <- readTarget
    Frame.seek target
  | .return_ => return true
  | .getstatic => proceed do
    let _ <- Frame.readU16
    Frame.push (.int 0)
  | .invokevirtual => do
    let index <- onFrame Frame.readU16
    invoke c index
    return false

def executeByte (c : ClassFile) (b : UInt8) : Exec Bool :=
  match Opcode.ofByte? b with
  | some op => execute c op
  | none => throw .unsupportedOpcode

end Machine

end Jvm
