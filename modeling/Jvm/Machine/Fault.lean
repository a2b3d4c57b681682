import Jvm.ClassFile.Resolution
import Jvm.Machine.Opcode
import Jvm.Machine.Value

/-!
The faults of the machine. A fault says what an instruction could not do; the error of a run adds the
position and the byte of that instruction.
-/

set_option autoImplicit false

namespace Jvm

inductive Fault where
  | unsupportedOpcode
  | badConstant (reason : ResolveError)
  | unknownMethod (method : MemberRef)
  | stackUnderflow
  | poppedKind (found : Value) (want : Kind)
  | localKind (slot : Int) (found : Value)
  | badLocal (slot : Int) (slots : Nat)
  | divideByZero (dividend : Int32)
  | sinkFull
  | inMethod (method : MemberRef) (inner : Fault)
  /-- the position lies outside the instructions -/
  | noInstruction
  /-- the operands reach beyond the end of the code -/
  | operandsTruncated
  | stepLimit
  /-- an operand was read from outside the code -/
  | operandOutside
  deriving DecidableEq

namespace Fault

/-- The cause of a fault. A refusing sink and a read outside the code have none of their own. -/
def cause? : Fault -> Option Cause
  | unsupportedOpcode => some .unsupportedOpcode
  | badConstant _ => some .badConstant
  | unknownMethod _ => some .unknownMethod
  | stackUnderflow => some .stackUnderflow
  | poppedKind _ _ | localKind _ _ => some .typeMismatch
  | badLocal _ _ => some .badLocal
  | divideByZero _ => some .divideByZero
  | inMethod _ inner => inner.cause?
  | noInstruction | operandsTruncated => some .codeOverrun
  | stepLimit => some .stepLimit
  | sinkFull | operandOutside => none

def wording : Fault -> Bytes
  | unsupportedOpcode => Cause.unsupportedOpcode.text
  | badConstant _ => Cause.badConstant.text
  | unknownMethod _ => Cause.unknownMethod.text
  | stackUnderflow => Cause.stackUnderflow.text
  | poppedKind found want =>
    utf8 "popped " ++ found.text ++ utf8 ", want " ++ want.name ++ utf8 ": "
      ++ Cause.typeMismatch.text
  | localKind slot found =>
    utf8 "local " ++ Bytes.int slot ++ utf8 " holds " ++ found.text ++ utf8 ", want int: "
      ++ Cause.typeMismatch.text
  | badLocal slot slots =>
    utf8 "index=" ++ Bytes.int slot ++ utf8 ", slots=" ++ Bytes.nat slots ++ utf8 ": "
      ++ Cause.badLocal.text
  | divideByZero _ => Cause.divideByZero.text
  | sinkFull => utf8 "sink full"
  | inMethod method inner => method.id ++ utf8 ": " ++ inner.wording
  | noInstruction | operandsTruncated => Cause.codeOverrun.text
  | stepLimit => Cause.stepLimit.text
  | operandOutside => utf8 "operand outside the code"

def detail : Fault -> Bytes
  | badConstant reason => reason.message
  | unknownMethod method => method.id
  | divideByZero dividend => Bytes.int dividend.toInt ++ utf8 " % 0"
  | operandsTruncated => utf8 "operands truncated"
  | _ => []

/-- Whether the instruction itself reports the fault with a detail. Such a fault has a place for a
position even before the run loop fills it in. -/
def isDetailed : Fault -> Bool
  | badConstant _ | unknownMethod _ | divideByZero _ => true
  | _ => false

end Fault

/-- A message that starts with a position. Without an instruction only the position is named, and an
empty detail is left out. -/
def positioned (pc : Int) (instruction : Option Bytes) (wording detail : Bytes) : Bytes :=
  utf8 "pc " ++ Bytes.int pc ++ utf8 ": "
    ++ (match instruction with
      | some name => name ++ utf8 ": "
      | none => [])
    ++ wording
    ++ (if detail = [] then [] else utf8 ": " ++ detail)

def Fault.message (f : Fault) : Bytes :=
  if f.isDetailed then positioned 0 (some (mnemonic 0)) f.wording f.detail else f.wording

structure ExecError where
  pc : Int
  opcode : UInt8
  fault : Fault
  deriving DecidableEq

def ExecError.message (e : ExecError) : Bytes :=
  positioned e.pc (if e.fault = .noInstruction then none else some (mnemonic e.opcode))
    e.fault.wording e.fault.detail

end Jvm
