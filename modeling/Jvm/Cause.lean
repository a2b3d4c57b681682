import Jvm.Bytes

/-!
The causes of failure that the library tells apart, each with its wording. A cause says what went
wrong; the errors that carry it say where.
-/

set_option autoImplicit false

namespace Jvm

/-- What went wrong, apart from where. -/
inductive Cause where
  | unknownTag
  | truncated
  | badIndex
  | entryNotFound
  | entryNoAttributes
  | entryNoCode
  | unsupportedOpcode
  | unknownMethod
  | typeMismatch
  | stackUnderflow
  | codeOverrun
  | badLocal
  | badConstant
  | divideByZero
  | stepLimit
  deriving DecidableEq

def Cause.text : Cause -> Bytes
  | .unknownTag => utf8 "unknown constant pool tag"
  | .truncated => utf8 "truncated class file"
  | .badIndex => utf8 "bad constant pool reference"
  | .entryNotFound => utf8 "entry point not found"
  | .entryNoAttributes => utf8 "entry point has no attributes"
  | .entryNoCode => utf8 "entry point has no Code attribute"
  | .unsupportedOpcode => utf8 "unsupported opcode"
  | .unknownMethod => utf8 "unknown method"
  | .typeMismatch => utf8 "type mismatch"
  | .stackUnderflow => utf8 "operand stack underflow"
  | .codeOverrun => utf8 "ran past the end of the code"
  | .badLocal => utf8 "local variable index out of range"
  | .badConstant => utf8 "bad constant pool operand"
  | .divideByZero => utf8 "division by zero"
  | .stepLimit => utf8 "step limit exceeded"

end Jvm
