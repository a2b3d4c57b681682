import Jvm.Assembly.Builder

/-!
The FizzBuzz program as a class file, and what it prints.
-/

set_option autoImplicit false

namespace Jvm.FizzBuzz

structure Indices where
  out : UInt16
  printlnString : UInt16
  printlnInt : UInt16
  fizzBuzz : UInt16
  fizz : UInt16
  buzz : UInt16

/-- Print a String constant of a one-byte index. -/
def printString (ix : Indices) (text : UInt16) : Bytes :=
  0xB2 :: Bytes.ofUInt16 ix.out ++ [0x12, text.toUInt8] ++ 0xB6 :: Bytes.ofUInt16 ix.printlnString

/-- The code of the loop from 1 to `limit`. -/
def code (ix : Indices) (limit : Int8) : Bytes :=
  -- i = 1; while i <= limit
  [0x04, 0x3C, 0x1B, 0x10, limit.toUInt8, 0xA3, 0x00, 0x44]
    -- i % 15 = 0
    ++ [0x1B, 0x10, 0x0F, 0x70, 0x9A, 0x00, 0x0E] ++ printString ix ix.fizzBuzz ++ [0xA7, 0x00, 0x2C]
    -- i % 3 = 0
    ++ [0x1B, 0x06, 0x70, 0x9A, 0x00, 0x0E] ++ printString ix ix.fizz ++ [0xA7, 0x00, 0x1B]
    -- i % 5 = 0
    ++ [0x1B, 0x08, 0x70, 0x9A, 0x00, 0x0E] ++ printString ix ix.buzz ++ [0xA7, 0x00, 0x0A]
    -- otherwise
    ++ 0xB2 :: Bytes.ofUInt16 ix.out ++ [0x1B, 0xB6] ++ Bytes.ofUInt16 ix.printlnInt
    -- i = i + 1, back to the test
    ++ [0x84, 0x01, 0x01, 0xA7, 0xFF, 0xBC, 0xB1]

def assemble (limit : Int8) : Assembly Bytes := do
  let printStream := utf8 "java/io/PrintStream"
  let out <-
    Builder.addFieldref (utf8 "java/lang/System") (utf8 "out") (utf8 "Ljava/io/PrintStream;")
  let printlnString <-
    Builder.addMethodref printStream (utf8 "println") (utf8 "(Ljava/lang/String;)V")
  let printlnInt <- Builder.addMethodref printStream (utf8 "println") (utf8 "(I)V")
  let fizzBuzz <- Builder.addString (utf8 "FizzBuzz")
  let fizz <- Builder.addString (utf8 "Fizz")
  let buzz <- Builder.addString (utf8 "Buzz")
  let objectInit <- Builder.addMethodref (utf8 "java/lang/Object") (utf8 "<init>") (utf8 "()V")
  Builder.addMethod (utf8 "<init>") (utf8 "()V")
    ([0x2A, 0xB7] ++ Bytes.ofUInt16 objectInit ++ [0xB1])
  Builder.addMain (code ⟨out, printlnString, printlnInt, fizzBuzz, fizz, buzz⟩ limit)
  Builder.write

def program (limit : Int8) : Bytes := ((assemble limit).run (Builder.start (utf8 "FizzBuzz"))).1

def line (i : Int) : Bytes :=
  (if i % 15 = 0 then utf8 "FizzBuzz"
    else if i % 3 = 0 then utf8 "Fizz"
    else if i % 5 = 0 then utf8 "Buzz"
    else Bytes.int i)
    ++ utf8 "\n"

def output (limit : Int) : Bytes := (List.range limit.toNat).flatMap fun (i : Nat) => line (i + 1)

end Jvm.FizzBuzz
