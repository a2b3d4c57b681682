import Jvm.ClassFile.Basic
import Jvm.ClassFile.Cursor

/-!
Decoding class files. The versions follow the first four bytes, the constant pool follows the
versions, and the member table follows ten bytes of class header behind the pool. The first four
bytes, the header and everything behind the member table are not looked at.
-/

set_option autoImplicit false

namespace Jvm.ClassFile

/-- The constant pool entry whose tag byte `code`, at offset `start`, has been passed. -/
def readOperands (start : Nat) (code : UInt8) : Reader Entry :=
  match Tag.ofCode? code with
  | some .utf8 => do
    let length <- Cursor.u16 (utf8 "Utf8 length")
    let text <- Cursor.take length.toNat (utf8 "Utf8 bytes")
    return .utf8 text
  | some .classInfo => do
    let name <- Cursor.u16 (utf8 "Class name_index")
    return .classInfo name
  | some .string => do
    let text <- Cursor.u16 (utf8 "String string_index")
    return .string text
  | some .fieldref => do
    let owner <- Cursor.u16 (utf8 "Fieldref class_index")
    let nameAndType <- Cursor.u16 (utf8 "Fieldref name_and_type_index")
    return .fieldref owner nameAndType
  | some .methodref => do
    let owner <- Cursor.u16 (utf8 "Methodref class_index")
    let nameAndType <- Cursor.u16 (utf8 "Methodref name_and_type_index")
    return .methodref owner nameAndType
  | some .nameAndType => do
    let name <- Cursor.u16 (utf8 "NameAndType name_index")
    let descriptor <- Cursor.u16 (utf8 "NameAndType descriptor_index")
    return .nameAndType name descriptor
  | some .unused | none => throw (.unknownTag start code)

def readEntry : Reader Entry := do
  let start <- get
  let code <- Cursor.u8 (utf8 "constant pool tag")
  readOperands start.pos code

/-- The constant pool at the cursor. Its count includes the unused slot 0, which the file leaves
out; a count of zero reads as one. -/
def readPool : Reader (List Entry) := do
  let count <- Cursor.u16 (utf8 "constant pool count")
  let entries <- Cursor.times (count.toNat - 1) readEntry
  return .unused :: entries

def readAttribute : Reader Attribute := do
  let name <- Cursor.u16 (utf8 "attribute name index")
  let length <- Cursor.u32 (utf8 "attribute length")
  let data <- Cursor.take length.toNat (utf8 "attribute data")
  return { name := name, data := some data }

def readMember : Reader Member := do
  let access <- Cursor.u16 (utf8 "field access flags")
  let name <- Cursor.u16 (utf8 "field name index")
  let descriptor <- Cursor.u16 (utf8 "field descriptor index")
  let count <- Cursor.u16 (utf8 "field attributes count")
  let attributes <- Cursor.times count.toNat readAttribute
  return { access := access, name := name, descriptor := descriptor, attributes := some attributes }

def readMembers : Reader (List Member) := do
  Cursor.skip 10 (utf8 "class header")
  let count <- Cursor.u16 (utf8 "fields count")
  Cursor.times count.toNat readMember

def read : Reader ClassFile := do
  let minor <- Cursor.u16 (utf8 "minor version")
  let major <- Cursor.u16 (utf8 "major version")
  let pool <- readPool
  let members <- readMembers
  return { minor := minor, major := major, pool := pool, members := members }

def parse (b : Bytes) : Except ParseError ClassFile :=
  match read { buffer := b.toArray, pos := 4 } with
  | .ok c _ => .ok c
  | .error e _ => .error e

end Jvm.ClassFile
