import Jvm.Cause

/-!
A bounds-checked cursor over a buffer. Every position it reports counts from the start of the buffer,
and a read that does not fit leaves the cursor where it was.
-/

set_option autoImplicit false

namespace Jvm

structure ParseError where
  offset : Int
  what : Bytes
  tag : UInt8
  need : Int
  available : Int
  cause : Cause
  deriving DecidableEq

namespace ParseError

def truncated (offset : Nat) (what : Bytes) (need : Int) (available : Nat) : ParseError :=
  { offset := offset, what := what, tag := 0, need := need, available := available,
    cause := .truncated }

def unknownTag (offset : Nat) (tag : UInt8) : ParseError :=
  { offset := offset, what := utf8 "constant pool tag", tag := tag, need := 0, available := 0,
    cause := .unknownTag }

def message (e : ParseError) : Bytes :=
  let place := utf8 "offset " ++ Bytes.int e.offset ++ utf8 ": "
  match e.cause with
  | .unknownTag =>
    place ++ e.cause.text ++ utf8 " " ++ Bytes.nat e.tag.toNat ++ utf8 " (0x"
      ++ Bytes.hex 2 e.tag.toNat ++ utf8 ")"
  | .truncated =>
    place ++ e.cause.text ++ utf8 " reading " ++ e.what ++ utf8 ": need " ++ Bytes.int e.need
      ++ utf8 " bytes, have " ++ Bytes.int e.available
  | _ => place ++ e.what ++ utf8 ": " ++ e.cause.text

end ParseError

/-- A position in a buffer. It may lie beyond the end. -/
structure Cursor where
  buffer : Array UInt8
  pos : Nat

/-- Reading from a cursor. A failure keeps the cursor where reading stopped. -/
abbrev Reader := EStateM ParseError Cursor

namespace Cursor

def ahead (c : Cursor) : Bytes := c.buffer.toList.drop c.pos

/-- How many bytes lie ahead; negative when the cursor is beyond the end. -/
def remaining (c : Cursor) : Int := c.buffer.size - c.pos

def take (n : Nat) (what : Bytes) : Reader Bytes := fun c =>
  if c.pos + n <= c.buffer.size then
    .ok (c.buffer.extract c.pos (c.pos + n)).toList { c with pos := c.pos + n }
  else .error (.truncated c.pos what n (c.buffer.size - c.pos)) c

def u8 (what : Bytes) : Reader UInt8 := do
  let b <- take 1 what
  return (Bytes.bigEndian b).toUInt8

def u16 (what : Bytes) : Reader UInt16 := do
  let b <- take 2 what
  return (Bytes.bigEndian b).toUInt16

def u32 (what : Bytes) : Reader UInt32 := do
  let b <- take 4 what
  return (Bytes.bigEndian b).toUInt32

def bytes (n : Int) (what : Bytes) : Reader Bytes :=
  match n with
  | .ofNat k => take k what
  | .negSucc _ => fun c => .error (.truncated c.pos what n (c.buffer.size - c.pos)) c

/-- Move over `n` bytes, backwards when `n` is negative. -/
def skip (n : Int) (what : Bytes) : Reader Unit := fun c =>
  if c.remaining < n then .error (.truncated c.pos what n (c.buffer.size - c.pos)) c
  else .ok () { c with pos := (c.pos + n).toNat }

def times {α : Type} (n : Nat) (r : Reader α) : Reader (List α) :=
  match n with
  | 0 => pure []
  | n + 1 => do
    let a <- r
    let rest <- times n r
    return a :: rest

end Cursor

end Jvm
