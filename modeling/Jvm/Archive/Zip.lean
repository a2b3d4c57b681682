import Jvm.Archive.Checksum
import Jvm.Archive.Inflate

/-!
Zip archives. The central directory at the end of an archive lists its entries; the end record behind
it tells where it starts. Data may stand in front of the archive, so stated offsets are counted from
a base that the end record and the sizes give away.
-/

set_option autoImplicit false

namespace Jvm

inductive ZipError where
  | format
  | algorithm
  | checksum
  /-- nothing is left to read -/
  | ended
  | truncated
  | corrupt (taken : Nat)
  | negativeOffset
  deriving DecidableEq

def ZipError.message : ZipError -> Bytes
  | .format => utf8 "zip: not a valid zip file"
  | .algorithm => utf8 "zip: unsupported compression algorithm"
  | .checksum => utf8 "zip: checksum error"
  | .ended => utf8 "EOF"
  | .truncated => utf8 "unexpected EOF"
  | .corrupt taken => utf8 "flate: corrupt input before offset " ++ Bytes.nat taken
  | .negativeOffset => utf8 "bytes.Reader.ReadAt: negative offset"

structure ZipEntry where
  name : Bytes
  flags : Nat
  method : Nat
  crc : Nat
  compressedSize : Nat
  size : Nat
  /-- where the entry's own header starts, counted from the archive's base -/
  header : Int
  deriving DecidableEq

/-- An archive: its bytes, the place its offsets count from, and its entries in directory order. -/
structure Zip where
  data : Bytes
  base : Int
  entries : List ZipEntry
  deriving DecidableEq

namespace Zip

def fieldAt (offset width : Nat) (b : Bytes) : Nat := Bytes.littleEndian ((b.drop offset).take width)

def endSignature : Nat := 0x06054b50

def wideEndSignature : Nat := 0x06064b50

def locatorSignature : Nat := 0x07064b50

def entrySignature : Nat := 0x02014b50

def headerSignature : Nat := 0x04034b50

def descriptorSignature : Nat := 0x08074b50

/-- The largest number of a 32-bit field; it refers to a wide field. -/
def wide : Nat := 0xFFFFFFFF

/-! ## Directory entries -/

/-- Which of an entry's numbers are still to be found in wide fields. -/
structure Wanted where
  size : Bool
  compressedSize : Bool
  header : Bool

def wideNumber (wanted : Bool) (old : Int) (b : Bytes) : Except ZipError (Int × Bytes) :=
  if !wanted then .ok (old, b)
  else if b.length < 8 then .error .format
  else .ok (Int.bmod (fieldAt 0 8 b) (Nat.pow 2 64), b.drop 8)

def widen (w : Wanted) (e : ZipEntry) (b : Bytes) : Except ZipError ZipEntry := do
  let (size, b) <- wideNumber w.size e.size b
  let (compressedSize, b) <- wideNumber w.compressedSize e.compressedSize b
  let (header, _) <- wideNumber w.header e.header b
  return { e with
    size := (size % Int.pow 2 64).toNat
    compressedSize := (compressedSize % Int.pow 2 64).toNat
    header := header }

/-- Look for wide numbers in the extra fields of an entry: tag, size and payload each. Only the size
may be missing. -/
def readExtra (w : Wanted) (e : ZipEntry) (extra : Bytes) : Except ZipError ZipEntry :=
  let size := fieldAt 2 2 extra
  if _h : extra.length < 4 + size then
    if w.compressedSize || w.header then .error .format else .ok e
  else if fieldAt 0 2 extra = 1 then
    match widen w e ((extra.drop 4).take size) with
    | .ok e => readExtra ⟨false, false, false⟩ e (extra.drop (4 + size))
    | .error err => .error err
  else readExtra w e (extra.drop (4 + size))
termination_by extra.length
decreasing_by all_goals simp_wf; omega

def readEntry (b : Bytes) : Except ZipError (ZipEntry × { rest : Bytes // rest.length < b.length }) :=
  if h : b.length < 46 then .error (if b = [] then .ended else .truncated)
  else if fieldAt 0 4 b ≠ entrySignature then .error .format
  else
    let nameSize := fieldAt 28 2 b
    let extraSize := fieldAt 30 2 b
    let total := nameSize + extraSize + fieldAt 32 2 b
    let texts := b.drop 46
    if texts.length < total then .error (if texts = [] then .ended else .truncated)
    else
      let e : ZipEntry :=
        { name := texts.take nameSize, flags := fieldAt 8 2 b, method := fieldAt 10 2 b,
          crc := fieldAt 16 4 b, compressedSize := fieldAt 20 4 b, size := fieldAt 24 4 b,
          header := fieldAt 42 4 b }
      let w : Wanted := ⟨e.size = wide, e.compressedSize = wide, e.header = wide⟩
      match readExtra w e ((texts.drop nameSize).take extraSize) with
      | .error err => .error err
      | .ok e => .ok (e, ⟨b.drop (46 + total), by simp only [List.length_drop]; omega⟩)

def readEntries (b : Bytes) : List ZipEntry × ZipError :=
  match readEntry b with
  | .error e => ([], e)
  | .ok (entry, rest) =>
    let (entries, e) := readEntries rest.1
    (entry :: entries, e)
termination_by b.length
decreasing_by exact rest.2

/-! ## The end record -/

/-- What the end record tells: where it starts, and the number of entries, size and offset of the
directory. -/
structure EndRecord where
  start : Int
  count : Nat
  size : Nat
  offset : Nat

def endWindow : Nat := 65 * 1024

/-- The last end record: the number of bytes in front of it and the bytes from it on. `before` holds
the bytes in front, last first, and `after` those behind, as many as `width`. -/
def findEnd (before after : Bytes) (width : Nat) : Option (Nat × Bytes) :=
  if 22 <= width && fieldAt 0 4 after = endSignature then
    if 22 + fieldAt 20 2 after <= width then some (before.length, after) else none
  else
    match before with
    | [] => none
    | b :: before => if width < endWindow then findEnd before (b :: after) (width + 1) else none

def wideEndOffset? (data : Bytes) (endStart : Nat) : Option Nat :=
  let locator := data.drop (endStart - 20)
  if 20 <= endStart && fieldAt 0 4 locator = locatorSignature && fieldAt 4 4 locator = 0
      && fieldAt 16 4 locator = 1 then
    some (fieldAt 8 8 locator)
  else none

def readWideEnd (data : Bytes) (r : EndRecord) (offset : Nat) : Except ZipError EndRecord :=
  if Nat.pow 2 63 <= offset then .ok r
  else
    let b := data.drop offset
    if b.length < 56 then .error .ended
    else if fieldAt 0 4 b ≠ wideEndSignature then .error .format
    else
      .ok { start := offset, count := fieldAt 32 8 b, size := fieldAt 40 8 b, offset := fieldAt 48 8 b }

def readEnd (data : Bytes) : Except ZipError EndRecord :=
  match findEnd data.reverse [] 0 with
  | none => .error .format
  | some (start, b) =>
    let r : EndRecord :=
      { start := start, count := fieldAt 10 2 b, size := fieldAt 12 4 b, offset := fieldAt 16 4 b }
    if r.count = 0xFFFF || r.size = 0xFFFF || r.offset = wide then
      match wideEndOffset? data start with
      | some offset => readWideEnd data r offset
      | none => .ok r
    else .ok r

/-- The place offsets count from. A base behind the start of the data is not trusted when there is a
directory entry at the stated offset. -/
def EndRecord.base (data : Bytes) (r : EndRecord) : Int :=
  let base := r.start - r.size - r.offset
  if 0 < base && (readEntry (data.drop r.offset)).isOk then 0 else base

/-! ## Archives -/

/-- The directory read with its base; a base that leads to no entry is given up. -/
def readDirectory (data : Bytes) (r : EndRecord) : Int × List ZipEntry × ZipError :=
  let base := r.base data
  match readEntries (data.drop (base + r.offset).toNat) with
  | ([], .format) => if base ≠ 0 then (0, readEntries (data.drop r.offset)) else (0, [], .format)
  | found => (base, found)

/-- Open an archive. Entries are read until one cannot be; then their number must agree with the end
record in its low sixteen bits. -/
def ofBytes (data : Bytes) : Except ZipError Zip := do
  let r <- readEnd data
  let start := r.start - r.size
  if Nat.pow 2 63 <= r.size || Nat.pow 2 63 <= r.offset || start < 0
      || (data.length : Int) <= start then
    throw .format
  else
    let (base, entries, stopped) := readDirectory data r
    if stopped = .ended || entries.length % 65536 ≠ r.count % 65536 then throw stopped
    else return { data := data, base := base, entries := entries }

def bodyOffset (z : Zip) (e : ZipEntry) : Except ZipError Nat :=
  match e.header + z.base with
  | .negSucc _ => .error .negativeOffset
  | .ofNat offset =>
    let b := z.data.drop offset
    if b.length < 30 then .error .ended
    else if fieldAt 0 4 b ≠ headerSignature then .error .format
    else .ok (offset + 30 + fieldAt 26 2 b + fieldAt 28 2 b)

inductive Method where
  | stored
  | deflated
  deriving DecidableEq

structure Opened where
  method : Method
  body : Nat
  deriving DecidableEq

def openEntry (z : Zip) (e : ZipEntry) : Except ZipError Opened := do
  let body <- z.bodyOffset e
  if e.method = 0 then return ⟨.stored, body⟩
  else if e.method = 8 then return ⟨.deflated, body⟩
  else throw .algorithm

def checkDescriptor (e : ZipEntry) (b : Bytes) : Except ZipError Unit :=
  let b := b.take 16
  let skip := if fieldAt 0 4 b = descriptorSignature then 4 else 0
  if b.length < skip + 12 then .error .truncated
  else if fieldAt skip 4 b ≠ e.crc then .error .checksum
  else .ok ()

/-- What stands behind the data of an entry, at a place that is counted in 64 bits with a sign. -/
def behind (z : Zip) (e : ZipEntry) (o : Opened) : Except ZipError Bytes :=
  match Int.bmod (o.body + e.compressedSize) (Nat.pow 2 64) with
  | .negSucc _ => .error .negativeOffset
  | .ofNat place => .ok (z.data.drop place)

/-- Check the content of an entry. Without a descriptor, a check of zero was never set. -/
def checkContent (z : Zip) (e : ZipEntry) (o : Opened) (content : Bytes) : Except ZipError Bytes := do
  let crc := (Checksum.crc32 content).toNat
  if e.flags / 8 % 2 = 1 then do
    checkDescriptor e (<- z.behind e o)
    if crc ≠ e.crc then throw .checksum else return content
  else if e.crc ≠ 0 && crc ≠ e.crc then throw .checksum
  else return content

def unpack : Method -> Bytes -> Bytes × Option ZipError
  | .stored, data => (data, none)
  | .deflated, data =>
    match inflate data with
    | (content, none) => (content, none)
    | (content, some .truncated) => (content, some .truncated)
    | (content, some (.corrupt taken)) => (content, some (.corrupt taken))

/-- Read an opened entry. Too much content comes before every other failure. -/
def readContent (z : Zip) (e : ZipEntry) (o : Opened) : Except ZipError Bytes :=
  match unpack o.method ((z.data.drop o.body).take e.compressedSize) with
  | (content, stopped) =>
    if e.size < content.length then .error .format
    else
      match stopped with
      | some err => .error err
      | none =>
        if content.length < e.size then .error .truncated
        else z.checkContent e o content

end Zip

end Jvm
