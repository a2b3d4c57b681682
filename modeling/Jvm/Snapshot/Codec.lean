import Jvm.Cbor.Decoder
import Jvm.Snapshot.Basic
import Jvm.Text.Utf8

/-!
Snapshots as CBOR. Writing is canonical: shortest heads, definite lengths, map keys sorted by length
and then bytewise. Reading is lenient: keys may come in any order and letter case, unknown and
repeated keys are skipped, and what is absent or null is zero, empty or absent.
-/

set_option autoImplicit false

namespace Jvm

/-- The canonical form of a flattened entry; an empty text is left out. -/
def FlatEntry.encode (e : FlatEntry) : Bytes :=
  let index := Cbor.array [Cbor.number e.first.toNat, Cbor.number e.second.toNat]
  Cbor.map
    (("tag", Cbor.number e.tag.toNat)
      :: (if e.text = [] then [] else [("text", Cbor.textString e.text)])
      ++ [("index", index)])

def Attribute.encode (a : Attribute) : Bytes :=
  Cbor.map
    [("Data", (a.data.map Cbor.byteString).getD Cbor.null),
      ("NameIndex", Cbor.number a.name.toNat)]

def Member.encode (m : Member) : Bytes :=
  Cbor.map
    [("name", Cbor.number m.name.toNat),
      ("access", Cbor.number m.access.toNat),
      ("attributes", (m.attributes.map fun as => Cbor.array (as.map Attribute.encode)).getD Cbor.null),
      ("descriptor", Cbor.number m.descriptor.toNat)]

def Snapshot.encode (s : Snapshot) : Bytes :=
  Cbor.map
    [("pool", Cbor.array (s.pool.map FlatEntry.encode)),
      ("major", Cbor.number s.major.toNat),
      ("minor", Cbor.number s.minor.toNat),
      ("fields", Cbor.array (s.members.map Member.encode))]

namespace Cbor.Item

/-- Whether a tag may stand in front of an item. The tags of dates, times and bignums ask for a text, a
number and a byte string. -/
def admits (tag : Nat) (i : Item) : Bool :=
  match tag, i with
  | 0, text _ => true
  | 1, unsigned _ | 1, negative _ | 1, float => true
  | 2, bytes _ | 3, bytes _ => true
  | tag, _ => 3 < tag

/-- The item behind its tags, if each may stand where it does. A bignum keeps its tag. -/
def content? : Item -> Option Item
  | tagged tag i =>
    if !admits tag i then none
    else if tag = 2 || tag = 3 then some (tagged tag i)
    else i.content?
  | i => some i

def isNull : Item -> Bool
  | simple n => n = 22 || n = 23
  | _ => false

/-- A number of at most `max`, which may be a bignum. Null is zero, and a simple value other than a truth
value counts as its number. -/
def number? (max : Nat) (i : Item) : Option Nat :=
  match i.content? with
  | some (unsigned n) => if n <= max then some n else none
  | some (tagged 2 (bytes b)) => if Bytes.bigEndian b <= max then some (Bytes.bigEndian b) else none
  | some (simple n) =>
    if n = 22 || n = 23 then some 0
    else if n = 20 || n = 21 then none
    else if n <= max then some n
    else none
  | _ => none

/-- A text, each chunk of which is UTF-8. Null is the empty text. -/
def text? (i : Item) : Option Bytes :=
  match i.content? with
  | some (text chunks) => if chunks.all Utf8.isValid then some chunks.flatten else none
  | some i => if i.isNull then some [] else none
  | none => none

/-- A list; null is none. -/
def list? {α : Type} (element? : Item -> Option α) (i : Item) : Option (Option (List α)) :=
  match i.content? with
  | some (array items) => (items.mapM element?).map some
  | some i => if i.isNull then some none else none
  | none => none

/-- Binary data: a byte string, also that of a bignum, or an array of numbers. Null is none. -/
def data? (i : Item) : Option (Option Bytes) :=
  match i.content? with
  | some (bytes b) | some (tagged _ (bytes b)) => some (some b)
  | some (array items) => (items.mapM (number? 255)).map fun ns => some (ns.map Nat.toUInt8)
  | some i => if i.isNull then some none else none
  | none => none

/-- The names of fields that are still to be set. A key sets the field of its name, else the first
field whose name it spells in other letter case. -/
def matchKey? (names : List Bytes) (key : Bytes) : Option Bytes :=
  if names.contains key then some key
  else names.find? fun name => name.map Bytes.lowerByte = key.map Bytes.lowerByte

/-- The items that the pairs of a map give to the named fields, the first that matches each. Keys are
texts or integers, and an integer names no field. -/
def select? (names : List Bytes) : List (Item × Item) -> Option (List (Bytes × Item))
  | [] => some []
  | (key, value) :: rest =>
    match key with
    | text chunks =>
      if chunks.all Utf8.isValid then
        match matchKey? names chunks.flatten with
        | some name => (select? (names.erase name) rest).map ((name, value) :: ·)
        | none => select? names rest
      else none
    | unsigned _ => select? names rest
    | negative n => if n < Nat.pow 2 63 then select? names rest else none
    | _ => none

def fields? (names : List String) (i : Item) : Option (List (Bytes × Item)) :=
  match i.content? with
  | some (map pairs) => select? (names.map utf8) pairs
  | some i => if i.isNull then some [] else none
  | none => none

end Cbor.Item

def fieldOr {α : Type} (fields : List (Bytes × Cbor.Item)) (name : String) (absent : α)
    (decode? : Cbor.Item -> Option α) : Option α :=
  match fields.lookup (utf8 name) with
  | some item => decode? item
  | none => some absent

def word? (i : Cbor.Item) : Option UInt16 := (i.number? 65535).map Nat.toUInt16

/-- The two indices of an entry: missing ones are zero, and those behind them are not looked at. -/
def indexPair? (i : Cbor.Item) : Option (UInt16 × UInt16) :=
  match i.content? with
  | some (.array []) => some (0, 0)
  | some (.array [a]) => (word? a).map fun a => (a, 0)
  | some (.array (a :: b :: _)) => do
    let a <- word? a
    let b <- word? b
    return (a, b)
  | some i => if i.isNull then some (0, 0) else none
  | none => none

def FlatEntry.ofItem? (i : Cbor.Item) : Option FlatEntry := do
  let fields <- i.fields? ["tag", "text", "index"]
  let tag <- fieldOr fields "tag" 0 (Cbor.Item.number? 255)
  let text <- fieldOr fields "text" [] Cbor.Item.text?
  let index <- fieldOr fields "index" (0, 0) indexPair?
  return { tag := tag.toUInt8, text := text, first := index.1, second := index.2 }

def Attribute.ofItem? (i : Cbor.Item) : Option Attribute := do
  let fields <- i.fields? ["NameIndex", "Data"]
  let name <- fieldOr fields "NameIndex" 0 word?
  let data <- fieldOr fields "Data" none Cbor.Item.data?
  return { name := name, data := data }

def Member.ofItem? (i : Cbor.Item) : Option Member := do
  let fields <- i.fields? ["access", "name", "descriptor", "attributes"]
  let access <- fieldOr fields "access" 0 word?
  let name <- fieldOr fields "name" 0 word?
  let descriptor <- fieldOr fields "descriptor" 0 word?
  let attributes <- fieldOr fields "attributes" none (Cbor.Item.list? Attribute.ofItem?)
  return { access := access, name := name, descriptor := descriptor, attributes := attributes }

def Snapshot.ofItem? (i : Cbor.Item) : Option Snapshot := do
  let fields <- i.fields? ["minor", "major", "pool", "fields"]
  let minor <- fieldOr fields "minor" 0 word?
  let major <- fieldOr fields "major" 0 word?
  let pool <- fieldOr fields "pool" none (Cbor.Item.list? FlatEntry.ofItem?)
  let members <- fieldOr fields "fields" none (Cbor.Item.list? Member.ofItem?)
  return { minor := minor, major := major, pool := pool.getD [], members := members.getD [] }

inductive SnapshotError where
  | cbor
  | unknownEntry (e : UnknownEntry)
  deriving DecidableEq

def ClassFile.toSnapshot (c : ClassFile) : Bytes := c.snapshot.encode

def ClassFile.ofSnapshot (b : Bytes) : Except SnapshotError ClassFile :=
  match (Cbor.decode b).bind Snapshot.ofItem? with
  | none => .error .cbor
  | some s => s.classFile.mapError .unknownEntry

end Jvm
