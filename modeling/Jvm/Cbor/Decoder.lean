import Jvm.Cbor.Item

/-!
Decoding CBOR. The input must be exactly one well-formed item, nested at most 32 levels deep, with no
more than 131072 elements in an array and as many pairs in a map. Heads need not be shortest, and
strings, arrays and maps may have indefinite length.
-/

set_option autoImplicit false

namespace Jvm.Cbor

/-- Reading from the front of the input; none when the input is not well-formed. -/
abbrev Parser (α : Type) := Bytes -> Option (α × Bytes)

def maxLevels : Nat := 32

def maxElements : Nat := 131072

def breakByte : UInt8 := 0xFF

/-- The argument of a head: a number, or none for indefinite length. -/
structure Head where
  major : Major
  info : Nat
  argument : Option Nat

def takeBytes (n : Nat) : Parser Bytes := fun b =>
  let taken := b.take n
  if taken.length = n then some (taken, b.drop n) else none

def wideHead (major : Major) (info n : Nat) : Parser Head := fun b =>
  match takeBytes n b with
  | some (v, rest) => some (⟨major, info, some (Bytes.bigEndian v)⟩, rest)
  | none => none

/-- The head of an item. Two-byte simple values start at 32, and only strings, arrays and maps have
indefinite length. -/
def readHead : Parser Head
  | [] => none
  | b :: rest =>
    let major := Major.ofByte b
    let info := b.toNat % 32
    if info < 24 then some (⟨major, info, some info⟩, rest)
    else if info = 24 then
      match rest with
      | v :: rest =>
        if major = .other && v < 32 then none else some (⟨major, info, some v.toNat⟩, rest)
      | [] => none
    else if info = 25 then wideHead major info 2 rest
    else if info = 26 then wideHead major info 4 rest
    else if info = 27 then wideHead major info 8 rest
    else if info = 31 && (major = .bytes || major = .text || major = .array || major = .map) then
      some (⟨major, info, none⟩, rest)
    else none

def times {α : Type} (p : Parser α) : Nat -> Parser (List α)
  | 0, b => some ([], b)
  | n + 1, b =>
    match p b with
    | none => none
    | some (a, rest) =>
      match times p n rest with
      | none => none
      | some (as, rest) => some (a :: as, rest)

/-- The same thing until the break. Each takes at least a byte, so `fuel` rounds are enough when the
input has that many bytes. -/
def untilBreak {α : Type} (p : Parser α) : Nat -> Parser (List α)
  | _, [] => none
  | 0, _ => none
  | fuel + 1, b :: rest =>
    if b = breakByte then some ([], rest)
    else
      match p (b :: rest) with
      | none => none
      | some (a, rest) =>
        match untilBreak p fuel rest with
        | none => none
        | some (as, rest) => some (a :: as, rest)

/-- A chunk of an indefinite string: a definite string of the same major type. -/
def chunk (major : Major) : Parser Bytes := fun b =>
  match readHead b with
  | some (⟨m, _, some n⟩, rest) => if m = major then takeBytes n rest else none
  | _ => none

def chunks (major : Major) (argument : Option Nat) : Parser (List Bytes) := fun b =>
  match argument with
  | some n => (takeBytes n b).map fun r => ([r.1], r.2)
  | none => untilBreak (chunk major) b.length b

def elements {α : Type} (p : Parser α) (argument : Option Nat) : Parser (List α) := fun b =>
  match argument with
  | some n => if n <= maxElements then times p n b else none
  | none =>
    match untilBreak p b.length b with
    | some (as, rest) => if as.length <= maxElements then some (as, rest) else none
    | none => none

def pair (p : Parser Item) : Parser (Item × Item) := fun b =>
  match p b with
  | none => none
  | some (key, rest) => (p rest).map fun r => ((key, r.1), r.2)

/-- An item that is not tagged, given how to read the items inside it. Where nothing may nest there
are no arrays and maps, not even empty ones. -/
def untagged (inner : Option (Parser Item)) : Parser Item := fun b =>
  match readHead b with
  | none => none
  | some (⟨.unsigned, _, argument⟩, rest) => some (.unsigned (argument.getD 0), rest)
  | some (⟨.negative, _, argument⟩, rest) => some (.negative (argument.getD 0), rest)
  | some (⟨.bytes, _, argument⟩, rest) =>
    (chunks .bytes argument rest).map fun r => (.bytes r.1.flatten, r.2)
  | some (⟨.text, _, argument⟩, rest) => (chunks .text argument rest).map fun r => (.text r.1, r.2)
  | some (⟨.array, _, argument⟩, rest) =>
    match inner with
    | some p => (elements p argument rest).map fun r => (.array r.1, r.2)
    | none => none
  | some (⟨.map, _, argument⟩, rest) =>
    match inner with
    | some p => (elements (pair p) argument rest).map fun r => (.map r.1, r.2)
    | none => none
  | some (⟨.tag, _, _⟩, _) => none
  | some (⟨.other, info, argument⟩, rest) =>
    if 25 <= info then some (.float, rest) else some (.simple (argument.getD 0), rest)

def startsWithTag : Bytes -> Bool
  | [] => false
  | b :: _ => Major.ofByte b = .tag

/-- An item, tagged or not, given how to read the items inside it. A tag nests in a tag as an element
does in an array. -/
def anyItem (inner : Option (Parser Item)) : Parser Item := fun b =>
  if startsWithTag b then
    match readHead b with
    | none => none
    | some (h, rest) =>
      let content :=
        if startsWithTag rest then
          match inner with
          | some p => p rest
          | none => none
        else untagged inner rest
      content.map fun r => (.tagged (h.argument.getD 0) r.1, r.2)
  else untagged inner b

/-- An item inside which `levels` more levels may nest. -/
def item : Nat -> Parser Item
  | 0 => anyItem none
  | levels + 1 => anyItem (some (item levels))

def decode (b : Bytes) : Option Item :=
  match item maxLevels b with
  | some (i, []) => some i
  | _ => none

end Jvm.Cbor
