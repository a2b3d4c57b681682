import Jvm.Archive.Huffman

/-!
Inflation of deflated data: a stream of blocks, each stored or compressed with prefix codes that
stand for literal bytes and for copies of earlier output. A failure tells how many bytes of the
stream had been taken, and the output up to there is kept.
-/

set_option autoImplicit false

namespace Jvm

inductive InflateError where
  | corrupt (taken : Nat)
  | truncated
  deriving DecidableEq

/-- An inflation under way: the bytes ahead, the number of bytes taken, the bits that were taken but
not used, and the output. -/
structure Inflation where
  ahead : Bytes
  taken : Nat
  bits : Nat
  held : Nat
  output : Array UInt8

abbrev InflateM := EStateM InflateError Inflation

namespace Inflation

def start (data : Bytes) : Inflation :=
  { ahead := data, taken := 0, bits := 0, held := 0, output := #[] }

def corrupt {α : Type} : InflateM α := do throw (.corrupt (<- get).taken)

def takeByte : InflateM UInt8 := do
  let s <- get
  match s.ahead with
  | [] => throw .truncated
  | b :: rest => do
    set { s with ahead := rest, taken := s.taken + 1 }
    return b

def holdBytes : Nat -> InflateM Unit
  | 0 => return ()
  | n + 1 => do
    let b <- takeByte
    modify fun s => { s with bits := s.bits + b.toNat * Nat.pow 2 s.held, held := s.held + 8 }
    holdBytes n

def hold (n : Nat) : InflateM Unit := do holdBytes ((n - (<- get).held + 7) / 8)

def takeBits (n : Nat) : InflateM Nat := do
  hold n
  let s <- get
  set { s with bits := s.bits / Nat.pow 2 n, held := s.held - n }
  return s.bits % Nat.pow 2 n

def emit (b : UInt8) : InflateM Unit := modify fun s => { s with output := s.output.push b }

/-- Look up a codeword among the held bits, taking as many bytes as it turns out to need. Bits that
are not held count as zeros until they are taken, so a few rounds settle the codeword. -/
def nextWord (c : PrefixCode) (need : Nat) : Nat -> InflateM Nat
  | 0 => corrupt
  | rounds + 1 => do
    hold need
    let s <- get
    match c.lookup? s.bits with
    | none => corrupt
    | some w => if w.length <= s.held then takeBits w.length *> pure w.symbol else nextWord c w.length rounds

/-- The next symbol. Every round but the last takes a byte, and no codeword has more than fifteen
bits. -/
def nextSymbol (c : PrefixCode) : InflateM Nat := nextWord c c.least 4

def copy (distance : Nat) : Nat -> InflateM Unit
  | 0 => return ()
  | n + 1 => do
    let s <- get
    emit (s.output[s.output.size - distance]?.getD 0)
    copy distance n

/-- The least length that a length symbol stands for, and how many bits are added to it. -/
def lengthOf? (symbol : Nat) : Option (Nat × Nat) :=
  if symbol < 265 then some (symbol - 254, 0)
  else if symbol < 285 then
    let extra := (symbol - 261) / 4
    some (((symbol - 261) % 4 + 4) * Nat.pow 2 extra + 3, extra)
  else if symbol = 285 then some (258, 0)
  else none

def distanceOf? (symbol : Nat) : Option (Nat × Nat) :=
  if symbol < 4 then some (symbol + 1, 0)
  else if symbol < 30 then
    let extra := (symbol - 2) / 2
    some ((symbol % 2 + 2) * Nat.pow 2 extra + 1, extra)
  else none

/-- A number that a symbol stands for, with its added bits. -/
def extended : Option (Nat × Nat) -> InflateM Nat
  | none => corrupt
  | some (least, extra) => do return least + (<- takeBits extra)

/-- The symbols of a compressed block. Each uses at least one bit, so `rounds` need not exceed the
number of bits. -/
def compressed (literals distances : PrefixCode) : Nat -> InflateM Unit
  | 0 => throw .truncated
  | rounds + 1 => do
    let symbol <- nextSymbol literals
    if symbol < 256 then do
      emit symbol.toUInt8
      compressed literals distances rounds
    else if symbol = 256 then return ()
    else do
      let length <- extended (lengthOf? symbol)
      let distance <- extended (distanceOf? (<- nextSymbol distances))
      if (<- get).output.size < distance then corrupt
      else do
        copy distance length
        compressed literals distances rounds

def storedBytes : Nat -> InflateM Unit
  | 0 => return ()
  | n + 1 => do
    emit (<- takeByte)
    storedBytes n

/-- A stored block: from the next byte on, its length and the complement of that, then the bytes. -/
def stored : InflateM Unit := do
  modify fun s => { s with bits := 0, held := 0 }
  let a <- takeByte
  let b <- takeByte
  let c <- takeByte
  let d <- takeByte
  let length := Bytes.littleEndian [a, b]
  if length + Bytes.littleEndian [c, d] = 65535 then storedBytes length else corrupt

/-- The order in which a block states the lengths of the code for lengths. -/
def lengthOrder : List Nat := [16, 17, 18, 0, 8, 7, 9, 6, 10, 5, 11, 4, 12, 3, 13, 2, 14, 1, 15]

def shortLengths : Nat -> InflateM (List Nat)
  | 0 => return []
  | n + 1 => do return (<- takeBits 3) :: (<- shortLengths n)

/-- Read codeword lengths until there are `count`; `known` lists those read, latest first. A symbol
is a length or repeats one. Each adds a length, so `rounds` need not exceed `count`. -/
def codeLengths (c : PrefixCode) (count : Nat) (known : List Nat) : Nat -> InflateM (List Nat)
  | 0 => return known.reverse
  | rounds + 1 => do
    if count <= known.length then return known.reverse
    else do
      let symbol <- nextSymbol c
      if symbol < 16 then codeLengths c count (symbol :: known) rounds
      else do
        let again <-
          match symbol, known with
          | 16, [] => corrupt
          | 16, last :: _ => do pure (List.replicate (3 + (<- takeBits 2)) last)
          | 17, _ => do pure (List.replicate (3 + (<- takeBits 3)) 0)
          | _, _ => do pure (List.replicate (11 + (<- takeBits 7)) 0)
        if count < known.length + again.length then corrupt
        else codeLengths c count (again ++ known) rounds

def codeOf (lengths : List Nat) : InflateM PrefixCode :=
  match PrefixCode.ofLengths? lengths with
  | some c => return c
  | none => corrupt

/-- Read the two codes of a block. No symbol of the block is looked up before as many bits are held
as its end symbol has. -/
def readCodes : InflateM (PrefixCode × PrefixCode) := do
  let head <- takeBits 14
  let literals := head % 32 + 257
  let distances := head / 32 % 32 + 1
  if 286 < literals || 30 < distances then corrupt
  else do
    let short <- shortLengths (head / 1024 + 4)
    let table := lengthOrder.zip short
    let c <- codeOf ((List.range 19).map fun s => (table.lookup s).getD 0)
    let lengths <- codeLengths c (literals + distances) [] (literals + distances)
    let first <- codeOf (lengths.take literals)
    let second <- codeOf (lengths.drop literals)
    return ({ first with least := max first.least (lengths[256]?.getD 0) }, second)

def fixedLiterals : List Nat :=
  List.replicate 144 8 ++ List.replicate 112 9 ++ List.replicate 24 7 ++ List.replicate 8 8

def fixedDistances : List Nat := List.replicate 32 5

/-- Inflate blocks up to the last one. Each uses at least three bits. -/
def blocks (bits : Nat) : Nat -> InflateM Unit
  | 0 => throw .truncated
  | rounds + 1 => do
    let head <- takeBits 3
    match head / 2 with
    | 0 => stored
    | 1 => do compressed (<- codeOf fixedLiterals) (<- codeOf fixedDistances) bits
    | 2 => do
      let codes <- readCodes
      compressed codes.1 codes.2 bits
    | _ => corrupt
    if head % 2 = 1 then return () else blocks bits rounds

end Inflation

/-- Inflate data: the output, and what stopped it before its last block ended. -/
def inflate (data : Bytes) : Bytes × Option InflateError :=
  let bits := 8 * data.length + 1
  match Inflation.blocks bits bits (.start data) with
  | .ok _ s => (s.output.toList, none)
  | .error e s => (s.output.toList, some e)

example : inflate [1, 2, 0, 0xFD, 0xFF, 65, 66] = ([65, 66], none) := rfl
example : inflate [7] = ([], some (.corrupt 1)) := rfl
example : inflate [] = ([], some .truncated) := rfl

end Jvm
