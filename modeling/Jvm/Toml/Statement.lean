import Jvm.Toml.Scalar

/-!
The grammar of TOML documents: a document is a list of statements, each a table header or a key with
its value. The statements are read as they stand; what they mean together is not decided here.
-/

set_option autoImplicit false

namespace Jvm.Toml

abbrev Parser (α : Type) := Bytes -> Option (α × Bytes)

abbrev Key := List Bytes

inductive Expr where
  | integer (n : Int)
  | float
  | boolean (b : Bool)
  | date
  | string (s : Bytes)
  | array (items : List Expr)
  | inline (pairs : List (Key × Expr))

inductive Statement where
  | table (key : Key)
  | arrayTable (key : Key)
  | assign (key : Key) (value : Expr)

def isBlank (c : UInt8) : Bool := c = 32 || c = 9

def isNewline (c : UInt8) : Bool := c = 10 || c = 13

def isBare (c : UInt8) : Bool :=
  isDigit c || (65 <= c && c <= 90) || (97 <= c && c <= 122) || c = 95 || c = 45

def skipBlanks (b : Bytes) : Bytes := b.dropWhile isBlank

def skipComment (b : Bytes) : Bytes := b.dropWhile fun c => !isNewline c

/-! ## Characters -/

def isControl (n : Nat) : Bool := (n < 32 && n ≠ 9 && n ≠ 10 && n ≠ 13) || n = 127

/-- Whether pieces of a text are admitted: scalar values only, no control characters, and a carriage
return only before a line feed. -/
def piecesOk : List Utf8.Piece -> Bool
  | [] => true
  | .stray _ :: _ => false
  | .scalar n :: rest =>
    if isControl n then false
    else if n = 13 then rest.head? = some (.scalar 10) && piecesOk rest
    else piecesOk rest

def skipMark : Bytes -> Bytes
  | 0xEF :: 0xBB :: 0xBF :: rest => rest
  | 0xFF :: 0xFE :: rest => rest
  | 0xFE :: 0xFF :: rest => rest
  | b => b

/-! ## Strings -/

def isScalar (n : Nat) : Bool := n < 0xD800 || (0xE000 <= n && n < 0x110000)

def named? (ds : Bytes) : Option Bytes :=
  let n := ofDigits 16 ds
  if ds.all isHexDigit && isScalar n then some (Utf8.encode n) else none

def escape? : Parser Bytes
  | 98 :: rest => some ([8], rest)
  | 116 :: rest => some ([9], rest)
  | 110 :: rest => some ([10], rest)
  | 102 :: rest => some ([12], rest)
  | 114 :: rest => some ([13], rest)
  | 101 :: rest => some ([27], rest)
  | 34 :: rest => some ([34], rest)
  | 92 :: rest => some ([92], rest)
  | 120 :: a :: b :: rest => (named? [a, b]).map fun s => (s, rest)
  | 117 :: a :: b :: c :: d :: rest => (named? [a, b, c, d]).map fun s => (s, rest)
  | 85 :: a :: b :: c :: d :: e :: f :: g :: h :: rest =>
    (named? [a, b, c, d, e, f, g, h]).map fun s => (s, rest)
  | _ => none

def prepend (s : Bytes) (r : Option (Bytes × Bytes)) : Option (Bytes × Bytes) :=
  r.map fun r => (s ++ r.1, r.2)

def basicString (fuel : Nat) : Parser Bytes := fun b =>
  match fuel, b with
  | 0, _ => none
  | _, [] => none
  | _, 34 :: rest => some ([], rest)
  | fuel + 1, 92 :: rest =>
    match escape? rest with
    | some (s, rest) => prepend s (basicString fuel rest)
    | none => none
  | fuel + 1, c :: rest => if isNewline c then none else prepend [c] (basicString fuel rest)

def literalString : Parser Bytes
  | [] => none
  | 39 :: rest => some ([], rest)
  | c :: rest => if isNewline c then none else prepend [c] (literalString rest)

/-- A newline right behind the opening quotes of a multi-line string is dropped. -/
def skipFirstNewline : Bytes -> Bytes
  | 10 :: rest => rest
  | 13 :: 10 :: rest => rest
  | b => b

def lineEnd? (b : Bytes) : Option Bytes :=
  let isSpace c := isBlank c || isNewline c
  if (b.takeWhile isSpace).any isNewline then some (b.dropWhile isSpace) else none

/-- The rest of a multi-line string between triples of `quote`. A run of quotes ends the string with
its last three and may have two more in front of them, or three when it follows an escaped backslash,
as `escaped` tells. -/
def multiline (quote : UInt8) (escapes : Bool) (fuel : Nat) (escaped : Bool) : Parser Bytes := fun b =>
  match fuel, b with
  | 0, _ => none
  | _, [] => none
  | fuel + 1, c :: rest =>
    if c = quote then
      let run := (b.takeWhile (· = quote)).length
      if run < 3 then
        prepend (List.replicate run quote) (multiline quote escapes fuel false (b.drop run))
      else if run <= (if escaped then 6 else 5) then
        some (List.replicate (run - 3) quote, b.drop run)
      else none
    else if escapes && c = 92 then
      match lineEnd? rest with
      | some rest => multiline quote escapes fuel false rest
      | none =>
        match escape? rest with
        | some (s, behind) =>
          prepend s (multiline quote escapes fuel (rest.head? = some 92) behind)
        | none => none
    else prepend [c] (multiline quote escapes fuel false rest)

def stringValue : Parser Bytes := fun b =>
  match b with
  | 34 :: 34 :: 34 :: rest => multiline 34 true (rest.length + 1) false (skipFirstNewline rest)
  | 39 :: 39 :: 39 :: rest => multiline 39 false (rest.length + 1) false (skipFirstNewline rest)
  | 34 :: rest => basicString (rest.length + 1) rest
  | 39 :: rest => literalString rest
  | _ => none

/-! ## Keys -/

def keyPart : Parser Bytes := fun b =>
  match b with
  | 34 :: rest => basicString (rest.length + 1) rest
  | 39 :: rest => literalString rest
  | _ =>
    let name := b.takeWhile isBare
    if name = [] then none else some (name, b.dropWhile isBare)

def key (fuel : Nat) : Parser Key := fun b =>
  match fuel with
  | 0 => none
  | fuel + 1 =>
    match keyPart (skipBlanks b) with
    | none => none
    | some (part, rest) =>
      match skipBlanks rest with
      | 46 :: rest => (key fuel rest).map fun r => (part :: r.1, r.2)
      | rest => some ([part], rest)

def anyKey : Parser Key := fun b => key (b.length + 1) b

/-! ## Numbers, dates and words -/

def isFloatChar (c : UInt8) : Bool :=
  isDigit c || c = 95 || c = 46 || c = 45 || c = 43 || c = 101 || c = 69

def isDateChar (c : UInt8) : Bool :=
  isDigit c || c = 45 || c = 58 || c = 84 || c = 116 || c = 32 || c = 46 || c = 90 || c = 122
    || c = 43

def isFloatMark (c : UInt8) : Bool := c = 46 || c = 101 || c = 69

def token (p : UInt8 -> Bool) (read : Bytes -> Option Expr) : Parser Expr := fun b =>
  (read (b.takeWhile p)).map fun e => (e, b.dropWhile p)

def floatExpr (t : Bytes) : Option Expr := if isFloat t then some .float else none

/-- A date; blanks at its end do not belong to it. -/
def dateExpr (t : Bytes) : Option Expr :=
  if isDate (t.reverse.dropWhile isBlank).reverse then some .date else none

def integerExpr (t : Bytes) : Option Expr := (integer? t).map .integer

def decimal (first : UInt8) (b : Bytes) : Option (Expr × Bytes) :=
  let isPart c := isDigit c || c = 95
  let ds := b.takeWhile isPart
  let rest := b.dropWhile isPart
  match rest with
  | c :: _ =>
    if isFloatMark c then token isFloatChar (fun t => floatExpr (first :: ds ++ t)) rest
    else (integerExpr (first :: ds)).map fun e => (e, rest)
  | [] => (integerExpr (first :: ds)).map fun e => (e, rest)

def based (mark : UInt8) (isBaseDigit : UInt8 -> Bool) : Parser Expr := fun b =>
  match b with
  | c :: _ =>
    if isBaseDigit c then
      token (fun c => isBaseDigit c || c = 95) (fun t => integerExpr (48 :: mark :: t)) b
    else none
  | [] => none

def numberOrDate : Parser Expr := fun b =>
  match b with
  | 48 :: 120 :: rest => based 120 isHexDigit rest
  | 48 :: 111 :: rest => based 111 (fun c => 48 <= c && c <= 55) rest
  | 48 :: 98 :: rest => based 98 (fun c => c = 48 || c = 49) rest
  | c :: rest =>
    match rest.dropWhile isDigit with
    | mark :: _ =>
      if mark = 45 || mark = 58 then token isDateChar dateExpr b else decimal c rest
    | [] => decimal c rest
  | [] => none

def isWord (w : String) (b : Bytes) : Bool := b.take 3 = utf8 w

def signed (sign : UInt8) : Parser Expr := fun b =>
  if isWord "inf" b || isWord "nan" b then some (.float, b.drop 3)
  else
    match b with
    | d :: _ => if isDigit d then decimal sign b else none
    | [] => none

def isLetter (c : UInt8) : Bool := (65 <= c && c <= 90) || (97 <= c && c <= 122)

def boolExpr (t : Bytes) : Option Expr :=
  if t = utf8 "true" then some (.boolean true)
  else if t = utf8 "false" then some (.boolean false)
  else none

/-! ## Values -/

def skipSpace (fuel : Nat) (b : Bytes) : Bytes :=
  match fuel, b with
  | fuel + 1, c :: rest =>
    if isBlank c || isNewline c then skipSpace fuel rest
    else if c = 35 then skipSpace fuel (skipComment rest)
    else b
  | _, b => b

def skipAll (b : Bytes) : Bytes := skipSpace b.length b

def arrayItems (value : Parser Expr) (fuel : Nat) : Parser (List Expr) := fun b =>
  match fuel with
  | 0 => none
  | fuel + 1 =>
    match skipAll b with
    | 93 :: rest => some ([], rest)
    | b =>
      match value b with
      | none => none
      | some (e, rest) =>
        match skipAll rest with
        | 93 :: rest => some ([e], rest)
        | 44 :: rest => (arrayItems value fuel rest).map fun r => (e :: r.1, r.2)
        | _ => none

def inlinePairs (value : Parser Expr) (fuel : Nat) : Parser (List (Key × Expr)) := fun b =>
  match fuel with
  | 0 => none
  | fuel + 1 =>
    match skipAll b with
    | 125 :: rest => some ([], rest)
    | b =>
      match anyKey b with
      | some (k, 61 :: rest) =>
        match value rest with
        | none => none
        | some (e, rest) =>
          match skipAll rest with
          | 125 :: rest => some ([(k, e)], rest)
          | 44 :: rest => (inlinePairs value fuel rest).map fun r => ((k, e) :: r.1, r.2)
          | _ => none
      | _ => none

/-- A value. Blanks may come before it, newlines may not. -/
def value (fuel : Nat) : Parser Expr := fun b =>
  match fuel with
  | 0 => none
  | fuel + 1 =>
    match skipBlanks b with
    | 91 :: rest => (arrayItems (value fuel) (rest.length + 1) rest).map fun r => (.array r.1, r.2)
    | 123 :: rest => (inlinePairs (value fuel) (rest.length + 1) rest).map fun r => (.inline r.1, r.2)
    | c :: rest =>
      let b := c :: rest
      if c = 34 || c = 39 then (stringValue b).map fun r => (.string r.1, r.2)
      else if isDigit c then numberOrDate b
      else if c = 43 || c = 45 then signed c rest
      else if isWord "inf" b || isWord "nan" b then some (.float, b.drop 3)
      else token isLetter boolExpr b
    | [] => none

/-! ## Statements -/

/-- The text behind the end of a statement: blanks, a comment, and a newline or the end. -/
def endOfStatement (b : Bytes) : Option Bytes :=
  match skipBlanks b with
  | [] => some []
  | 35 :: rest => some (skipComment rest)
  | c :: rest => if isNewline c then some rest else none

def header : Parser Statement := fun b =>
  match b with
  | 91 :: rest =>
    match anyKey rest with
    | some (k, 93 :: 93 :: rest) => some (.arrayTable k, rest)
    | _ => none
  | _ =>
    match anyKey b with
    | some (k, 93 :: rest) => some (.table k, rest)
    | _ => none

def statement : Parser Statement := fun b =>
  match b with
  | 91 :: rest => header rest
  | _ =>
    match anyKey b with
    | some (k, 61 :: rest) => (value (rest.length + 1) rest).map fun r => (.assign k r.1, r.2)
    | _ => none

def statements (fuel : Nat) (b : Bytes) : Option (List Statement) :=
  match fuel with
  | 0 => none
  | fuel + 1 =>
    match skipAll b with
    | [] => some []
    | b =>
      match statement b with
      | none => none
      | some (s, rest) =>
        match endOfStatement rest with
        | none => none
        | some rest => (statements fuel rest).map (s :: ·)

def parse (b : Bytes) : Option (List Statement) :=
  let b := skipMark b
  if piecesOk (Utf8.pieces b) then statements (b.length + 1) b else none

end Jvm.Toml
