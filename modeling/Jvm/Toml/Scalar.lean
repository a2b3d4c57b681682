import Jvm.Text.Utf8

/-!
The scalars of TOML as they are spelled: numbers and dates. An integer has a value; of floats and
dates only the spelling is checked, because no setting takes one.
-/

set_option autoImplicit false

namespace Jvm.Toml

def isDigit (c : UInt8) : Bool := 48 <= c && c <= 57

def isHexDigit (c : UInt8) : Bool :=
  isDigit c || (65 <= c && c <= 70) || (97 <= c && c <= 102)

def digitValue (c : UInt8) : Nat :=
  if isDigit c then c.toNat - 48 else if c < 97 then c.toNat - 55 else c.toNat - 87

def ofDigits (base : Nat) (ds : Bytes) : Nat := ds.foldl (fun n d => n * base + digitValue d) 0

/-- Whether every underscore stands between digits, and the last character is a digit. The flag tells
whether the character before was one. -/
def underscoresOk : Bool -> Bytes -> Bool
  | digitBefore, [] => digitBefore
  | digitBefore, c :: rest =>
    if c = 95 && !digitBefore then false else underscoresOk (isHexDigit c) rest

def hasLeadingZero : Bytes -> Bool
  | 48 :: c :: _ => !(c = 98 || c = 111 || c = 120)
  | 43 :: 48 :: _ :: _ => true
  | 45 :: 48 :: _ :: _ => true
  | _ => false

def withoutUnderscores (b : Bytes) : Bytes := b.filter (· != 95)

def magnitude : Bytes -> Nat
  | 48 :: 120 :: ds => ofDigits 16 ds
  | 48 :: 111 :: ds => ofDigits 8 ds
  | 48 :: 98 :: ds => ofDigits 2 ds
  | ds => ofDigits 10 ds

def integer? (token : Bytes) : Option Int :=
  if underscoresOk false token && !hasLeadingZero token then
    let n : Int :=
      match withoutUnderscores token with
      | 45 :: ds => -(magnitude ds : Int)
      | 43 :: ds => magnitude ds
      | ds => magnitude ds
    if -Int.pow 2 63 <= n && n < Int.pow 2 63 then some n else none
  else none

/-- The parts of a float between its points and exponent marks; empty parts are left out. -/
def floatParts : Bytes -> List Bytes
  | [] => []
  | c :: rest =>
    if c = 46 || c = 101 || c = 69 then [] :: floatParts rest
    else
      match floatParts rest with
      | [] => [[c]]
      | p :: ps => (c :: p) :: ps

def periodsOk : Bytes -> Bool
  | [] => true
  | 46 :: rest =>
    match rest with
    | d :: _ => isDigit d && periodsOk rest
    | [] => false
  | _ :: rest => periodsOk rest

def unsigned : Bytes -> Bytes
  | 43 :: rest => rest
  | 45 :: rest => rest
  | b => b

/-- The decimal exponent at the end of a float: none when it is malformed, and zero when there is
none. -/
def exponent? : Bytes -> Option Int
  | [] => some 0
  | c :: rest =>
    if c = 101 || c = 69 then
      let ds := unsigned rest
      if ds ≠ [] && ds.all isDigit then
        let n : Int := ofDigits 10 ds
        some (if rest.head? = some 45 then -n else n)
      else none
    else none

/-- Whether `digits * 10 ^ exponent` rounds to a finite 64-bit float. The bound is half a unit beyond
the greatest one. -/
def isFinite (digits : Bytes) (exponent : Int) : Bool :=
  let significant := digits.dropWhile (· = 48)
  let size : Int := significant.length + exponent
  if significant = [] || size < 300 then true
  else if 400 < size then false
  else
    let bound := Nat.pow 2 1024 - Nat.pow 2 970
    let n := ofDigits 10 significant
    match exponent with
    | .ofNat e => n * Nat.pow 10 e < bound
    | .negSucc e => n < bound * Nat.pow 10 (e + 1)

def isDecimal (b : Bytes) : Bool :=
  let b := unsigned b
  let whole := b.takeWhile isDigit
  let rest := b.dropWhile isDigit
  let (fraction, rest) :=
    match rest with
    | 46 :: r => (r.takeWhile isDigit, r.dropWhile isDigit)
    | _ => ([], rest)
  match exponent? rest with
  | none => false
  | some e =>
    (whole ≠ [] || fraction ≠ []) && isFinite (whole ++ fraction) (e - fraction.length)

def isFloat (token : Bytes) : Bool :=
  let parts := (floatParts token).filter (· ≠ [])
  parts.all (underscoresOk false) && !hasLeadingZero (parts.head?.getD []) && periodsOk token
    && isDecimal (withoutUnderscores token)

def digits? (n : Nat) (b : Bytes) : Option (Nat × Bytes) :=
  let ds := b.take n
  if ds.length = n && ds.all isDigit then some (ofDigits 10 ds, b.drop n) else none

def daysIn (year month : Nat) : Nat :=
  if month = 2 then
    if year % 4 = 0 && (year % 100 ≠ 0 || year % 400 = 0) then 29 else 28
  else if month = 4 || month = 6 || month = 9 || month = 11 then 30
  else 31

def afterDate? (b : Bytes) : Option Bytes := do
  let (year, b) <- digits? 4 b
  let 45 :: b := b | none
  let (month, b) <- digits? 2 b
  let 45 :: b := b | none
  let (day, b) <- digits? 2 b
  if 1 <= month && month <= 12 && 1 <= day && day <= daysIn year month then return b else none

def afterSeconds? (b : Bytes) : Option Bytes := do
  let (second, b) <- digits? 2 b
  if second < 60 then
    match b with
    | 46 :: d :: rest => if isDigit d then return rest.dropWhile isDigit else return b
    | _ => return b
  else none

def afterTime? (b : Bytes) : Option Bytes := do
  let (hour, b) <- digits? 2 b
  let 58 :: b := b | none
  let (minute, b) <- digits? 2 b
  if hour < 24 && minute < 60 then
    match b with
    | 58 :: b => afterSeconds? b
    | _ => return b
  else none

def isZone : Bytes -> Bool
  | [90] => true
  | sign :: rest =>
    (sign = 43 || sign = 45)
      && (match digits? 2 rest with
        | some (hour, 58 :: rest) =>
          match digits? 2 rest with
          | some (minute, []) => hour <= 24 && minute <= 60
          | _ => false
        | _ => false)
  | [] => false

/-- A date-time with its letters in upper case and T between its halves. -/
def normalDate (b : Bytes) : Bytes :=
  b.map fun c => if c = 122 then 90 else if c = 116 || c = 32 then 84 else c

def isDate (token : Bytes) : Bool :=
  let b := normalDate token
  match afterDate? b with
  | some [] => true
  | some (84 :: rest) =>
    match afterTime? rest with
    | some [] => true
    | some zone => isZone zone
    | none => false
  | some _ => false
  | none => afterTime? b = some []

example : integer? (utf8 "-0x10") = none := by decide
example : integer? (utf8 "0xFf") = some 255 := by decide
example : isFloat (utf8 "6.626e-34") = true := by decide
example : isDate (utf8 "1979-05-27T07:32:00.5Z") = true := by decide

end Jvm.Toml
