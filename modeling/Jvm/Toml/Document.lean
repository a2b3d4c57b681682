import Jvm.Toml.Statement

/-!
What the statements of a TOML document mean together: the tree of tables they build, and the keys in
the order in which the document names them.

A second definition of a key is an error unless the key is implicit, which it is from the moment when a
longer key runs through it, or a table is written as its value, to its next definition. That
definition leaves a table as it is and puts its value in the place of an array.
-/

set_option autoImplicit false

namespace Jvm.Toml

inductive Value where
  | integer (n : Int)
  | float
  | boolean (b : Bool)
  | date
  | string (s : Bytes)
  /-- a written array, whose elements no setting takes -/
  | array
  /-- the tables of `[[key]]` headers, in order -/
  | tables (ts : List (List (Bytes × Value)))
  | table (entries : List (Bytes × Value))

abbrev Table := List (Bytes × Value)

namespace Table

def replace (key : Bytes) (v : Value) : Table -> Table
  | [] => []
  | (k, w) :: rest => if k = key then (k, v) :: rest else (k, w) :: replace key v rest

def insert (key : Bytes) (v : Value) (t : Table) : Table :=
  if (t.lookup key).isSome then replace key v t else t ++ [(key, v)]

/-- Give a key below a path a value; tables are made along the path. None when the path runs through a
value that is no table. -/
def insertAt (path : Key) (key : Bytes) (v : Value) (t : Table) : Option Table :=
  match path with
  | [] => some (insert key v t)
  | k :: path =>
    match t.lookup k with
    | none => (insertAt path key v []).map fun s => t ++ [(k, .table s)]
    | some (.table s) => (insertAt path key v s).map fun s => replace k (.table s) t
    | some _ => none

/-- Change the table at a path. Of several tables under one key the last is meant. -/
def modifyAt (path : Key) (f : Table -> Option Table) (t : Table) : Option Table :=
  match path with
  | [] => f t
  | k :: path =>
    match t.lookup k with
    | some (.table s) => (modifyAt path f s).map fun s => replace k (.table s) t
    | some (.tables ts) =>
      match ts.getLast? with
      | some s => (modifyAt path f s).map fun s => replace k (.tables (ts.dropLast ++ [s])) t
      | none => none
    | _ => none

def at? (path : Key) (t : Table) : Option Table :=
  match path with
  | [] => some t
  | k :: path =>
    match t.lookup k with
    | some (.table s) => at? path s
    | some (.tables ts) =>
      match ts.getLast? with
      | some s => at? path s
      | none => none
    | _ => none

/-- Make sure that there are tables along a path; the paths of those made are returned. -/
def openPath (done path : Key) (t : Table) : Option (Table × List Key) :=
  match path with
  | [] => some (t, [])
  | k :: path =>
    let here := done ++ [k]
    match t.lookup k with
    | none => (openPath here path []).map fun r => (t ++ [(k, .table r.1)], here :: r.2)
    | some (.table s) => (openPath here path s).map fun r => (replace k (.table r.1) t, r.2)
    | some (.tables ts) =>
      match ts.getLast? with
      | some s =>
        (openPath here path s).map fun r => (replace k (.tables (ts.dropLast ++ [r.1])) t, r.2)
      | none => none
    | some _ => none

end Table

/-- A document being built: its tables, the implicit paths, the paths that hold arrays, the keys named
so far (latest first), and the path of the table that keys are added to. -/
structure Draft where
  root : Table
  implicits : List Key
  arrays : List Key
  keys : List Key
  context : Key

abbrev Build := StateT Draft Option

namespace Draft

def addImplicit (path : Key) : Build Unit := modify fun d => { d with implicits := path :: d.implicits }

def removeImplicit (path : Key) : Build Unit :=
  modify fun d => { d with implicits := d.implicits.filter (· ≠ path) }

/-- Note whether a key of the current table holds an array. The empty key stands for the table. -/
def setIsArray (key : Bytes) (isArray : Bool) : Build Unit :=
  modify fun d =>
    let path := if key = [] && d.context ≠ [] then d.context else d.context ++ [key]
    let others := d.arrays.filter (· ≠ path)
    { d with arrays := if isArray then path :: others else others }

def nameKey (path : Key) : Build Unit := modify fun d => { d with keys := path :: d.keys }

def enter (path : Key) : Build Unit := modify fun d => { d with context := path }

def change (path : Key) (f : Table -> Option Table) : Build Unit := do
  let d <- get
  match d.root.modifyAt path f with
  | some root => set { d with root := root }
  | none => failure

def defines (key : Bytes) : Build Bool := do
  let d <- get
  return ((d.root.at? d.context).bind fun t => t.lookup key).isSome

/-- Define a key of the current table. A key that exists must be implicit; it takes the new value if it
holds an array, and else stays as it is. -/
def define (key : Bytes) (v : Value) : Build Unit := do
  let d <- get
  let path := d.context ++ [key]
  if <- defines key then
    if d.implicits.contains path then do
      removeImplicit path
      if d.arrays.contains path then change d.context fun t => some (t.replace key v)
    else failure
  else change d.context fun t => some (t ++ [(key, v)])

def openParents (path : Key) : Build Unit := do
  let d <- get
  match d.root.openPath [] path.dropLast with
  | none => failure
  | some (root, made) =>
    set { d with root := root, implicits := made ++ d.implicits, context := path.dropLast }

def openTable (path : Key) : Build Unit := do
  openParents path
  define (path.getLast?.getD []) (.table [])
  enter path

def openArrayTable (path : Key) : Build Unit := do
  openParents path
  let d <- get
  let key := path.getLast?.getD []
  change d.context fun t =>
    match t.lookup key with
    | none => some (t ++ [(key, .tables [[]])])
    | some (.tables ts) => some (t.replace key (.tables (ts ++ [[]])))
    | some _ => none
  enter path

def openDotted : Key -> Build Unit
  | [] => return ()
  | part :: rest => do
    let d <- get
    let path := d.context ++ [part]
    addImplicit path
    openTable path
    openDotted rest

/-- Carry out an assignment from the current table, given how to find its value; the value is
returned, and the current table is the one that the key's last part belongs to. -/
def assign (k : Key) (isArray : Bool) (evaluate : Bytes -> Build Value) : Build Value := do
  let key := k.getLast?.getD []
  openDotted k.dropLast
  nameKey ((<- get).context ++ [key])
  let v <- evaluate key
  define key v
  setIsArray key isArray
  return v

def isArrayExpr : Expr -> Bool
  | .array _ => true
  | _ => false

mutual

/-- The value of an expression given to a key of the current table. An inline table is filled in
place; inside an array it is added to the tables of the key. -/
def evaluate (inArray : Bool) (e : Expr) (key : Bytes) : Build Value :=
  match e with
  | .integer n => return .integer n
  | .float => return .float
  | .boolean b => return .boolean b
  | .date => return .date
  | .string s => return .string s
  | .array items => do
    setIsArray key true
    evaluateItems key items
    return .array
  | .inline pairs => do
    let outer := (<- get).context
    let path := outer ++ [key]
    addImplicit path
    if inArray then openArrayTable path else openTable path
    let own <- evaluatePairs path [] pairs
    enter outer
    return .table own

def evaluateItems (key : Bytes) : List Expr -> Build Unit
  | [] => return ()
  | e :: rest => do
    let _ <- evaluate true e key
    evaluateItems key rest

/-- The pairs of an inline table at a path; `own` is the table that the pairs before make by
themselves, in which no key runs through a value that is no table. -/
def evaluatePairs (path : Key) (own : Table) : List (Key × Expr) -> Build Table
  | [] => return own
  | (k, e) :: rest => do
    let v <- assign k (isArrayExpr e) (evaluate false e)
    enter path
    match own.insertAt k.dropLast (k.getLast?.getD []) v with
    | some own => evaluatePairs path own rest
    | none => failure

end

def statement : Statement -> Build Unit
  | .table key => do
    openTable key
    setIsArray [] false
    nameKey key
  | .arrayTable key => do
    openArrayTable key
    setIsArray [] false
    nameKey key
  | .assign k e => do
    let outer := (<- get).context
    let _ <- assign k (isArrayExpr e) (evaluate false e)
    enter outer

end Draft

structure Document where
  root : Table
  keys : List Key

def document? (b : Bytes) : Option Document := do
  let statements <- parse b
  let start := { root := [], implicits := [], arrays := [], keys := [], context := [] }
  let (_, d) <- (statements.forM Draft.statement).run start
  return { root := d.root, keys := d.keys.reverse }

def quotedByte (c : UInt8) : Bytes :=
  if c = 34 || c = 92 then [92, c]
  else if c = 8 then utf8 "\\b"
  else if c = 9 then utf8 "\\t"
  else if c = 10 then utf8 "\\n"
  else if c = 12 then utf8 "\\f"
  else if c = 13 then utf8 "\\r"
  else if c < 32 || c = 127 then utf8 "\\u" ++ Bytes.lowerHex 4 c.toNat
  else [c]

def partText (part : Bytes) : Bytes :=
  if part ≠ [] && part.all isBare then part else 34 :: part.flatMap quotedByte ++ [34]

def keyText (key : Key) : Bytes := Bytes.join (utf8 ".") (key.map partText)

/-- The scalar values of a text in one letter case, as far as they fold to ASCII letters. -/
def foldPiece : Utf8.Piece -> Utf8.Piece
  | .scalar n =>
    if 65 <= n && n <= 90 then .scalar (n + 32)
    else if n = 0x17F then .scalar 115
    else if n = 0x212A then .scalar 107
    else .scalar n
  | p => p

def matchesName (name part : Bytes) : Bool :=
  (Utf8.pieces name).map foldPiece = (Utf8.pieces part).map foldPiece

end Jvm.Toml
