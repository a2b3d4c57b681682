import Jvm.Text.Utf8

/-!
Slash-separated paths as texts: cleaning, joining and extensions, all without looking at files.
-/

set_option autoImplicit false

namespace Jvm.Path

def parts : Bytes -> List Bytes
  | [] => [[]]
  | 47 :: rest => [] :: parts rest
  | c :: rest =>
    match parts rest with
    | [] => [[c]]
    | p :: ps => (c :: p) :: ps

def isRooted : Bytes -> Bool
  | 47 :: _ => true
  | _ => false

def isUp (part : Bytes) : Bool := part = utf8 ".."

def isHere (part : Bytes) : Bool := part = [] || part = utf8 "."

/-- The parts of a cleaned path, last first: parts that stay are dropped, and a part that goes up
cancels the one before it. At the root there is nothing to go up to. -/
def cleanParts (rooted : Bool) (done : List Bytes) : List Bytes -> List Bytes
  | [] => done
  | part :: rest =>
    if isHere part then cleanParts rooted done rest
    else if isUp part then
      match done with
      | [] => cleanParts rooted (if rooted then [] else [part]) rest
      | last :: before =>
        cleanParts rooted (if isUp last then part :: done else before) rest
    else cleanParts rooted (part :: done) rest

/-- The shortest path that names the same place, as far as the text tells. -/
def clean (path : Bytes) : Bytes :=
  let rooted := isRooted path
  let body := Bytes.join (utf8 "/") (cleanParts rooted [] (parts path)).reverse
  if rooted then 47 :: body else if body = [] then utf8 "." else body

def join (dir path : Bytes) : Bytes := clean (if dir = [] then path else dir ++ utf8 "/" ++ path)

def extension (path : Bytes) : Bytes :=
  let last := (parts path).getLast?.getD []
  if last.contains 46 then 46 :: (last.reverse.takeWhile (· ≠ 46)).reverse else []

/-- A scalar value in lower case, as far as that is an ASCII letter. -/
def lowerPiece : Utf8.Piece -> Utf8.Piece
  | .scalar n =>
    if 65 <= n && n <= 90 then .scalar (n + 32)
    else if n = 0x130 then .scalar 105
    else .scalar n
  | p => p

def hasExtension (extensions : List String) (path : Bytes) : Bool :=
  extensions.any fun e =>
    (Utf8.pieces (extension path)).map lowerPiece = Utf8.pieces (utf8 e)

example : clean (utf8 "p//../A") = utf8 "A" := by decide
example : join (utf8 "cp/") (utf8 "/A.class") = utf8 "cp/A.class" := by decide
example : extension (utf8 "lib/app.tar.gz") = utf8 ".gz" := by decide

end Jvm.Path
