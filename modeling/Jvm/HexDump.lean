import Jvm.Bytes

/-!
Hex dumps: rows of eight bytes with their offset, their digits and, for a full row, their characters.
-/

set_option autoImplicit false

namespace Jvm.HexDump

def rowSize : Nat := 8

def shown (b : UInt8) : UInt8 := if 0x20 <= b && b <= 0x7F then b else 46

/-- The row at an offset. Only a full row has a character column. -/
def row (offset : Nat) (bytes : Bytes) : Bytes :=
  Bytes.hex 4 offset ++ utf8 "\t" ++ bytes.flatMap (fun b => Bytes.hex 2 b.toNat ++ utf8 " ")
    ++ (if bytes.length < rowSize then [] else utf8 "\t" ++ bytes.map shown)

/-- The rows from an offset on, put behind those in `done`, which lists the latest first. -/
def rowsFrom (offset : Nat) (done : List Bytes) (b : Bytes) : List Bytes :=
  if _h : b = [] then done.reverse
  else
    rowsFrom (offset + rowSize) (row offset (b.take rowSize) :: done) (b.drop rowSize)
termination_by b.length
decreasing_by
  have := List.length_pos_iff.2 _h
  simp only [List.length_drop, rowSize]
  omega

def lines (b : Bytes) : List Bytes := rowsFrom 0 [] b

end Jvm.HexDump
