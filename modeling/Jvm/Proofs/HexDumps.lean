import Jvm.HexDump
import Jvm.Proofs.Numerals
import Mathlib.Data.List.Forall2
import Mathlib.Tactic.Common

/-!
Hex dumps are complete and can be read back. The loop over the rows gives a line for every eight bytes
begun, each with the offset, the digits and, if the row is full, the characters of its bytes. The digits
alone determine the bytes of a row: no tab stands among them, so they end where a tab comes or the line
ends, whatever characters follow.
-/

set_option autoImplicit false
set_option relaxedAutoImplicit false

namespace Jvm.HexDump

/-! ## Rows -/

def rowBytes (b : Bytes) (k : Nat) : Bytes := (b.drop (8 * k)).take 8

theorem length_rowBytes (b : Bytes) (k : Nat) : (rowBytes b k).length = min 8 (b.length - 8 * k) := by
  simp [rowBytes]

theorem rowBytes_drop (b : Bytes) (k : Nat) : rowBytes (b.drop rowSize) k = rowBytes b (k + 1) := by
  rw [rowBytes, rowBytes, List.drop_drop, Nat.mul_succ, Nat.add_comm]
  rfl

theorem flatMap_rowBytes (b : Bytes) (count : Nat) :
    (List.range count).flatMap (rowBytes b) = b.take (8 * count) := by
  induction count with
  | zero => simp
  | succ count ih =>
    rw [List.range_succ, List.flatMap_append, ih, Nat.mul_succ, List.take_add]
    simp [rowBytes]

/-- The loop puts a line for every row behind the lines that it has. -/
theorem rowsFrom_eq (offset : Nat) (done : List Bytes) (b : Bytes) :
    rowsFrom offset done b = done.reverse ++
      (List.range ((b.length + 7) / 8)).map fun k => row (offset + 8 * k) (rowBytes b k) := by
  fun_induction rowsFrom offset done b with
  | case1 offset done => simp
  | case2 offset done b nonempty ih =>
    have positive := List.length_pos_iff.mpr nonempty
    have count : (b.length + 7) / 8 = ((b.drop rowSize).length + 7) / 8 + 1 := by
      rw [List.length_drop, rowSize]
      omega
    have next (k : Nat) : offset + rowSize + 8 * k = offset + 8 * (k + 1) := by
      rw [rowSize]
      omega
    rw [ih, count, List.range_succ_eq_map, List.map_cons, List.map_map, List.reverse_cons,
      List.append_assoc]
    simp only [rowBytes_drop, next]
    rfl

theorem lines_eq (b : Bytes) :
    lines b = (List.range ((b.length + 7) / 8)).map fun k => row (8 * k) (rowBytes b k) := by
  rw [lines, rowsFrom_eq]
  simp

/-! ## Columns -/

def cell (x : UInt8) : Bytes := Bytes.hex 2 x.toNat ++ utf8 " "

theorem length_cell (x : UInt8) : (cell x).length = 3 := by
  rw [cell, List.length_append, Bytes.length_hex_byte]
  rfl

theorem length_cells (bytes : Bytes) : (bytes.flatMap cell).length = 3 * bytes.length := by
  simp [length_cell, Nat.mul_comm]

theorem cell_injective {x y : UInt8} (same : cell x = cell y) : x = y :=
  UInt8.toNat_inj.mp (Bytes.hex_injective (List.append_cancel_right same))

theorem tab_notMem_cells (bytes : Bytes) : (9 : UInt8) ∉ bytes.flatMap cell := by
  intro member
  obtain ⟨x, _, inCell⟩ := List.mem_flatMap.mp member
  rcases List.mem_append.mp inCell with digit | space
  · exact absurd (Bytes.mem_hex digit) (by decide)
  · exact absurd space (by decide)

theorem cells_injective {bytes bytes' : Bytes} (same : bytes.flatMap cell = bytes'.flatMap cell) :
    bytes = bytes' := by
  have counts : bytes.length = bytes'.length := by
    have counted := congrArg List.length same
    rw [length_cells, length_cells] at counted
    omega
  induction bytes generalizing bytes' with
  | nil => exact (List.eq_nil_of_length_eq_zero counts.symm).symm
  | cons x bytes ih =>
    cases bytes' with
    | nil => cases counts
    | cons y bytes' =>
      rw [List.flatMap_cons, List.flatMap_cons] at same
      obtain ⟨first, others⟩ := List.append_inj same (by rw [length_cell, length_cell])
      rw [cell_injective first, ih others (Nat.succ.inj counts)]

def column (bytes : Bytes) : Bytes :=
  if bytes.length < rowSize then [] else utf8 "\t" ++ bytes.map shown

theorem row_eq (offset : Nat) (bytes : Bytes) :
    row offset bytes = Bytes.hex 4 offset ++ utf8 "\t" ++ bytes.flatMap cell ++ column bytes := rfl

theorem column_starts (bytes : Bytes) : column bytes = [] ∨ (column bytes).head? = some 9 := by
  unfold column
  split_ifs
  · exact .inl rfl
  · exact .inr rfl

theorem row_injective {offset : Nat} {bytes bytes' : Bytes}
    (same : row offset bytes = row offset bytes') : bytes = bytes' := by
  rw [row_eq, row_eq, List.append_assoc (Bytes.hex 4 offset ++ utf8 "\t"),
    List.append_assoc (Bytes.hex 4 offset ++ utf8 "\t")] at same
  have columns := List.append_cancel_left same
  obtain ⟨cells, _⟩ := Bytes.word_unique (tab_notMem_cells bytes) (tab_notMem_cells bytes')
    (column_starts bytes) (column_starts bytes') columns
  exact cells_injective cells

theorem lines_injective {a b : Bytes} (same : lines a = lines b) : a = b := by
  rw [lines_eq, lines_eq] at same
  have counts : (a.length + 7) / 8 = (b.length + 7) / 8 := by simpa using congrArg List.length same
  rw [counts] at same
  have rows : ∀ k ∈ List.range ((b.length + 7) / 8), rowBytes a k = rowBytes b k := by
    intro k member
    exact row_injective (List.map_inj_left.mp same k member)
  calc
    a = a.take (8 * ((b.length + 7) / 8)) := (List.take_of_length_le (by omega)).symm
    _ = (List.range ((b.length + 7) / 8)).flatMap (rowBytes a) := (flatMap_rowBytes a _).symm
    _ = (List.range ((b.length + 7) / 8)).flatMap (rowBytes b) := List.flatMap_congr rows
    _ = b.take (8 * ((b.length + 7) / 8)) := flatMap_rowBytes b _
    _ = b := List.take_of_length_le (by omega)

/-! ## Lines -/

/-- The columns of the line for row `k`: the offset in upper-case hexadecimal, at least four digits; for
each byte of the row two digits and a space; and for a full row a tab and eight characters, which are
the bytes themselves or dots. -/
structure IsLine (b : Bytes) (k : Nat) (offset : Bytes) (cells : List Bytes) (column : Bytes) :
    Prop where
  offset : Bytes.IsHex 4 (8 * k) offset
  cells : List.Forall₂ (fun x cell => ∃ digits, Bytes.IsHex 2 x.toNat digits ∧ digits.length = 2 ∧
    cell = digits ++ utf8 " ") (rowBytes b k) cells
  full : 8 * k + 8 ≤ b.length → ∃ characters, column = utf8 "\t" ++ characters ∧
    characters.length = 8 ∧ List.Forall₂
      (fun x c => c = if 0x20 ≤ x ∧ x ≤ 0x7F then x else 46) (rowBytes b k) characters
  short : b.length < 8 * k + 8 → column = []

theorem isLine (b : Bytes) (k : Nat) :
    IsLine b k (Bytes.hex 4 (8 * k)) ((rowBytes b k).map cell) (column (rowBytes b k)) where
  offset := Bytes.isHex_hex (by decide) _
  cells := by
    refine List.forall₂_map_right_iff.mpr (List.forall₂_same.mpr fun x _ => ?_)
    exact ⟨_, Bytes.isHex_hex (by decide) _, Bytes.length_hex_byte x, rfl⟩
  full whole := by
    have counted : (rowBytes b k).length = 8 := by
      rw [length_rowBytes]
      omega
    refine ⟨(rowBytes b k).map shown, if_neg (by rw [counted]; decide), by simpa using counted, ?_⟩
    refine List.forall₂_map_right_iff.mpr (List.forall₂_same.mpr fun x _ => ?_)
    simp [shown]
  short cut := by
    refine if_pos ?_
    rw [length_rowBytes, rowSize]
    omega

/-- A dump has a line for every eight bytes begun, line `k` shows the bytes of row `k`, and no two
buffers have the same dump. -/
theorem lines_complete_and_reversible (b : Bytes) :
    (lines b).length = (b.length + 7) / 8 ∧
    (∀ k < (b.length + 7) / 8, ∃ offset cells column,
      (lines b)[k]? = some (offset ++ utf8 "\t" ++ cells.flatten ++ column) ∧
      IsLine b k offset cells column) ∧
    ∀ a, lines a = lines b → a = b := by
  refine ⟨?_, ?_, fun a => lines_injective⟩
  · rw [lines_eq, List.length_map, List.length_range]
  · intro k inside
    refine ⟨_, _, _, ?_, isLine b k⟩
    rw [lines_eq, List.getElem?_map, List.getElem?_range inside, Option.map_some, row_eq,
      List.flatMap_def]

end Jvm.HexDump
