import Jvm.Cbor.Decoder
import Jvm.Proofs.Words
import Mathlib.Data.List.Forall2
import Mathlib.Tactic.Common

/-!
Items and their canonical bytes. What is written canonically is read back as the item that was meant,
whatever follows it; and whatever is read, canonical or not, is no larger than the input it was read
from and within the limits of the decoder.
-/

set_option autoImplicit false
set_option relaxedAutoImplicit false

namespace Jvm.Cbor

variable {α : Type}

/-! ## Reading what was written -/

/-- The bytes spell the value: the parser reads the value from them and stops right behind them. -/
def Spells (p : Parser α) (w : Bytes) (a : α) : Prop := ∀ rest, p (w ++ rest) = some (a, rest)

theorem spells_takeBytes (w : Bytes) : Spells (takeBytes w.length) w w := by
  intro rest
  simp [takeBytes]

theorem spells_wideHead (major : Major) (info width : Nat) {n : Nat} (fits : n < 256 ^ width) :
    Spells (wideHead major info width) (Bytes.ofNat width n) ⟨major, info, some n⟩ := by
  intro rest
  have taken := spells_takeBytes (Bytes.ofNat width n) rest
  rw [Bytes.length_ofNat] at taken
  rw [wideHead, taken]
  simp [Bytes.bigEndian_ofNat, Nat.mod_eq_of_lt fits]

theorem initial_byte (major : Major) {k : Nat} (small : k < 32) :
    Major.ofByte (major.number * 32 + k).toUInt8 = major ∧
      (major.number * 32 + k).toUInt8.toNat % 32 = k := by
  cases major <;> revert k <;> decide

theorem readHead_head (major : Major) {n : Nat} (plain : major ≠ .other) (fits : n < 2 ^ 64)
    (rest : Bytes) : ∃ info, readHead (head major n ++ rest) = some (⟨major, info, some n⟩, rest) := by
  have initial {k : Nat} (small : k < 32) := initial_byte major small
  unfold head
  dsimp only
  split_ifs with one two three four
  · obtain ⟨same, low⟩ := initial (k := n) (by omega)
    generalize (major.number * 32 + n).toUInt8 = b at same low
    exact ⟨n, by simp [readHead, same, low, one]⟩
  · obtain ⟨same, low⟩ := initial (k := 24) (by omega)
    generalize (major.number * 32 + 24).toUInt8 = b at same low
    have byte : n.toUInt8.toNat = n := by simpa using Nat.mod_eq_of_lt two
    exact ⟨24, by simpa [readHead, same, low, Bytes.ofNat, plain] using byte⟩
  · obtain ⟨same, low⟩ := initial (k := 25) (by omega)
    generalize (major.number * 32 + 25).toUInt8 = b at same low
    exact ⟨25, by simpa [readHead, same, low] using spells_wideHead major 25 2 (by omega) rest⟩
  · obtain ⟨same, low⟩ := initial (k := 26) (by omega)
    generalize (major.number * 32 + 26).toUInt8 = b at same low
    exact ⟨26, by simpa [readHead, same, low] using spells_wideHead major 26 4 (by omega) rest⟩
  · obtain ⟨same, low⟩ := initial (k := 27) (by omega)
    generalize (major.number * 32 + 27).toUInt8 = b at same low
    exact ⟨27, by simpa [readHead, same, low] using spells_wideHead major 27 8 (by omega) rest⟩

theorem startsWithTag_head {major : Major} (plain : major ≠ .tag) (n : Nat) (rest : Bytes) :
    startsWithTag (head major n ++ rest) = false := by
  have first {k : Nat} (small : k < 32) (more : Bytes) :
      startsWithTag ((major.number * 32 + k).toUInt8 :: more) = false := by
    rw [startsWithTag, (initial_byte major small).1]
    simpa using plain
  unfold head
  dsimp only
  split_ifs with one
  · exact first (by omega) _
  all_goals exact first (by decide) _

theorem anyItem_head (inner : Option (Parser Item)) {major : Major} (plain : major ≠ .tag) (n : Nat)
    (rest : Bytes) : anyItem inner (head major n ++ rest) = untagged inner (head major n ++ rest) := by
  rw [anyItem, startsWithTag_head plain, if_neg Bool.false_ne_true]

theorem spells_item {w : Bytes} {i : Item} (leaf : ∀ inner, Spells (anyItem inner) w i)
    (levels : Nat) : Spells (item levels) w i := by
  cases levels with
  | zero => exact leaf none
  | succ levels => exact leaf (some (item levels))

theorem spells_number {n : Nat} (fits : n < 2 ^ 64) (levels : Nat) :
    Spells (item levels) (number n) (.unsigned n) := by
  refine spells_item (fun inner rest => ?_) levels
  obtain ⟨info, first⟩ := readHead_head .unsigned (by decide) fits rest
  rw [number, anyItem_head inner (by decide), untagged, first]
  rfl

theorem spells_null (levels : Nat) : Spells (item levels) null (.simple 22) :=
  spells_item (fun _ _ => rfl) levels

theorem spells_chunks (major : Major) (b : Bytes) : Spells (chunks major (some b.length)) b [b] := by
  intro rest
  simp [chunks, spells_takeBytes b rest]

theorem spells_byteString {b : Bytes} (fits : b.length < 2 ^ 64) (levels : Nat) :
    Spells (item levels) (byteString b) (.bytes b) := by
  refine spells_item (fun inner rest => ?_) levels
  obtain ⟨info, first⟩ := readHead_head .bytes (by decide) fits (b ++ rest)
  rw [byteString, List.append_assoc, anyItem_head inner (by decide), untagged, first]
  simp [spells_chunks .bytes b rest]

theorem spells_textString {b : Bytes} (fits : b.length < 2 ^ 64) (levels : Nat) :
    Spells (item levels) (textString b) (.text [b]) := by
  refine spells_item (fun inner rest => ?_) levels
  obtain ⟨info, first⟩ := readHead_head .text (by decide) fits (b ++ rest)
  rw [textString, List.append_assoc, anyItem_head inner (by decide), untagged, first]
  simp [spells_chunks .text b rest]

theorem spells_times {p : Parser α} {ws : List Bytes} {as : List α}
    (each : List.Forall₂ (Spells p) ws as) : Spells (times p ws.length) ws.flatten as := by
  intro rest
  induction each with
  | nil => rfl
  | cons first _ ih =>
    rw [List.length_cons, List.flatten_cons, List.append_assoc, times, first]
    dsimp only
    rw [ih]

theorem spells_elements {p : Parser α} {ws : List Bytes} {as : List α}
    (each : List.Forall₂ (Spells p) ws as) (few : ws.length ≤ maxElements) :
    Spells (elements p (some ws.length)) ws.flatten as := by
  intro rest
  rw [elements, if_pos few]
  exact spells_times each rest

theorem spells_array {levels : Nat} {ws : List Bytes} {items : List Item}
    (each : List.Forall₂ (Spells (item levels)) ws items) (few : ws.length ≤ maxElements) :
    Spells (item (levels + 1)) (array ws) (.array items) := by
  intro rest
  have fits : ws.length < 2 ^ 64 := Nat.lt_of_le_of_lt few (by decide)
  obtain ⟨info, first⟩ := readHead_head .array (by decide) fits (ws.flatten ++ rest)
  rw [item, array, List.append_assoc, anyItem_head _ (by decide), untagged, first]
  simp [spells_elements each few rest]

theorem spells_pair {p : Parser Item} {w w' : Bytes} {key value : Item} (first : Spells p w key)
    (second : Spells p w' value) : Spells (pair p) (w ++ w') (key, value) := by
  intro rest
  rw [pair, List.append_assoc, first]
  simp [second rest]

structure SpellsField (levels : Nat) (written : String × Bytes) (field : String × Item) : Prop where
  key : field.1 = written.1
  short : (utf8 written.1).length < 2 ^ 64
  value : Spells (item levels) written.2 field.2

theorem SpellsField.of {levels : Nat} {w : Bytes} {i : Item} (key : String)
    (short : (utf8 key).length < 2 ^ 64) (value : Spells (item levels) w i) :
    SpellsField levels (key, w) (key, i) := ⟨rfl, short, value⟩

def keyed (fields : List (String × Item)) : List (Item × Item) :=
  fields.map fun field => (.text [utf8 field.1], field.2)

theorem spells_map {levels : Nat} {pairs : List (String × Bytes)} {fields : List (String × Item)}
    (each : List.Forall₂ (SpellsField levels) pairs fields) (few : pairs.length ≤ maxElements) :
    Spells (item (levels + 1)) (map pairs) (.map (keyed fields)) := by
  intro rest
  have fits : pairs.length < 2 ^ 64 := Nat.lt_of_le_of_lt few (by decide)
  have spelled : List.Forall₂ (Spells (pair (item levels)))
      (pairs.map fun p => textString (utf8 p.1) ++ p.2) (keyed fields) := by
    refine List.forall₂_map_left_iff.mpr (List.forall₂_map_right_iff.mpr (each.imp ?_))
    intro written field spells
    rw [spells.key]
    exact spells_pair (spells_textString spells.short levels) spells.value
  have read := spells_elements spelled (by simpa using few) rest
  obtain ⟨info, first⟩ := readHead_head .map (by decide) fits
    ((pairs.flatMap fun p => textString (utf8 p.1) ++ p.2) ++ rest)
  rw [List.length_map, ← List.flatMap_def] at read
  rw [item, map, List.append_assoc, anyItem_head _ (by decide), untagged, first]
  simp [read]

/-! ## The size of what is read -/

/-- An item in which no string has more than `limit` bytes and no array too many elements. -/
inductive Item.Bounded (limit : Nat) : Item -> Prop
  | unsigned (n : Nat) : Bounded limit (.unsigned n)
  | negative (n : Nat) : Bounded limit (.negative n)
  | bytes (b : Bytes) (short : b.length ≤ limit) : Bounded limit (.bytes b)
  | text (chunks : List Bytes) (short : chunks.flatten.length ≤ limit) : Bounded limit (.text chunks)
  | array (items : List Item) (few : items.length ≤ maxElements)
    (each : ∀ i ∈ items, Bounded limit i) : Bounded limit (.array items)
  | map (pairs : List (Item × Item)) (each : ∀ p ∈ pairs, Bounded limit p.2) : Bounded limit (.map pairs)
  | tagged (tag : Nat) (content : Item) (bounded : Bounded limit content) :
    Bounded limit (.tagged tag content)
  | simple (n : Nat) : Bounded limit (.simple n)
  | float : Bounded limit .float

/-- What is read takes `size` bytes of the input, and from an input of at most `limit` bytes it is as
the property says. -/
def Sized (limit : Nat) (p : Parser α) (size : α -> Nat) (P : α -> Prop) : Prop :=
  ∀ b a rest, p b = some (a, rest) → size a + rest.length ≤ b.length ∧ (b.length ≤ limit → P a)

variable {limit : Nat} {p : Parser α} {size : α -> Nat} {P : α -> Prop}

theorem takeBytes_length {n : Nat} {b w rest : Bytes} (read : takeBytes n b = some (w, rest)) :
    w.length + rest.length = b.length := by
  unfold takeBytes at read
  dsimp only at read
  split_ifs at read with enough
  cases read
  rw [← List.length_append, List.take_append_drop]

theorem wideHead_length {major : Major} {info n : Nat} {b rest : Bytes} {h : Head}
    (read : wideHead major info n b = some (h, rest)) : rest.length ≤ b.length := by
  unfold wideHead at read
  split at read
  · rename_i v rest' taken
    cases read
    have total := takeBytes_length taken
    omega
  · cases read

theorem readHead_length {b rest : Bytes} {h : Head} (read : readHead b = some (h, rest)) :
    rest.length ≤ b.length := by
  unfold readHead at read
  split at read
  · cases read
  · rename_i initial behind
    dsimp only at read
    rw [List.length_cons]
    split_ifs at read with one two three four five six
    · cases read
      omega
    · split at read
      · split_ifs at read
        cases read
        rw [List.length_cons]
        omega
      · cases read
    · exact (wideHead_length read).trans (Nat.le_succ _)
    · exact (wideHead_length read).trans (Nat.le_succ _)
    · exact (wideHead_length read).trans (Nat.le_succ _)
    · cases read
      omega

theorem Sized.cons (sized : Sized limit p size P) {b behind rest : Bytes} {a : α} {as : List α}
    (first : p b = some (a, behind))
    (others : (as.map size).sum + rest.length ≤ behind.length ∧
      (behind.length ≤ limit → ∀ a ∈ as, P a)) :
    ((a :: as).map size).sum + rest.length ≤ b.length ∧
      (b.length ≤ limit → ∀ x ∈ a :: as, P x) := by
  obtain ⟨taken, holds⟩ := sized _ _ _ first
  obtain ⟨taken', holds'⟩ := others
  rw [List.map_cons, List.sum_cons]
  refine ⟨by omega, fun short => ?_⟩
  exact List.forall_mem_cons.mpr ⟨holds short, holds' (by omega)⟩

theorem sized_times (sized : Sized limit p size P) (n : Nat) :
    Sized limit (times p n) (fun as => (as.map size).sum) fun as => ∀ a ∈ as, P a := by
  induction n with
  | zero =>
    intro b as rest read
    cases read
    simp
  | succ n ih =>
    intro b as rest read
    rw [times] at read
    split at read
    · cases read
    · rename_i a behind first
      split at read
      · cases read
      · rename_i as behind' others
        cases read
        exact sized.cons first (ih _ _ _ others)

theorem sized_untilBreak (sized : Sized limit p size P) (fuel : Nat) :
    Sized limit (untilBreak p fuel) (fun as => (as.map size).sum) fun as => ∀ a ∈ as, P a := by
  induction fuel with
  | zero =>
    intro b as rest read
    cases b <;> cases read
  | succ fuel ih =>
    intro b as rest read
    cases b with
    | nil => cases read
    | cons c b =>
      rw [untilBreak] at read
      split_ifs at read with stop
      · cases read
        simp
      · split at read
        · cases read
        · rename_i a behind first
          split at read
          · cases read
          · rename_i as behind' others
            cases read
            exact sized.cons first (ih _ _ _ others)

theorem sized_chunk (limit : Nat) (major : Major) :
    Sized limit (chunk major) List.length fun _ => True := by
  intro b w rest read
  unfold chunk at read
  split at read
  · rename_i m info n behind first
    split_ifs at read
    have passed := readHead_length first
    have taken := takeBytes_length read
    exact ⟨by omega, fun _ => trivial⟩
  · cases read

theorem chunks_length {major : Major} {argument : Option Nat} {b rest : Bytes} {ws : List Bytes}
    (read : chunks major argument b = some (ws, rest)) :
    ws.flatten.length + rest.length ≤ b.length := by
  unfold chunks at read
  split at read
  · rename_i n
    obtain ⟨⟨w, rest'⟩, taken, same⟩ := Option.map_eq_some_iff.mp read
    cases same
    have total := takeBytes_length taken
    rw [List.flatten_singleton]
    exact Nat.le_of_eq total
  · rw [List.length_flatten]
    exact (sized_untilBreak (sized_chunk 0 major) b.length b ws rest read).1

theorem times_length {n : Nat} {b rest : Bytes} {as : List α} (read : times p n b = some (as, rest)) :
    as.length = n := by
  induction n generalizing b as rest with
  | zero =>
    cases read
    rfl
  | succ n ih =>
    rw [times] at read
    split at read
    · cases read
    · split at read
      · cases read
      · rename_i others
        cases read
        rw [List.length_cons, ih others]

theorem sized_elements (sized : Sized limit p (fun _ => 0) P) (argument : Option Nat) :
    Sized limit (elements p argument) (fun _ => 0) fun as =>
      as.length ≤ maxElements ∧ ∀ a ∈ as, P a := by
  intro b as rest read
  unfold elements at read
  split at read
  · rename_i n
    split_ifs at read with few
    obtain ⟨taken, holds⟩ := sized_times sized n b as rest read
    dsimp only at taken ⊢
    exact ⟨by omega, fun short => ⟨(times_length read).trans_le few, holds short⟩⟩
  · split at read
    · rename_i as' rest' others
      split_ifs at read with few
      cases read
      obtain ⟨taken, holds⟩ := sized_untilBreak sized b.length b as rest others
      dsimp only at taken ⊢
      exact ⟨by omega, fun short => ⟨few, holds short⟩⟩
    · cases read

abbrev ReadsBounded (limit : Nat) (p : Parser Item) : Prop :=
  Sized limit p (fun _ => 0) (Item.Bounded limit)

theorem sized_pair {p : Parser Item} (sized : ReadsBounded limit p) :
    Sized limit (pair p) (fun _ => 0) fun both => both.2.Bounded limit := by
  intro b both rest read
  unfold pair at read
  split at read
  · cases read
  · rename_i key behind first
    obtain ⟨⟨value, rest'⟩, second, same⟩ := Option.map_eq_some_iff.mp read
    cases same
    obtain ⟨taken, _⟩ := sized _ _ _ first
    obtain ⟨taken', holds⟩ := sized _ _ _ second
    dsimp only at taken taken' ⊢
    exact ⟨by omega, fun short => holds (by omega)⟩

theorem sized_untagged {inner : Option (Parser Item)}
    (sized : ∀ p ∈ inner, ReadsBounded limit p) : ReadsBounded limit (untagged inner) := by
  intro b i rest read
  unfold untagged at read
  dsimp only
  rw [Nat.zero_add]
  split at read
  · cases read
  · rename_i info argument behind first
    cases read
    exact ⟨readHead_length first, fun _ => .unsigned _⟩
  · rename_i info argument behind first
    cases read
    exact ⟨readHead_length first, fun _ => .negative _⟩
  · rename_i info argument behind first
    obtain ⟨⟨ws, rest'⟩, string, same⟩ := Option.map_eq_some_iff.mp read
    cases same
    have passed := readHead_length first
    have taken := chunks_length string
    dsimp only
    exact ⟨by omega, fun short => .bytes _ (by omega)⟩
  · rename_i info argument behind first
    obtain ⟨⟨ws, rest'⟩, string, same⟩ := Option.map_eq_some_iff.mp read
    cases same
    have passed := readHead_length first
    have taken := chunks_length string
    dsimp only
    exact ⟨by omega, fun short => .text _ (by omega)⟩
  · rename_i info argument behind first
    split at read
    · rename_i p
      obtain ⟨⟨items, rest'⟩, nested, same⟩ := Option.map_eq_some_iff.mp read
      cases same
      have passed := readHead_length first
      obtain ⟨taken, holds⟩ := sized_elements (sized p rfl) argument _ _ _ nested
      dsimp only at taken ⊢
      refine ⟨by omega, fun short => ?_⟩
      obtain ⟨few, each⟩ := holds (by omega)
      exact .array items few each
    · cases read
  · rename_i info argument behind first
    split at read
    · rename_i p
      obtain ⟨⟨pairs, rest'⟩, nested, same⟩ := Option.map_eq_some_iff.mp read
      cases same
      have passed := readHead_length first
      obtain ⟨taken, holds⟩ := sized_elements (sized_pair (sized p rfl)) argument _ _ _ nested
      dsimp only at taken ⊢
      refine ⟨by omega, fun short => ?_⟩
      exact .map pairs (holds (by omega)).2
    · cases read
  · cases read
  · rename_i info argument behind first
    split_ifs at read
    · cases read
      exact ⟨readHead_length first, fun _ => .float⟩
    · cases read
      exact ⟨readHead_length first, fun _ => .simple _⟩

theorem sized_anyItem {inner : Option (Parser Item)}
    (sized : ∀ p ∈ inner, ReadsBounded limit p) : ReadsBounded limit (anyItem inner) := by
  intro b i rest read
  unfold anyItem at read
  split_ifs at read with tagged
  · split at read
    · cases read
    · rename_i h behind first
      dsimp only at read
      obtain ⟨⟨content, rest'⟩, nested, same⟩ := Option.map_eq_some_iff.mp read
      cases same
      have passed := readHead_length first
      have inside : 0 + rest'.length ≤ behind.length ∧
          (behind.length ≤ limit → content.Bounded limit) := by
        split_ifs at nested
        · split at nested
          · exact sized _ rfl _ _ _ nested
          · cases nested
        · exact sized_untagged sized _ _ _ nested
      obtain ⟨taken, holds⟩ := inside
      dsimp only
      exact ⟨by omega, fun short => .tagged _ _ (holds (by omega))⟩
  · exact sized_untagged sized b i rest read

theorem sized_item (levels : Nat) : ReadsBounded limit (item levels) := by
  induction levels with
  | zero => exact sized_anyItem (by simp)
  | succ levels ih => exact sized_anyItem (by simpa using ih)

theorem decode_bounded {b : Bytes} {i : Item} (read : decode b = some i) : i.Bounded b.length := by
  unfold decode at read
  split at read
  · rename_i i' whole
    cases read
    exact (sized_item maxLevels b i [] whole).2 (Nat.le_refl _)
  · cases read

end Jvm.Cbor
