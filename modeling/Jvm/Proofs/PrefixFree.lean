import Jvm.Proofs.Flattening

/-!
Snapshots identify the classes they were written from. Canonical items are prefix-free: two of them begin
one text only if they are the same, whatever follows, and this carries over from heads to strings, lists
and maps, and so to snapshots. Nothing is decoded here, so that texts may be any bytes and lists longer
than the decoder takes.
-/

set_option autoImplicit false
set_option relaxedAutoImplicit false

namespace Jvm

namespace Cbor

variable {α : Type} {P Q : Prop} {w w' u u' : Bytes}

/-! ## Written forms at the start of one text -/

/-- The two forms begin one text only if the property holds, and then they end at the same place. -/
def Coincide (w w' : Bytes) (P : Prop) : Prop :=
  ∀ rest rest', w ++ rest = w' ++ rest' → P ∧ rest = rest'

namespace Coincide

theorem imp (both : Coincide w w' P) (implies : P → Q) : Coincide w w' Q := by
  intro rest rest' same
  obtain ⟨holds, rests⟩ := both rest rest' same
  exact ⟨implies holds, rests⟩

theorem self (w : Bytes) : Coincide w w True :=
  fun _ _ same => ⟨trivial, List.append_cancel_left same⟩

theorem of_length (lengths : w.length = w'.length) : Coincide w w' (w = w') :=
  fun _ _ same => List.append_inj same lengths

/-- Of two forms in a row, the second ones may be compared in the light of the first ones. -/
theorem append (first : Coincide w w' P) (second : P → Coincide u u' Q) :
    Coincide (w ++ u) (w' ++ u') (P ∧ Q) := by
  intro rest rest' same
  rw [List.append_assoc, List.append_assoc] at same
  obtain ⟨holds, behind⟩ := first _ _ same
  obtain ⟨holds', rests⟩ := second holds _ _ behind
  exact ⟨⟨holds, holds'⟩, rests⟩

theorem of_start (both : Coincide w w' P) (start : w <+: w') : P := by
  obtain ⟨rest, same⟩ := start
  exact (both rest [] (same.trans (List.append_nil w').symm)).1

end Coincide

/-! ## Heads -/

theorem coincide_head {major major' : Major} {n n' : Nat} (plain : major ≠ .other)
    (plain' : major' ≠ .other) (fits : n < 2 ^ 64) (fits' : n' < 2 ^ 64) :
    Coincide (head major n) (head major' n') (major = major' ∧ n = n') := by
  intro rest rest' same
  obtain ⟨info, read⟩ := readHead_head major plain fits rest
  obtain ⟨info', read'⟩ := readHead_head major' plain' fits' rest'
  rw [same, read'] at read
  cases read
  exact ⟨⟨rfl, rfl⟩, rfl⟩

def Opens (major : Major) (w : Bytes) : Prop := ∃ b rest, w = b :: rest ∧ Major.ofByte b = major

theorem opens_head (major : Major) (n : Nat) (rest : Bytes) : Opens major (head major n ++ rest) := by
  unfold head
  dsimp only
  split_ifs with one
  · exact ⟨_, _, rfl, (initial_byte major (by omega)).1⟩
  all_goals exact ⟨_, _, rfl, (initial_byte major (by decide)).1⟩

theorem opens_null : Opens .other null := ⟨_, _, rfl, rfl⟩

theorem Coincide.of_opens {major major' : Major} (opens : Opens major w) (opens' : Opens major' w')
    (different : major ≠ major') : Coincide w w' False := by
  obtain ⟨b, behind, rfl, isMajor⟩ := opens
  obtain ⟨b', behind', rfl, isMajor'⟩ := opens'
  intro rest rest' same
  obtain ⟨rfl, _⟩ := List.cons.inj same
  exact (different (isMajor.symm.trans isMajor')).elim

/-! ## Items -/

theorem coincide_number {n n' : Nat} (fits : n < 2 ^ 64) (fits' : n' < 2 ^ 64) :
    Coincide (number n) (number n') (n = n') :=
  (coincide_head (by decide) (by decide) fits fits').imp And.right

theorem coincide_counted {major : Major} (plain : major ≠ .other) {b b' : Bytes}
    (fits : b.length < 2 ^ 64) (fits' : b'.length < 2 ^ 64) :
    Coincide (head major b.length ++ b) (head major b'.length ++ b') (b = b') :=
  ((coincide_head plain plain fits fits').append fun counts => .of_length counts.2).imp And.right

theorem coincide_textString {b b' : Bytes} (fits : b.length < 2 ^ 64) (fits' : b'.length < 2 ^ 64) :
    Coincide (textString b) (textString b') (b = b') := coincide_counted (by decide) fits fits'

theorem coincide_byteString {b b' : Bytes} (fits : b.length < 2 ^ 64) (fits' : b'.length < 2 ^ 64) :
    Coincide (byteString b) (byteString b') (b = b') := coincide_counted (by decide) fits fits'

theorem coincide_elements {encode : α -> Bytes} {as as' : List α} (counts : as.length = as'.length)
    (each : ∀ a ∈ as, ∀ a' ∈ as', Coincide (encode a) (encode a') (a = a')) :
    Coincide (as.map encode).flatten (as'.map encode).flatten (as = as') := by
  induction as generalizing as' with
  | nil =>
    obtain rfl := List.eq_nil_of_length_eq_zero counts.symm
    exact (Coincide.self _).imp fun _ => rfl
  | cons a as ih =>
    cases as' with
    | nil => cases counts
    | cons a' as' =>
      have first := each a List.mem_cons_self a' List.mem_cons_self
      have others := ih (Nat.succ.inj counts) fun a member a' member' =>
        each a (List.mem_cons_of_mem _ member) a' (List.mem_cons_of_mem _ member')
      refine (first.append fun _ => others).imp ?_
      rintro ⟨rfl, rfl⟩
      rfl

theorem coincide_array {encode : α -> Bytes} {as as' : List α} (fits : as.length < 2 ^ 64)
    (fits' : as'.length < 2 ^ 64)
    (each : ∀ a ∈ as, ∀ a' ∈ as', Coincide (encode a) (encode a') (a = a')) :
    Coincide (array (as.map encode)) (array (as'.map encode)) (as = as') := by
  unfold array
  rw [List.length_map, List.length_map]
  have heads : Coincide (head .array as.length) (head .array as'.length) _ :=
    coincide_head (by decide) (by decide) fits fits'
  exact (heads.append fun counts => coincide_elements counts.2 each).imp And.right

/-- What may be absent, and is null then. No list and no string begins as null does. -/
theorem coincide_orNull {encode : α -> Bytes} {major : Major} (opens : ∀ a, Opens major (encode a))
    (plain : major ≠ .other) {o o' : Option α}
    (both : ∀ a ∈ o, ∀ a' ∈ o', Coincide (encode a) (encode a') (a = a')) :
    Coincide ((o.map encode).getD null) ((o'.map encode).getD null) (o = o') := by
  cases o with
  | none =>
    cases o' with
    | none => exact (Coincide.self _).imp fun _ => rfl
    | some a' => exact (Coincide.of_opens opens_null (opens a') plain.symm).imp False.elim
  | some a =>
    cases o' with
    | none => exact (Coincide.of_opens (opens a) opens_null plain).imp False.elim
    | some a' => exact (both a rfl a' rfl).imp (congrArg some)

/-- Fields with the same keys, and what it takes that their values coincide. -/
inductive SameKeys : List (String × Bytes) -> List (String × Bytes) -> Prop -> Prop
  | nil : SameKeys [] [] True
  | cons {pairs pairs' : List (String × Bytes)} {w w' : Bytes} {P Q : Prop} (key : String)
    (value : Coincide w w' P) (others : SameKeys pairs pairs' Q) :
    SameKeys ((key, w) :: pairs) ((key, w') :: pairs') (P ∧ Q)

theorem SameKeys.coincide {pairs pairs' : List (String × Bytes)} (same : SameKeys pairs pairs' P) :
    Coincide (pairs.flatMap fun p => textString (utf8 p.1) ++ p.2)
      (pairs'.flatMap fun p => textString (utf8 p.1) ++ p.2) P := by
  induction same with
  | nil => exact .self []
  | cons key value others ih =>
    have field := ((Coincide.self (textString (utf8 key))).append fun _ => value).imp And.right
    exact field.append fun _ => ih

theorem SameKeys.length_eq {pairs pairs' : List (String × Bytes)} (same : SameKeys pairs pairs' P) :
    pairs.length = pairs'.length := by
  induction same with
  | nil => rfl
  | cons key value others ih => exact congrArg Nat.succ ih

theorem coincide_map {pairs pairs' : List (String × Bytes)} (same : SameKeys pairs pairs' P) :
    Coincide (map pairs) (map pairs') P := by
  unfold map
  rw [same.length_eq]
  exact ((Coincide.self _).append fun _ => same.coincide).imp And.right

theorem coincide_map_of_length_ne {pairs pairs' : List (String × Bytes)} (fits : pairs.length < 2 ^ 64)
    (fits' : pairs'.length < 2 ^ 64) (different : pairs.length ≠ pairs'.length) :
    Coincide (map pairs) (map pairs') False := by
  have heads : Coincide (head .map pairs.length) (head .map pairs'.length) _ :=
    coincide_head (by decide) (by decide) fits fits'
  exact (heads.append fun counts => (different counts.2).elim).imp And.right

end Cbor

/-! ## Snapshots -/

open Cbor (Coincide)

theorem coincide_word (n n' : UInt16) :
    Coincide (Cbor.number n.toNat) (Cbor.number n'.toNat) (n = n') := by
  have bound : n.toNat < 2 ^ 16 := n.toNat_lt
  have bound' : n'.toNat < 2 ^ 16 := n'.toNat_lt
  exact (Cbor.coincide_number (by omega) (by omega)).imp UInt16.toNat_inj.mp

theorem coincide_tag (t t' : UInt8) :
    Coincide (Cbor.number t.toNat) (Cbor.number t'.toNat) (t = t') := by
  have bound : t.toNat < 2 ^ 8 := t.toNat_lt
  have bound' : t'.toNat < 2 ^ 8 := t'.toNat_lt
  exact (Cbor.coincide_number (by omega) (by omega)).imp UInt8.toNat_inj.mp

theorem coincide_indices (i j i' j' : UInt16) :
    Coincide (Cbor.array [Cbor.number i.toNat, Cbor.number j.toNat])
      (Cbor.array [Cbor.number i'.toNat, Cbor.number j'.toNat]) (i = i' ∧ j = j') := by
  have lists : Coincide (Cbor.array ([i, j].map fun n => Cbor.number n.toNat))
      (Cbor.array ([i', j'].map fun n => Cbor.number n.toNat)) ([i, j] = [i', j']) :=
    Cbor.coincide_array (by simp) (by simp) fun n _ n' _ => coincide_word n n'
  exact lists.imp (by simp)

theorem FlatEntry.encode_of_empty {e : FlatEntry} (empty : e.text = []) :
    e.encode = Cbor.map [("tag", Cbor.number e.tag.toNat),
      ("index", Cbor.array [Cbor.number e.first.toNat, Cbor.number e.second.toNat])] := by
  rw [encode, if_pos empty]
  rfl

theorem FlatEntry.encode_of_text {e : FlatEntry} (text : e.text ≠ []) :
    e.encode = Cbor.map [("tag", Cbor.number e.tag.toNat), ("text", Cbor.textString e.text),
      ("index", Cbor.array [Cbor.number e.first.toNat, Cbor.number e.second.toNat])] := by
  rw [encode, if_neg text]
  rfl

theorem FlatEntry.coincide {e e' : FlatEntry} (fits : e.text.length < 2 ^ 64)
    (fits' : e'.text.length < 2 ^ 64) : Coincide e.encode e'.encode (e = e') := by
  obtain ⟨tag, text, first, second⟩ := e
  obtain ⟨tag', text', first', second'⟩ := e'
  have tags := coincide_tag tag tag'
  have indices := coincide_indices first second first' second'
  -- The key of an empty text is left out, so that perhaps only one of the maps has it.
  by_cases empty : text = [] <;> by_cases empty' : text' = []
  · rw [encode_of_empty empty, encode_of_empty empty']
    refine (Cbor.coincide_map (.cons "tag" tags (.cons "index" indices .nil))).imp ?_
    rintro ⟨rfl, ⟨rfl, rfl⟩, -⟩
    rw [empty, empty']
  · rw [encode_of_empty empty, encode_of_text empty']
    exact (Cbor.coincide_map_of_length_ne (by simp) (by simp) (by simp)).imp False.elim
  · rw [encode_of_text empty, encode_of_empty empty']
    exact (Cbor.coincide_map_of_length_ne (by simp) (by simp) (by simp)).imp False.elim
  · rw [encode_of_text empty, encode_of_text empty']
    have texts := Cbor.coincide_textString fits fits'
    refine (Cbor.coincide_map
      (.cons "tag" tags (.cons "text" texts (.cons "index" indices .nil)))).imp ?_
    rintro ⟨rfl, rfl, ⟨rfl, rfl⟩, -⟩
    rfl

theorem Attribute.coincide {a a' : Attribute} (fits : a.bytes.length < 2 ^ 64)
    (fits' : a'.bytes.length < 2 ^ 64) : Coincide a.encode a'.encode (a = a') := by
  obtain ⟨name, data⟩ := a
  obtain ⟨name', data'⟩ := a'
  have parts : Coincide ((data.map Cbor.byteString).getD Cbor.null)
      ((data'.map Cbor.byteString).getD Cbor.null) (data = data') := by
    refine Cbor.coincide_orNull (fun b => Cbor.opens_head .bytes b.length b) (by decide) ?_
    rintro b rfl b' rfl
    exact Cbor.coincide_byteString fits fits'
  refine (Cbor.coincide_map
    (.cons "Data" parts (.cons "NameIndex" (coincide_word name name') .nil))).imp ?_
  rintro ⟨rfl, rfl, -⟩
  rfl

theorem coincide_attributes {attributes attributes' : Option (List Attribute)}
    (few : (attributes.getD []).length < 2 ^ 64) (few' : (attributes'.getD []).length < 2 ^ 64)
    (fits : ∀ a ∈ attributes.getD [], a.bytes.length < 2 ^ 64)
    (fits' : ∀ a ∈ attributes'.getD [], a.bytes.length < 2 ^ 64) :
    Coincide ((attributes.map fun as => Cbor.array (as.map Attribute.encode)).getD Cbor.null)
      ((attributes'.map fun as => Cbor.array (as.map Attribute.encode)).getD Cbor.null)
      (attributes = attributes') := by
  refine Cbor.coincide_orNull (fun as => Cbor.opens_head .array _ _) (by decide) ?_
  rintro as rfl as' rfl
  exact Cbor.coincide_array few few' fun a member a' member' =>
    Attribute.coincide (fits a member) (fits' a' member')

theorem Member.coincide {m m' : Member} (few : m.attributeList.length < 2 ^ 64)
    (few' : m'.attributeList.length < 2 ^ 64) (fits : ∀ a ∈ m.attributeList, a.bytes.length < 2 ^ 64)
    (fits' : ∀ a ∈ m'.attributeList, a.bytes.length < 2 ^ 64) :
    Coincide m.encode m'.encode (m = m') := by
  obtain ⟨access, name, descriptor, attributes⟩ := m
  obtain ⟨access', name', descriptor', attributes'⟩ := m'
  refine (Cbor.coincide_map (.cons "name" (coincide_word name name')
    (.cons "access" (coincide_word access access')
      (.cons "attributes" (coincide_attributes few few' fits fits')
        (.cons "descriptor" (coincide_word descriptor descriptor') .nil))))).imp ?_
  rintro ⟨rfl, rfl, rfl, rfl, -⟩
  rfl

theorem ClassFile.coincide {c c' : ClassFile} (within : c.Within (2 ^ 64 - 1) (2 ^ 64))
    (within' : c'.Within (2 ^ 64 - 1) (2 ^ 64)) : Coincide c.toSnapshot c'.toSnapshot (c = c') := by
  have below {n : Nat} (few : n ≤ 2 ^ 64 - 1) : n < 2 ^ 64 := by omega
  have pools : Coincide (Cbor.array (c.snapshot.pool.map FlatEntry.encode))
      (Cbor.array (c'.snapshot.pool.map FlatEntry.encode)) (c.snapshot.pool = c'.snapshot.pool) := by
    refine Cbor.coincide_array ?_ ?_ fun e member e' member' => FlatEntry.coincide
      (within.flat_texts (by decide) e member) (within'.flat_texts (by decide) e' member')
    · simpa [ClassFile.snapshot] using below within.pool
    · simpa [ClassFile.snapshot] using below within'.pool
  have members := Cbor.coincide_array (below within.members) (below within'.members)
    fun m member m' member' =>
      Member.coincide (below (within.attributes m member)) (below (within'.attributes m' member'))
        (within.data m member) (within'.data m' member')
  refine (Cbor.coincide_map (.cons "pool" pools (.cons "major" (coincide_word c.major c'.major)
    (.cons "minor" (coincide_word c.minor c'.minor) (.cons "fields" members .nil))))).imp ?_
  rintro ⟨pool, major, minor, members, -⟩
  apply ClassFile.snapshot_injective
  rw [ClassFile.snapshot, ClassFile.snapshot, major, minor, members]
  exact congrArg (Snapshot.mk _ _ · _) pool

namespace ClassFile

/-- A snapshot belongs to one class, and none is the start of another. Texts are any bytes, lists and
strings are of any length that has a head, and what is absent is told apart from what is empty. -/
theorem toSnapshot_prefix_free (c c' : ClassFile) (within : c.Within (2 ^ 64 - 1) (2 ^ 64))
    (within' : c'.Within (2 ^ 64 - 1) (2 ^ 64)) :
    (c.toSnapshot <+: c'.toSnapshot → c = c') ∧
      (c ≠ c' → c.toSnapshot ≠ c'.toSnapshot) ∧
      ¬ (c.toSnapshot <+: c'.toSnapshot ∧ c.toSnapshot ≠ c'.toSnapshot) := by
  have identified : c.toSnapshot <+: c'.toSnapshot → c = c' := (coincide within within').of_start
  refine ⟨identified, ?_, ?_⟩
  · intro different same
    exact different (identified (same ▸ List.prefix_rfl))
  · rintro ⟨start, different⟩
    exact different (congrArg toSnapshot (identified start))

/-- A class with a text that is not UTF-8 and with one member, which has the given attributes. -/
private def withAttributes (attributes : Option (List Attribute)) : ClassFile :=
  ⟨0, 52, [.unused, .utf8 [0xC0, 0x80]], [⟨9, 1, 1, attributes⟩]⟩

private theorem within_withAttributes {attributes : Option (List Attribute)}
    (few : (attributes.getD []).length ≤ 2 ^ 64 - 1)
    (data : ∀ a ∈ attributes.getD [], a.bytes.length < 2 ^ 64) :
    (withAttributes attributes).Within (2 ^ 64 - 1) (2 ^ 64) := by
  refine ⟨by simp [withAttributes], ?_, by simp [withAttributes], ?_, ?_⟩
  · intro text member
    obtain rfl : text = [0xC0, 0x80] := by simpa [withAttributes] using member
    decide
  · simpa [withAttributes, Member.attributeList] using few
  · simpa [withAttributes, Member.attributeList] using data

theorem toSnapshot_prefix_free_absent :
    (withAttributes none).Within (2 ^ 64 - 1) (2 ^ 64) ∧
      (withAttributes (some [])).Within (2 ^ 64 - 1) (2 ^ 64) ∧
      ¬ (withAttributes none).toSnapshot <+: (withAttributes (some [])).toSnapshot ∧
      (withAttributes (some [⟨1, none⟩])).Within (2 ^ 64 - 1) (2 ^ 64) ∧
      (withAttributes (some [⟨1, some []⟩])).Within (2 ^ 64 - 1) (2 ^ 64) ∧
      ¬ (withAttributes (some [⟨1, none⟩])).toSnapshot <+:
        (withAttributes (some [⟨1, some []⟩])).toSnapshot := by
  have absent : (withAttributes none).Within (2 ^ 64 - 1) (2 ^ 64) :=
    within_withAttributes (by decide) (by decide)
  have empty : (withAttributes (some [])).Within (2 ^ 64 - 1) (2 ^ 64) :=
    within_withAttributes (by decide) (by decide)
  have noData : (withAttributes (some [⟨1, none⟩])).Within (2 ^ 64 - 1) (2 ^ 64) :=
    within_withAttributes (by decide) (by decide)
  have emptyData : (withAttributes (some [⟨1, some []⟩])).Within (2 ^ 64 - 1) (2 ^ 64) :=
    within_withAttributes (by decide) (by decide)
  refine ⟨absent, empty, fun start => ?_, noData, emptyData, fun start => ?_⟩
  · exact absurd ((toSnapshot_prefix_free _ _ absent empty).1 start) (by decide)
  · exact absurd ((toSnapshot_prefix_free _ _ noData emptyData).1 start) (by decide)

end ClassFile

end Jvm
