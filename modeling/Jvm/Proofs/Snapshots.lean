import Jvm.Proofs.CborItems
import Jvm.Proofs.Characters
import Jvm.Proofs.Grammar
import Jvm.Snapshot.Codec

/-!
Snapshots and the classes they hold. A class that is written and read again is the same class when
all its texts are UTF-8, and cannot be read again otherwise. Whatever can be read, in canonical form
or not, is such a class, so that writing it again gives its canonical form.
-/

set_option autoImplicit false
set_option relaxedAutoImplicit false

namespace Jvm

theorem utf8_injective {s t : String} (same : utf8 s = utf8 t) : s = t := by
  rw [utf8, utf8, String.toUTF8_eq_toByteArray, String.toUTF8_eq_toByteArray] at same
  exact String.toByteArray_inj.mp (ByteArray.ext (Array.toList_inj.mp same))

open Cbor (Item Spells SpellsField)

/-! ## Fields of maps -/

namespace Cbor.Item

theorem matchKey?_of_mem {names : List Bytes} {key : Bytes} (known : key ∈ names) :
    matchKey? names key = some key := by
  rw [matchKey?, if_pos (List.contains_iff_mem.mpr known)]

theorem select?_keyed {names : List Bytes} {fields : List (String × Item)}
    (known : ∀ field ∈ fields, utf8 field.1 ∈ names) (distinct : (fields.map Prod.fst).Nodup) :
    select? names (keyed fields) = some (fields.map fun field => (utf8 field.1, field.2)) := by
  induction fields generalizing names with
  | nil => rfl
  | cons field fields ih =>
    obtain ⟨fresh, distinct⟩ := List.nodup_cons.mp distinct
    obtain ⟨here, known⟩ := List.forall_mem_cons.mp known
    have others : ∀ field' ∈ fields, utf8 field'.1 ∈ names.erase (utf8 field.1) := by
      intro field' member
      refine (List.mem_erase_of_ne fun same => ?_).mpr (known field' member)
      exact fresh (utf8_injective same ▸ List.mem_map_of_mem member)
    have valid : [utf8 field.1].all Utf8.isValid = true := by simp [Utf8.isValid_utf8]
    rw [keyed, List.map_cons, select?, if_pos valid, List.flatten_singleton, matchKey?_of_mem here]
    dsimp only
    rw [← keyed, ih others distinct]
    rfl

end Cbor.Item

theorem spells_fields {levels : Nat} (names : List String) {pairs : List (String × Bytes)}
    {fields : List (String × Item)} (each : List.Forall₂ (SpellsField levels) pairs fields)
    (few : pairs.length ≤ Cbor.maxElements) (known : ∀ field ∈ fields, field.1 ∈ names)
    (distinct : (fields.map Prod.fst).Nodup) :
    ∃ i, Spells (Cbor.item (levels + 1)) (Cbor.map pairs) i ∧
      i.fields? names = some (fields.map fun field => (utf8 field.1, field.2)) := by
  refine ⟨.map (Cbor.keyed fields), Cbor.spells_map each few, ?_⟩
  exact Item.select?_keyed (fun field member => List.mem_map_of_mem (known field member)) distinct

theorem fieldOr_cons {α : Type} (key name : String) (i : Item) (fields : List (Bytes × Item))
    (absent : α) (decode? : Item -> Option α) :
    fieldOr ((utf8 key, i) :: fields) name absent decode? =
      if name = key then decode? i else fieldOr fields name absent decode? := by
  unfold fieldOr
  by_cases same : name = key
  · rw [if_pos same, same, List.lookup_cons_self]
  · have other : (utf8 name == utf8 key) = false := by simpa using fun h => same (utf8_injective h)
    rw [if_neg same, List.lookup_cons, other]

/-! ## What the written forms yield -/

def Yields {α : Type} (levels : Nat) (decode? : Item -> Option α) (w : Bytes) (read : Option α) :
    Prop :=
  ∃ i, Spells (Cbor.item levels) w i ∧ decode? i = read

theorem yields_word (levels : Nat) (n : UInt16) :
    Yields levels word? (Cbor.number n.toNat) (some n) := by
  have bound : n.toNat < 2 ^ 16 := n.toNat_lt
  refine ⟨.unsigned n.toNat, Cbor.spells_number (by omega) levels, ?_⟩
  have small : n.toNat ≤ 65535 := by omega
  simp [word?, Item.number?, Item.content?, small]

theorem yields_tag (levels : Nat) (t : UInt8) :
    Yields levels (Item.number? 255) (Cbor.number t.toNat) (some t.toNat) := by
  have bound : t.toNat < 2 ^ 8 := t.toNat_lt
  refine ⟨.unsigned t.toNat, Cbor.spells_number (by omega) levels, ?_⟩
  have small : t.toNat ≤ 255 := by omega
  simp [Item.number?, Item.content?, small]

theorem yields_text (levels : Nat) {b : Bytes} (fits : b.length < 2 ^ 64) :
    Yields levels Item.text? (Cbor.textString b) (Option.guard Utf8.isValid b) := by
  refine ⟨.text [b], Cbor.spells_textString fits levels, ?_⟩
  simp [Item.text?, Item.content?, Option.guard]

theorem yields_data (levels : Nat) {data : Option Bytes} (fits : (data.getD []).length < 2 ^ 64) :
    Yields levels Item.data? ((data.map Cbor.byteString).getD Cbor.null) (some data) := by
  cases data with
  | none => exact ⟨_, Cbor.spells_null levels, rfl⟩
  | some b => exact ⟨_, Cbor.spells_byteString fits levels, rfl⟩

theorem yields_indices (levels : Nat) (a b : UInt16) :
    Yields (levels + 1) indexPair? (Cbor.array [Cbor.number a.toNat, Cbor.number b.toNat])
      (some (a, b)) := by
  obtain ⟨i, spells, read⟩ := yields_word levels a
  obtain ⟨i', spells', read'⟩ := yields_word levels b
  have both := Cbor.spells_array (.cons spells (.cons spells' .nil)) (by simp [Cbor.maxElements])
  refine ⟨.array [i, i'], both, ?_⟩
  simp [indexPair?, Item.content?, read, read']

theorem yields_list {α : Type} {levels : Nat} {decode? : Item -> Option α} {encode : α -> Bytes}
    {read : α -> Option α} {as : List α} (each : ∀ a ∈ as, Yields levels decode? (encode a) (read a))
    (few : as.length ≤ Cbor.maxElements) :
    Yields (levels + 1) (Item.list? decode?) (Cbor.array (as.map encode))
      ((as.mapM read).map some) := by
  have spelled : ∃ items, List.Forall₂ (Spells (Cbor.item levels)) (as.map encode) items ∧
      items.mapM decode? = as.mapM read := by
    clear few
    induction as with
    | nil => exact ⟨[], .nil, rfl⟩
    | cons a as ih =>
      obtain ⟨i, spells, decoded⟩ := each a List.mem_cons_self
      obtain ⟨items, spelled, all⟩ := ih fun a member => each a (List.mem_cons_of_mem _ member)
      exact ⟨i :: items, .cons spells spelled, by rw [List.mapM_cons, List.mapM_cons, decoded, all]⟩
  obtain ⟨items, spelled, all⟩ := spelled
  refine ⟨.array items, Cbor.spells_array spelled (by simpa using few), ?_⟩
  rw [← all]
  rfl

theorem mapM_some {α : Type} (as : List α) : as.mapM (fun a => some a) = some as := by
  simpa using List.mapM_pure (m := Option) (l := as) (f := id)

theorem mapM_guard {α : Type} (p : α -> Bool) (as : List α) :
    as.mapM (Option.guard p) = Option.guard (List.all · p) as := by
  induction as with
  | nil => rfl
  | cons a as ih =>
    rw [List.mapM_cons, ih]
    cases here : p a <;> cases there : as.all p <;> simp [Option.guard, here, there]

theorem FlatEntry.yields (levels : Nat) {e : FlatEntry} (fits : e.text.length < 2 ^ 64) :
    Yields (levels + 2) FlatEntry.ofItem? e.encode (Option.guard (Utf8.isValid ·.text) e) := by
  obtain ⟨tag, text, first, second⟩ := e
  obtain ⟨i, spells, read⟩ := yields_tag (levels + 1) tag
  obtain ⟨i', spells', read'⟩ := yields_indices levels first second
  by_cases empty : text = []
  · -- An empty text is left out, and a text that is left out is empty.
    subst empty
    obtain ⟨whole, written, fields⟩ := spells_fields ["tag", "text", "index"]
      (.cons (.of "tag" (by decide) spells) (.cons (.of "index" (by decide) spells') .nil))
      (by simp [Cbor.maxElements]) (by simp) (by simp)
    refine ⟨whole, written, ?_⟩
    have absent : fieldOr [] "text" [] Item.text? = some [] := rfl
    rw [FlatEntry.ofItem?, fields]
    simp [fieldOr_cons, absent, read, read', Option.guard, Utf8.isValid_nil]
  · obtain ⟨i'', spells'', read''⟩ := yields_text (levels + 1) fits
    obtain ⟨whole, written, fields⟩ := spells_fields ["tag", "text", "index"]
      (.cons (.of "tag" (by decide) spells) (.cons (.of "text" (by decide) spells'')
        (.cons (.of "index" (by decide) spells') .nil)))
      (by simp [Cbor.maxElements]) (by simp) (by simp)
    refine ⟨whole, by simpa [FlatEntry.encode, empty] using written, ?_⟩
    rw [FlatEntry.ofItem?, fields]
    cases valid : Utf8.isValid text <;>
      simp [fieldOr_cons, read, read', read'', Option.guard, valid]

theorem Attribute.yields (levels : Nat) {a : Attribute} (fits : a.bytes.length < 2 ^ 64) :
    Yields (levels + 1) Attribute.ofItem? a.encode (some a) := by
  obtain ⟨i, spells, read⟩ := yields_data levels fits
  obtain ⟨i', spells', read'⟩ := yields_word levels a.name
  obtain ⟨whole, written, fields⟩ := spells_fields ["NameIndex", "Data"]
    (.cons (.of "Data" (by decide) spells) (.cons (.of "NameIndex" (by decide) spells') .nil))
    (by simp [Cbor.maxElements]) (by simp) (by simp)
  refine ⟨whole, written, ?_⟩
  rw [Attribute.ofItem?, fields]
  simp [fieldOr_cons, read, read']

theorem yields_attributes (levels : Nat) {attributes : Option (List Attribute)}
    (few : (attributes.getD []).length ≤ Cbor.maxElements)
    (fits : ∀ a ∈ attributes.getD [], a.bytes.length < 2 ^ 64) :
    Yields (levels + 2) (Item.list? Attribute.ofItem?)
      ((attributes.map fun as => Cbor.array (as.map Attribute.encode)).getD Cbor.null)
      (some attributes) := by
  cases attributes with
  | none => exact ⟨_, Cbor.spells_null (levels + 2), rfl⟩
  | some as =>
    have read := yields_list (fun a member => Attribute.yields levels (fits a member)) few
    rw [mapM_some] at read
    exact read

theorem Member.yields (levels : Nat) {m : Member} (few : m.attributeList.length ≤ Cbor.maxElements)
    (fits : ∀ a ∈ m.attributeList, a.bytes.length < 2 ^ 64) :
    Yields (levels + 3) Member.ofItem? m.encode (some m) := by
  obtain ⟨i, spells, read⟩ := yields_word (levels + 2) m.name
  obtain ⟨i', spells', read'⟩ := yields_word (levels + 2) m.access
  obtain ⟨i'', spells'', read''⟩ := yields_attributes levels few fits
  obtain ⟨j, spells₁, read₁⟩ := yields_word (levels + 2) m.descriptor
  obtain ⟨whole, written, fields⟩ := spells_fields ["access", "name", "descriptor", "attributes"]
    (.cons (.of "name" (by decide) spells) (.cons (.of "access" (by decide) spells')
      (.cons (.of "attributes" (by decide) spells'')
        (.cons (.of "descriptor" (by decide) spells₁) .nil))))
    (by simp [Cbor.maxElements]) (by simp) (by simp)
  refine ⟨whole, written, ?_⟩
  rw [Member.ofItem?, fields]
  simp [fieldOr_cons, read, read', read'', read₁]

theorem Snapshot.yields (levels : Nat) {s : Snapshot} (pool : s.pool.length ≤ Cbor.maxElements)
    (texts : ∀ e ∈ s.pool, e.text.length < 2 ^ 64) (members : s.members.length ≤ Cbor.maxElements)
    (attributes : ∀ m ∈ s.members, m.attributeList.length ≤ Cbor.maxElements)
    (data : ∀ m ∈ s.members, ∀ a ∈ m.attributeList, a.bytes.length < 2 ^ 64) :
    Yields (levels + 5) Snapshot.ofItem? s.encode
      (Option.guard (fun s => s.pool.all (Utf8.isValid ·.text)) s) := by
  obtain ⟨i, spells, read⟩ := yields_list
    (fun e member => FlatEntry.yields (levels + 1) (texts e member)) pool
  obtain ⟨i', spells', read'⟩ := yields_word (levels + 4) s.major
  obtain ⟨i'', spells'', read''⟩ := yields_word (levels + 4) s.minor
  obtain ⟨j, spells₁, read₁⟩ := yields_list
    (fun m member => Member.yields levels (attributes m member) (data m member)) members
  obtain ⟨whole, written, fields⟩ := spells_fields ["minor", "major", "pool", "fields"]
    (.cons (.of "pool" (by decide) spells) (.cons (.of "major" (by decide) spells')
      (.cons (.of "minor" (by decide) spells'') (.cons (.of "fields" (by decide) spells₁) .nil))))
    (by simp [Cbor.maxElements]) (by simp) (by simp)
  refine ⟨whole, written, ?_⟩
  rw [mapM_guard] at read
  rw [mapM_some] at read₁
  rw [Snapshot.ofItem?, fields]
  cases valid : s.pool.all (Utf8.isValid ·.text) <;>
    simp [fieldOr_cons, read, read', read'', read₁, Option.guard, valid]

/-! ## Writing and reading again -/

/-- Every list of a class has at most `elements` elements, and every text and all data have fewer than
`size` bytes. -/
structure ClassFile.Within (c : ClassFile) (elements size : Nat) : Prop where
  pool : c.pool.length ≤ elements
  texts : ∀ text, Entry.utf8 text ∈ c.pool → text.length < size
  members : c.members.length ≤ elements
  attributes : ∀ m ∈ c.members, m.attributeList.length ≤ elements
  data : ∀ m ∈ c.members, ∀ a ∈ m.attributeList, a.bytes.length < size

theorem ClassFile.Within.mono {c : ClassFile} {elements elements' size size' : Nat}
    (within : c.Within elements size) (more : elements ≤ elements') (longer : size ≤ size') :
    c.Within elements' size' where
  pool := within.pool.trans more
  texts text member := (within.texts text member).trans_le longer
  members := within.members.trans more
  attributes m member := (within.attributes m member).trans more
  data m member a member' := (within.data m member a member').trans_le longer

theorem ClassFile.flat_text {c : ClassFile} {e : FlatEntry} (member : e ∈ c.snapshot.pool) :
    e.text = [] ∨ Entry.utf8 e.text ∈ c.pool := by
  obtain ⟨entry, inPool, rfl⟩ := List.mem_map.mp member
  cases entry with
  | utf8 text => exact .inr inPool
  | _ => exact .inl rfl

theorem ClassFile.Within.flat_texts {c : ClassFile} {elements size : Nat}
    (within : c.Within elements size) (positive : 0 < size) :
    ∀ e ∈ c.snapshot.pool, e.text.length < size := by
  intro e member
  rcases ClassFile.flat_text member with empty | isText
  · rw [empty]
    exact positive
  · exact within.texts _ isText

theorem Snapshot.rebuildPool_flatten (pool : List Entry) (slot : Nat) :
    rebuildPool slot (pool.map Entry.flatten) = .ok pool := by
  induction pool generalizing slot with
  | nil => rfl
  | cons e pool ih => simp [rebuildPool, Entry.rebuild?_flatten, ih]

theorem ClassFile.classFile_snapshot (c : ClassFile) : c.snapshot.classFile = .ok c := by
  rw [Snapshot.classFile, ClassFile.snapshot, Snapshot.rebuildPool_flatten]

theorem ClassFile.all_isValid_iff (c : ClassFile) :
    c.snapshot.pool.all (Utf8.isValid ·.text) = true ↔
      ∀ text, Entry.utf8 text ∈ c.pool → ∃ s : String, text = utf8 s := by
  rw [List.all_eq_true]
  constructor
  · intro valid text member
    exact Utf8.isValid_iff.mp (valid _ (List.mem_map_of_mem member))
  · intro valid e member
    rcases ClassFile.flat_text member with empty | isText
    · rw [empty, Utf8.isValid_nil]
    · exact Utf8.isValid_iff.mpr (valid _ isText)

theorem ClassFile.decode_toSnapshot {c : ClassFile} (within : c.Within Cbor.maxElements (2 ^ 64)) :
    (Cbor.decode c.toSnapshot).bind Snapshot.ofItem? =
      Option.guard (fun s => s.pool.all (Utf8.isValid ·.text)) c.snapshot := by
  have pool : c.snapshot.pool.length ≤ Cbor.maxElements := by
    simpa [ClassFile.snapshot] using within.pool
  obtain ⟨i, spells, read⟩ :=
    Snapshot.yields 27 pool (within.flat_texts (by decide)) within.members within.attributes within.data
  have whole := spells []
  rw [List.append_nil] at whole
  rw [Cbor.decode, ClassFile.toSnapshot, Cbor.maxLevels, whole]
  exact read

theorem ClassFile.ofSnapshot_of_texts {c : ClassFile} (within : c.Within Cbor.maxElements (2 ^ 64))
    (texts : ∀ text, Entry.utf8 text ∈ c.pool → ∃ s : String, text = utf8 s) :
    ofSnapshot c.toSnapshot = .ok c := by
  rw [ofSnapshot, decode_toSnapshot within, Option.guard, if_pos (c.all_isValid_iff.mpr texts)]
  dsimp only
  rw [classFile_snapshot]
  rfl

theorem ClassFile.ofSnapshot_of_stray {c : ClassFile} (within : c.Within Cbor.maxElements (2 ^ 64))
    (stray : ¬ ∀ text, Entry.utf8 text ∈ c.pool → ∃ s : String, text = utf8 s) :
    ofSnapshot c.toSnapshot = .error .cbor := by
  rw [ofSnapshot, decode_toSnapshot within, Option.guard,
    if_neg fun valid => stray (c.all_isValid_iff.mp valid)]

/-! ## What can be read -/

namespace Cbor.Item

variable {limit : Nat} {i : Item}

theorem Bounded.content? {j : Item} (bounded : i.Bounded limit) (stripped : i.content? = some j) :
    j.Bounded limit := by
  induction bounded with
  | tagged tag inner bounded ih =>
    rw [Item.content?] at stripped
    split_ifs at stripped
    · cases stripped
      exact .tagged tag inner bounded
    · exact ih stripped
  | array items few each _ =>
    cases stripped
    exact .array items few each
  | map pairs each _ =>
    cases stripped
    exact .map pairs each
  | _ =>
    cases stripped
    constructor <;> assumption

theorem select?_sublist {names : List Bytes} {pairs : List (Item × Item)}
    {fields : List (Bytes × Item)} (selected : select? names pairs = some fields) :
    (fields.map Prod.snd).Sublist (pairs.map Prod.snd) := by
  fun_induction select? names pairs generalizing fields with
  | case1 names =>
    cases selected
    exact .slnil
  | case2 names value rest chunks valid name matched ih =>
    obtain ⟨others, selected', rfl⟩ := Option.map_eq_some_iff.mp selected
    exact (ih selected').cons_cons value
  | case3 names value rest chunks valid unmatched ih => exact (ih selected).cons value
  | case4 names value rest chunks invalid => cases selected
  | case5 names value rest n ih => exact (ih selected).cons value
  | case6 names value rest n small ih => exact (ih selected).cons value
  | case7 names value rest n large => cases selected
  | case8 names key value rest => cases selected

theorem fields?_bounded {names : List String} {fields : List (Bytes × Item)}
    (bounded : i.Bounded limit) (read : i.fields? names = some fields) :
    ∀ field ∈ fields, field.2.Bounded limit := by
  unfold fields? at read
  split at read
  · rename_i pairs isMap
    cases bounded.content? isMap with
    | map _ each =>
      intro field member
      have value := (select?_sublist read).subset (List.mem_map_of_mem member)
      obtain ⟨p, present, same⟩ := List.mem_map.mp value
      exact same ▸ each p present
  · split_ifs at read
    cases read
    simp
  · cases read

theorem mapM_some_inv {α : Type} {decode? : Item -> Option α} {items : List Item} {as : List α}
    (read : items.mapM decode? = some as) :
    as.length = items.length ∧ ∀ a ∈ as, ∃ i ∈ items, decode? i = some a := by
  induction items generalizing as with
  | nil =>
    cases read
    simp
  | cons i items ih =>
    simp only [List.mapM_cons, Option.bind_eq_bind, Option.bind_eq_some_iff] at read
    obtain ⟨a, first, others, rest, same⟩ := read
    cases same
    obtain ⟨length, each⟩ := ih rest
    refine ⟨by simp [length], List.forall_mem_cons.mpr ⟨⟨i, List.mem_cons_self, first⟩, ?_⟩⟩
    intro a member
    obtain ⟨j, present, decoded⟩ := each a member
    exact ⟨j, List.mem_cons_of_mem _ present, decoded⟩

theorem text?_bounded {b : Bytes} (bounded : i.Bounded limit) (read : i.text? = some b) :
    Utf8.isValid b = true ∧ b.length ≤ limit := by
  unfold text? at read
  split at read
  · rename_i chunks isText
    split_ifs at read with valid
    cases read
    cases bounded.content? isText with
    | text _ short => exact ⟨Utf8.isValid_flatten valid, short⟩
  · split_ifs at read
    cases read
    exact ⟨Utf8.isValid_nil, Nat.zero_le _⟩
  · cases read

theorem list?_bounded {α : Type} {decode? : Item -> Option α} {as : Option (List α)}
    (bounded : i.Bounded limit) (read : i.list? decode? = some as) :
    (as.getD []).length ≤ maxElements ∧
      ∀ a ∈ as.getD [], ∃ j : Item, j.Bounded limit ∧ decode? j = some a := by
  unfold list? at read
  split at read
  · rename_i items isArray
    obtain ⟨found, read', rfl⟩ := Option.map_eq_some_iff.mp read
    obtain ⟨length, decoded⟩ := mapM_some_inv read'
    cases bounded.content? isArray with
    | array _ few each =>
      refine ⟨length.trans_le few, ?_⟩
      intro a member
      obtain ⟨j, present, same⟩ := decoded a member
      exact ⟨j, each j present, same⟩
  · split_ifs at read
    cases read
    simp
  · cases read

theorem data?_bounded {data : Option Bytes} (bounded : i.Bounded limit)
    (read : i.data? = some data) : (data.getD []).length ≤ max limit maxElements := by
  unfold data? at read
  split at read
  · rename_i b isBytes
    cases read
    cases bounded.content? isBytes with
    | bytes _ short => exact short.trans (Nat.le_max_left _ _)
  · rename_i tag b isBignum
    cases read
    cases bounded.content? isBignum with
    | tagged _ _ inner =>
      cases inner with
      | bytes _ short => exact short.trans (Nat.le_max_left _ _)
  · rename_i items isArray
    obtain ⟨ns, read', rfl⟩ := Option.map_eq_some_iff.mp read
    cases bounded.content? isArray with
    | array _ few each =>
      simpa using .inr ((mapM_some_inv read').1.trans_le few)
  · split_ifs at read
    cases read
    simp
  · cases read

end Cbor.Item

theorem fieldOr_some {α : Type} {fields : List (Bytes × Item)} {name : String} {absent a : α}
    {decode? : Item -> Option α} (read : fieldOr fields name absent decode? = some a) :
    a = absent ∨ ∃ field ∈ fields, decode? field.2 = some a := by
  unfold fieldOr at read
  split at read
  · rename_i i found
    obtain ⟨before, after, split, _⟩ := List.lookup_eq_some_iff.mp found
    exact .inr ⟨(utf8 name, i), by simp [split], read⟩
  · cases read
    exact .inl rfl

section Read

variable {limit : Nat} {i : Item}

theorem FlatEntry.of_bounded {e : FlatEntry} (bounded : i.Bounded limit)
    (read : FlatEntry.ofItem? i = some e) : Utf8.isValid e.text = true ∧ e.text.length ≤ limit := by
  simp only [FlatEntry.ofItem?, Option.bind_eq_bind, Option.bind_eq_some_iff] at read
  obtain ⟨fields, found, tag, _, text, readText, index, _, same⟩ := read
  cases same
  rcases fieldOr_some readText with rfl | ⟨field, member, decoded⟩
  · exact ⟨Utf8.isValid_nil, Nat.zero_le _⟩
  · exact Item.text?_bounded (Item.fields?_bounded bounded found field member) decoded

theorem Attribute.of_bounded {a : Attribute} (bounded : i.Bounded limit)
    (read : Attribute.ofItem? i = some a) : a.bytes.length ≤ max limit Cbor.maxElements := by
  simp only [Attribute.ofItem?, Option.bind_eq_bind, Option.bind_eq_some_iff] at read
  obtain ⟨fields, found, name, _, data, readData, same⟩ := read
  cases same
  rcases fieldOr_some readData with rfl | ⟨field, member, decoded⟩
  · exact Nat.zero_le _
  · exact Item.data?_bounded (Item.fields?_bounded bounded found field member) decoded

theorem listField_bounded {α : Type} {names : List String} {fields : List (Bytes × Item)}
    {name : String} {decode? : Item -> Option α} {as : Option (List α)} (bounded : i.Bounded limit)
    (found : i.fields? names = some fields)
    (read : fieldOr fields name none (Item.list? decode?) = some as) :
    (as.getD []).length ≤ Cbor.maxElements ∧
      ∀ a ∈ as.getD [], ∃ j : Item, j.Bounded limit ∧ decode? j = some a := by
  rcases fieldOr_some read with rfl | ⟨field, member, decoded⟩
  · simp
  · exact Item.list?_bounded (Item.fields?_bounded bounded found field member) decoded

theorem Member.of_bounded {m : Member} (bounded : i.Bounded limit)
    (read : Member.ofItem? i = some m) :
    m.attributeList.length ≤ Cbor.maxElements ∧
      ∀ a ∈ m.attributeList, a.bytes.length ≤ max limit Cbor.maxElements := by
  simp only [Member.ofItem?, Option.bind_eq_bind, Option.bind_eq_some_iff] at read
  obtain ⟨fields, found, access, _, name, _, descriptor, _, attributes, readList, same⟩ := read
  cases same
  obtain ⟨few, each⟩ := listField_bounded bounded found readList
  refine ⟨few, fun a member => ?_⟩
  obtain ⟨j, inside, decoded⟩ := each a member
  exact Attribute.of_bounded inside decoded

theorem FlatEntry.text_of_rebuild? {e : FlatEntry} {text : Bytes}
    (rebuilt : e.rebuild? = some (.utf8 text)) : e.text = text := by
  obtain ⟨tag, _, same⟩ := Option.map_eq_some_iff.mp rebuilt
  cases tag with
  | utf8 => exact Entry.utf8.inj same
  | _ => cases same

theorem Snapshot.rebuildPool_ok {flat : List FlatEntry} {pool : List Entry} {slot : Nat}
    (rebuilt : rebuildPool slot flat = .ok pool) :
    pool.length = flat.length ∧ ∀ text, Entry.utf8 text ∈ pool → ∃ e ∈ flat, e.text = text := by
  induction flat generalizing pool slot with
  | nil =>
    cases rebuilt
    simp
  | cons e flat ih =>
    rw [rebuildPool] at rebuilt
    split at rebuilt
    · cases rebuilt
    · rename_i entry here
      split at rebuilt
      · rename_i entries others
        cases rebuilt
        obtain ⟨length, texts⟩ := ih others
        refine ⟨by simp [length], fun text member => ?_⟩
        rcases List.mem_cons.mp member with rfl | member
        · exact ⟨e, List.mem_cons_self, FlatEntry.text_of_rebuild? here⟩
        · obtain ⟨e', present, same⟩ := texts text member
          exact ⟨e', List.mem_cons_of_mem _ present, same⟩
      · cases rebuilt

theorem Snapshot.classFile_ok {s : Snapshot} {c : ClassFile} (rebuilt : s.classFile = .ok c) :
    rebuildPool 0 s.pool = .ok c.pool ∧ c.members = s.members := by
  unfold classFile at rebuilt
  split at rebuilt
  · rename_i pool found
    cases rebuilt
    exact ⟨found, rfl⟩
  · cases rebuilt

theorem Snapshot.of_bounded {s : Snapshot} (bounded : i.Bounded limit)
    (read : Snapshot.ofItem? i = some s) :
    s.pool.length ≤ Cbor.maxElements ∧
      (∀ e ∈ s.pool, Utf8.isValid e.text = true ∧ e.text.length ≤ limit) ∧
      s.members.length ≤ Cbor.maxElements ∧
      ∀ m ∈ s.members, m.attributeList.length ≤ Cbor.maxElements ∧
        ∀ a ∈ m.attributeList, a.bytes.length ≤ max limit Cbor.maxElements := by
  simp only [Snapshot.ofItem?, Option.bind_eq_bind, Option.bind_eq_some_iff] at read
  obtain ⟨fields, found, minor, _, major, _, pool, readPool, members, readMembers, same⟩ := read
  cases same
  obtain ⟨few, entries⟩ := listField_bounded bounded found readPool
  obtain ⟨few', each⟩ := listField_bounded bounded found readMembers
  refine ⟨few, fun e member => ?_, few', fun m member => ?_⟩
  · obtain ⟨j, inside, decoded⟩ := entries e member
    exact FlatEntry.of_bounded inside decoded
  · obtain ⟨j, inside, decoded⟩ := each m member
    exact Member.of_bounded inside decoded

end Read

/-- A class that is read from a snapshot keeps the limits of the decoder, and its texts are UTF-8. -/
theorem ClassFile.of_ofSnapshot {b : Bytes} {c : ClassFile} (read : ofSnapshot b = .ok c) :
    c.Within Cbor.maxElements (max b.length Cbor.maxElements + 1) ∧
      ∀ text, Entry.utf8 text ∈ c.pool → ∃ s : String, text = utf8 s := by
  unfold ofSnapshot at read
  split at read
  · cases read
  rename_i s decoded
  obtain ⟨i, whole, shaped⟩ := Option.bind_eq_some_iff.mp decoded
  obtain ⟨pool, texts, members, each⟩ := Snapshot.of_bounded (Cbor.decode_bounded whole) shaped
  obtain ⟨rebuilt, same⟩ := Snapshot.classFile_ok (Outcome.mapError_eq_ok_iff.mp read)
  obtain ⟨length, origin⟩ := Snapshot.rebuildPool_ok rebuilt
  rw [← same] at members each
  refine ⟨⟨length.trans_le pool, fun text member => ?_, members, fun m member => (each m member).1,
    fun m member a member' => Nat.lt_succ_of_le ((each m member).2 a member')⟩, fun text member => ?_⟩
  · obtain ⟨e, present, rfl⟩ := origin text member
    exact Nat.lt_succ_of_le ((texts e present).2.trans (Nat.le_max_left _ _))
  · obtain ⟨e, present, rfl⟩ := origin text member
    exact Utf8.isValid_iff.mp (texts e present).1

namespace ClassFile

theorem Representable.within {c : ClassFile} (fits : c.Representable) : c.Within 65535 (2 ^ 32) where
  pool := Nat.le_of_lt_succ fits.pool
  texts text member := by
    obtain ⟨rest, pool⟩ := List.head?_eq_some_iff.mp fits.unused
    have entries := fits.entries
    rw [pool, List.tail_cons] at entries
    rw [pool] at member
    rcases List.mem_cons.mp member with isUnused | inRest
    · cases isUnused
    · have short : text.length < 2 ^ 16 := entries _ inRest
      omega
  members := Nat.le_of_lt_succ fits.table
  attributes m member := Nat.le_of_lt_succ (fits.members m member).2.1
  data m member a member' := ((fits.members m member).2.2 a member').2

/-- A class that is written and read again is the same class: its versions, its pool in any order of
entries, its members in their order, and what is absent or empty in them. The lists are as long as the
format of class files allows at most, the texts are texts of character strings, and no text or data is
longer than eight bytes can count. -/
theorem ofSnapshot_toSnapshot (c : ClassFile) (within : c.Within 65535 (2 ^ 64))
    (texts : ∀ text, Entry.utf8 text ∈ c.pool → ∃ s : String, text = utf8 s) :
    ofSnapshot c.toSnapshot = .ok c :=
  ofSnapshot_of_texts (within.mono (by decide) (Nat.le_refl _)) texts

/-- Entries of every kind in no order, a text of 24 bytes, and members with absent and empty parts. -/
private def assorted : ClassFile :=
  { minor := 3, major := 65535
    pool := [.utf8 [], .unused, .utf8 (utf8 "π is a text of 24 bytes"), .classInfo 2, .string 300,
      .fieldref 1 0, .methodref 65535 24, .nameAndType 255 256]
    members := [⟨1, 23, 3, none⟩, ⟨0, 0, 0, some []⟩,
      ⟨0, 0, 0, some [⟨7, none⟩, ⟨8, some []⟩, ⟨9, some [0, 255]⟩]⟩] }

theorem ofSnapshot_toSnapshot_assorted :
    assorted.Within 65535 (2 ^ 64) ∧
      (∀ text, Entry.utf8 text ∈ assorted.pool → ∃ s : String, text = utf8 s) ∧
      ofSnapshot assorted.toSnapshot = .ok assorted := by
  have texts : ∀ text, Entry.utf8 text ∈ assorted.pool →
      text = [] ∨ text = utf8 "π is a text of 24 bytes" := by
    intro text member
    simpa [assorted] using member
  have within : assorted.Within 65535 (2 ^ 64) := by
    refine ⟨by decide, fun text member => ?_, by decide, by decide, by decide⟩
    rcases texts text member with rfl | rfl <;> decide
  have strings : ∀ text, Entry.utf8 text ∈ assorted.pool → ∃ s : String, text = utf8 s := by
    intro text member
    rcases texts text member with rfl | rfl
    · exact ⟨"", rfl⟩
    · exact ⟨_, rfl⟩
  exact ⟨within, strings, ofSnapshot_toSnapshot assorted within strings⟩

/-- The snapshot of a class that was decoded from a file gives the class back exactly when every text
of its pool is UTF-8. A file may hold any bytes as a text, and with other bytes the snapshot that was
written is refused. -/
theorem parsed_snapshot_restorable_iff (b : Bytes) (c : ClassFile) (parsed : parse b = .ok c) :
    (ofSnapshot c.toSnapshot = .ok c ↔
      ∀ text, Entry.utf8 text ∈ c.pool → ∃ s : String, text = utf8 s) ∧
    (ofSnapshot c.toSnapshot ≠ .ok c → ofSnapshot c.toSnapshot = .error .cbor) := by
  have within : c.Within Cbor.maxElements (2 ^ 64) :=
    (representable_of_parse parsed).within.mono (by decide) (by decide)
  by_cases texts : ∀ text, Entry.utf8 text ∈ c.pool → ∃ s : String, text = utf8 s
  · have restored := ofSnapshot_of_texts within texts
    exact ⟨iff_of_true restored texts, fun refused => (refused restored).elim⟩
  · have refused := ofSnapshot_of_stray within texts
    refine ⟨iff_of_false ?_ texts, fun _ => refused⟩
    rw [refused]
    intro same
    cases same

private def withText (a b : UInt8) : Bytes :=
  [0xCA, 0xFE, 0xBA, 0xBE, 0, 0, 0, 52, 0, 2, 1, 0, 2, a, b] ++ List.replicate 10 0 ++ [0, 0]

theorem parsed_snapshot_restorable_iff_accented :
    ∃ c, parse (withText 0xC3 0xA9) = .ok c ∧ .utf8 (utf8 "é") ∈ c.pool ∧
      ofSnapshot c.toSnapshot = .ok c := by
  have parsed : parse (withText 0xC3 0xA9) = .ok ⟨0, 52, [.unused, .utf8 (utf8 "é")], []⟩ := by decide
  refine ⟨_, parsed, by simp, (parsed_snapshot_restorable_iff _ _ parsed).1.mpr ?_⟩
  intro text member
  simp only [List.mem_cons, reduceCtorEq, Entry.utf8.injEq, List.not_mem_nil, or_false,
    false_or] at member
  exact ⟨_, member⟩

/-- The null character as class files write it, in two bytes, cannot be restored. -/
theorem snapshot_of_null_character_refused :
    ∃ c, parse (withText 0xC0 0x80) = .ok c ∧ ofSnapshot c.toSnapshot = .error .cbor := by
  have parsed : parse (withText 0xC0 0x80) = .ok ⟨0, 52, [.unused, .utf8 [0xC0, 0x80]], []⟩ := by decide
  refine ⟨_, parsed, ofSnapshot_of_stray ?_ ?_⟩
  · exact (representable_of_parse parsed).within.mono (by decide) (by decide)
  · intro texts
    have valid := Utf8.isValid_iff.mpr (texts [0xC0, 0x80] (by simp))
    rw [Utf8.isValid_of_stray (by decide)] at valid
    cases valid

/-- Writing again what was read, in whatever form, gives the canonical form: it is read as the same
class, and writing that class gives the same bytes again. The input is one that memory can hold. -/
theorem toSnapshot_canonical (b : Bytes) (c : ClassFile) (addressable : b.length < 2 ^ 64)
    (read : ofSnapshot b = .ok c) :
    ofSnapshot c.toSnapshot = .ok c ∧
      (ofSnapshot c.toSnapshot).map toSnapshot = .ok c.toSnapshot := by
  obtain ⟨within, texts⟩ := of_ofSnapshot read
  have small : max b.length Cbor.maxElements + 1 ≤ 2 ^ 64 := by
    unfold Cbor.maxElements
    omega
  have again := ofSnapshot_of_texts (within.mono (Nat.le_refl _) small) texts
  rw [again]
  exact ⟨rfl, rfl⟩

/-- A tagged map of indefinite length. Its first key is in capitals; the pool has a text in two chunks
behind a number that could be shorter and before an index too many, an entry without any key, and an
absent one. Of two attributes one has its data as numbers and the other is absent. A repeated key, two
unknown ones and a version that is a bignum follow. -/
private def loose : Bytes :=
  [0xD9, 0xD9, 0xF7, 0xBF, 0x64] ++ utf8 "POOL" ++ [0x9F, 0xA3, 0x63] ++ utf8 "tag"
    ++ [0x18, 0x01, 0x64] ++ utf8 "text" ++ [0x7F, 0x61, 0x61, 0x62, 0xC3, 0xA9, 0xFF, 0x65]
    ++ utf8 "index" ++ [0x83, 0x05, 0x05, 0x05, 0xA0, 0xF6, 0xFF, 0x66] ++ utf8 "fields"
    ++ [0x81, 0xA1, 0x6A] ++ utf8 "attributes" ++ [0x82, 0xA1, 0x64] ++ utf8 "Data"
    ++ [0x83, 0x01, 0xF6, 0x18, 0xFF, 0xF6, 0x64] ++ utf8 "pool" ++ [0xF6, 0x61] ++ utf8 "x"
    ++ [0x01, 0x20, 0x01, 0x65] ++ utf8 "minor" ++ [0xC2, 0x41, 0x05, 0xFF]

theorem toSnapshot_canonical_loose :
    ∃ c, c = { minor := 5, major := 0
               pool := [.utf8 (utf8 "aé"), .unused, .unused]
               members := [⟨0, 0, 0, some [⟨0, some [1, 0, 255]⟩, ⟨0, none⟩]⟩] } ∧
      ofSnapshot loose = .ok c ∧ loose.length < 2 ^ 64 ∧ c.toSnapshot ≠ loose ∧
      ofSnapshot c.toSnapshot = .ok c := by
  have read : ofSnapshot loose = .ok
      { minor := 5, major := 0
        pool := [.utf8 (utf8 "aé"), .unused, .unused]
        members := [⟨0, 0, 0, some [⟨0, some [1, 0, 255]⟩, ⟨0, none⟩]⟩] } := by decide +kernel
  refine ⟨_, rfl, read, by decide, by decide, ?_⟩
  exact (toSnapshot_canonical loose _ (by decide) read).1

end ClassFile

end Jvm
