import Jvm.Settings
import Jvm.Proofs.Outcomes
import Mathlib.Data.List.Basic
import Mathlib.Tactic.Common

/-!
What a configuration file makes of the settings. A document assigns values to settings; of several
values for one setting the last counts, and a setting without a value keeps its default. A file is
accepted exactly if it can be read, its sections are tables, its values have the types of their
settings, it names no other key, and the settings follow the rules.
-/

set_option autoImplicit false
set_option relaxedAutoImplicit false

namespace Jvm

inductive Setting where
  | localSlots
  | maxSteps
  | trace
  | verbosity
  | logFile
  deriving DecidableEq

namespace Settings

/-! ## Keys and values -/

def settingsOf (name : String) : List (String × Setting) :=
  if name = "vm" then [("local_slots", .localSlots), ("max_steps", .maxSteps), ("trace", .trace)]
  else [("verbosity", .verbosity), ("file", .logFile)]

def sectionOf? (part : Bytes) : Option String := nameOf? ["vm", "log"] part

/-- The setting that a key of two parts spells. -/
def settingOf? (part key : Bytes) : Option Setting :=
  (sectionOf? part).bind fun name =>
    (nameOf? ((settingsOf name).map Prod.fst) key).bind fun key => (settingsOf name).lookup key

def assignedIn (spells : Bytes -> Option Setting) (t : Toml.Table) : List (Setting × Toml.Value) :=
  t.filterMap fun entry => (spells entry.1).map fun x => (x, entry.2)

def keysIn (spells : Bytes -> Option Setting) (above : Toml.Key) (t : Toml.Table) : List Toml.Key :=
  (t.filter fun entry => (spells entry.1).isSome).map fun entry => above ++ [entry.1]

def assignments (root : Toml.Table) : List (Setting × Toml.Value) :=
  root.flatMap fun entry =>
    match sectionOf? entry.1, entry.2 with
    | some _, .table t => assignedIn (settingOf? entry.1) t
    | _, _ => []

def knownKeys (root : Toml.Table) : List Toml.Key :=
  root.flatMap fun entry =>
    match sectionOf? entry.1, entry.2 with
    | some _, .table t => [entry.1] :: keysIn (settingOf? entry.1) [entry.1] t
    | _, _ => []

def valuesOf (x : Setting) (l : List (Setting × Toml.Value)) : List Toml.Value :=
  (l.filter fun assigned => assigned.1 = x).map Prod.snd

/-- Values of one type, of which the last counts; without any it is the default. -/
def LastOf {α : Type} (wrap : α -> Toml.Value) (values : List Toml.Value) (default a : α) : Prop :=
  ∃ given : List α, values = given.map wrap ∧ a = given.getLastD default

def Valid (s : Settings) : Prop := 2 ≤ s.localSlots ∧ 0 ≤ s.maxSteps

@[mk_iff]
structure Leads (l : List (Setting × Toml.Value)) (s s' : Settings) : Prop where
  localSlots : LastOf .integer (valuesOf .localSlots l) s.localSlots s'.localSlots
  maxSteps : LastOf .integer (valuesOf .maxSteps l) s.maxSteps s'.maxSteps
  trace : LastOf .boolean (valuesOf .trace l) s.trace s'.trace
  verbosity : LastOf .integer (valuesOf .verbosity l) s.verbosity s'.verbosity
  logFile : LastOf .string (valuesOf .logFile l) s.logFile s'.logFile

/-- The sections of a document are tables, and its assignments lead from the defaults to the settings. -/
structure Decodes (root : Toml.Table) (s : Settings) : Prop where
  tables : ∀ entry ∈ root, (sectionOf? entry.1).isSome → ∃ t, entry.2 = .table t
  leads : Leads (assignments root) default s

/-! ## Assigning -/

def set? (s : Settings) : Setting × Toml.Value -> Option Settings
  | (.localSlots, .integer n) => some { s with localSlots := n }
  | (.maxSteps, .integer n) => some { s with maxSteps := n }
  | (.trace, .boolean b) => some { s with trace := b }
  | (.verbosity, .integer n) => some { s with verbosity := n }
  | (.logFile, .string text) => some { s with logFile := text }
  | _ => none

variable {s s' : Settings}

theorem lastOf_nil_iff {α : Type} {wrap : α -> Toml.Value} {default a : α} :
    LastOf wrap [] default a ↔ a = default := by
  simp [LastOf]

theorem lastOf_cons_iff {α : Type} {wrap : α -> Toml.Value} {v : Toml.Value} {values : List Toml.Value}
    {default a : α} :
    LastOf wrap (v :: values) default a ↔ ∃ x, v = wrap x ∧ LastOf wrap values x a := by
  constructor
  · rintro ⟨_ | ⟨x, given⟩, same, rfl⟩
    · cases same
    · obtain ⟨rfl, rfl⟩ := List.cons.inj same
      exact ⟨x, rfl, given, rfl, List.getLastD_cons ..⟩
  · rintro ⟨x, rfl, given, rfl, rfl⟩
    exact ⟨x :: given, rfl, (List.getLastD_cons ..).symm⟩

theorem valuesOf_cons (x y : Setting) (v : Toml.Value) (l : List (Setting × Toml.Value)) :
    valuesOf x ((y, v) :: l) = if y = x then v :: valuesOf x l else valuesOf x l := by
  by_cases same : y = x <;> simp [valuesOf, same]

theorem leads_cons_iff {assigned : Setting × Toml.Value} {l : List (Setting × Toml.Value)} :
    Leads (assigned :: l) s s' ↔ ∃ t, s.set? assigned = some t ∧ Leads l t s' := by
  obtain ⟨x, v⟩ := assigned
  cases x <;> simp only [leads_iff, valuesOf_cons, lastOf_cons_iff, reduceCtorEq, if_true, if_false] <;>
    cases v <;> simp [set?]

theorem foldlM_set?_eq_some_iff {l : List (Setting × Toml.Value)} :
    l.foldlM set? s = some s' ↔ Leads l s s' := by
  induction l generalizing s with
  | nil =>
    constructor
    · intro same
      cases same
      exact ⟨lastOf_nil_iff.mpr rfl, lastOf_nil_iff.mpr rfl, lastOf_nil_iff.mpr rfl,
        lastOf_nil_iff.mpr rfl, lastOf_nil_iff.mpr rfl⟩
    · rintro ⟨slots, steps, trace, verbosity, file⟩
      obtain ⟨_, _, _, _, _⟩ := s'
      cases lastOf_nil_iff.mp slots
      cases lastOf_nil_iff.mp steps
      cases lastOf_nil_iff.mp trace
      cases lastOf_nil_iff.mp verbosity
      cases lastOf_nil_iff.mp file
      rfl
  | cons assigned l ih =>
    rw [leads_cons_iff, List.foldlM_cons]
    simp only [Option.bind_eq_bind, Option.bind_eq_some_iff, ih]

/-! ## Tables -/

theorem mem_of_nameOf? {names : List String} {part : Bytes} {name : String}
    (spelled : nameOf? names part = some name) : name ∈ names := by
  unfold nameOf? at spelled
  split at spelled
  · rename_i found
    cases spelled
    exact List.mem_of_find?_eq_some found
  · exact List.mem_of_find?_eq_some spelled

theorem setEntries_eq {names : List String} {set : Settings -> String -> Toml.Value -> Option Settings}
    {spells : Bytes -> Option Setting} (above : Toml.Key)
    (other : ∀ part, nameOf? names part = none → spells part = none)
    (named : ∀ part name, nameOf? names part = some name →
      ∃ x, spells part = some x ∧ ∀ s v, set s name v = s.set? (x, v))
    (s : Settings) (t : Toml.Table) :
    setEntries names set above s t =
      ((assignedIn spells t).foldlM set? s).map fun s' => (s', keysIn spells above t) := by
  induction t generalizing s with
  | nil => rfl
  | cons entry rest ih =>
    obtain ⟨part, v⟩ := entry
    cases spelled : nameOf? names part with
    | none => simp [setEntries, spelled, ih, assignedIn, keysIn, other part spelled]
    | some name =>
      obtain ⟨x, isSetting, sets⟩ := named part name spelled
      simp only [setEntries, spelled, sets, assignedIn, keysIn, isSetting, List.filterMap_cons,
        Option.map_some, List.foldlM_cons]
      cases s.set? (x, v) with
      | none => rfl
      | some s₁ => simp [ih, assignedIn, keysIn, isSetting, Function.comp_def]

theorem setEntries_settingsOf {part : Bytes} {name : String}
    {set : Settings -> String -> Toml.Value -> Option Settings}
    (spelled : sectionOf? part = some name)
    (sets : ∀ key x, (key, x) ∈ settingsOf name →
      (settingsOf name).lookup key = some x ∧ ∀ s v, set s key v = s.set? (x, v))
    (s : Settings) (t : Toml.Table) :
    setEntries ((settingsOf name).map Prod.fst) set [part] s t =
      ((assignedIn (settingOf? part) t).foldlM set? s).map fun s' =>
        (s', keysIn (settingOf? part) [part] t) := by
  have spells (key : Bytes) : settingOf? part key =
      (nameOf? ((settingsOf name).map Prod.fst) key).bind fun key => (settingsOf name).lookup key := by
    rw [settingOf?, spelled]
    rfl
  refine setEntries_eq [part] ?_ ?_ s t
  · intro key unnamed
    rw [spells, unnamed]
    rfl
  · intro key setting named
    obtain ⟨⟨_, x⟩, listed, rfl⟩ := List.mem_map.mp (mem_of_nameOf? named)
    obtain ⟨found, same⟩ := sets _ x listed
    refine ⟨x, ?_, same⟩
    rw [spells, named]
    exact found

theorem setSection_eq {part : Bytes} {name : String} (spelled : sectionOf? part = some name)
    (s : Settings) (t : Toml.Table) :
    setSection s name part t = ((assignedIn (settingOf? part) t).foldlM set? s).map fun s' =>
      (s', keysIn (settingOf? part) [part] t) := by
  have either : name = "vm" ∨ name = "log" := by simpa using mem_of_nameOf? spelled
  rcases either with rfl | rfl
  · refine setEntries_settingsOf spelled ?_ s t
    intro key x listed
    simp only [settingsOf, if_true, List.mem_cons, Prod.mk.injEq, List.not_mem_nil, or_false] at listed
    rcases listed with ⟨rfl, rfl⟩ | ⟨rfl, rfl⟩ | ⟨rfl, rfl⟩ <;>
      exact ⟨rfl, fun s v => by cases v <;> rfl⟩
  · refine setEntries_settingsOf spelled ?_ s t
    intro key x listed
    have other : ("log" : String) ≠ "vm" := by decide
    simp only [settingsOf, if_neg other, List.mem_cons, Prod.mk.injEq, List.not_mem_nil, or_false]
      at listed
    rcases listed with ⟨rfl, rfl⟩ | ⟨rfl, rfl⟩ <;>
      exact ⟨rfl, fun s v => by cases v <;> rfl⟩

theorem setSections_of_table {part : Bytes} {name : String} (spelled : sectionOf? part = some name)
    (s : Settings) (t rest : Toml.Table) :
    setSections s ((part, .table t) :: rest) = (setSection s name part t).bind fun r =>
      (setSections r.1 rest).map fun r' => (r'.1, [part] :: r.2 ++ r'.2) := by
  rw [sectionOf?] at spelled
  simp only [setSections, spelled]
  cases setSection s name part t <;> rfl

theorem setSections_of_other {part : Bytes} {v : Toml.Value} (spelled : (sectionOf? part).isSome)
    (other : ∀ t, v ≠ .table t) (s : Settings) (rest : Toml.Table) :
    setSections s ((part, v) :: rest) = none := by
  obtain ⟨name, spelled⟩ := Option.isSome_iff_exists.mp spelled
  rw [sectionOf?] at spelled
  unfold setSections
  rw [spelled]
  cases v with
  | table t => exact (other t rfl).elim
  | _ => rfl

theorem setSections_eq_some_iff {root : Toml.Table} {known : List Toml.Key} :
    setSections s root = some (s', known) ↔
      (∀ entry ∈ root, (sectionOf? entry.1).isSome → ∃ t, entry.2 = .table t) ∧
        (assignments root).foldlM set? s = some s' ∧ known = knownKeys root := by
  induction root generalizing s s' known with
  | nil =>
    constructor
    · intro same
      cases same
      exact ⟨by simp, rfl, rfl⟩
    · rintro ⟨_, same, rfl⟩
      cases same
      rfl
  | cons entry rest ih =>
    obtain ⟨part, v⟩ := entry
    rw [List.forall_mem_cons]
    cases spelled : sectionOf? part with
    | none =>
      have skipped : setSections s ((part, v) :: rest) = setSections s rest := by
        rw [sectionOf?] at spelled
        simp only [setSections, spelled]
      rw [skipped, ih]
      simp [assignments, knownKeys, spelled]
    | some name =>
      by_cases isTable : ∃ t, v = .table t
      · obtain ⟨t, rfl⟩ := isTable
        have front : assignments ((part, .table t) :: rest) =
            assignedIn (settingOf? part) t ++ assignments rest := by
          simp [assignments, spelled]
        have keys : knownKeys ((part, .table t) :: rest) =
            [part] :: keysIn (settingOf? part) [part] t ++ knownKeys rest := by
          simp [knownKeys, spelled]
        rw [setSections_of_table spelled, setSection_eq spelled, front, keys, List.foldlM_append]
        cases (assignedIn (settingOf? part) t).foldlM set? s with
        | none => simp
        | some s₁ =>
          simp only [Option.map_some, Option.bind_some, Option.bind_eq_bind, Option.map_eq_some_iff,
            Prod.exists, ih, Prod.mk.injEq]
          constructor
          · rintro ⟨_, _, ⟨tables, leads, rfl⟩, rfl, rfl⟩
            exact ⟨⟨fun _ => ⟨t, rfl⟩, tables⟩, leads, rfl⟩
          · rintro ⟨⟨_, tables⟩, leads, rfl⟩
            exact ⟨s', knownKeys rest, ⟨tables, leads, rfl⟩, rfl, rfl⟩
      · have refused := setSections_of_other (Option.isSome_iff_exists.mpr ⟨name, spelled⟩)
          (fun t same => isTable ⟨t, same⟩) s rest
        rw [refused]
        constructor
        · intro none
          cases none
        · rintro ⟨⟨table, _⟩, _⟩
          exact (isTable (table rfl)).elim

theorem setSections_default_iff {root : Toml.Table} {known : List Toml.Key} :
    setSections default root = some (s, known) ↔ Decodes root s ∧ known = knownKeys root := by
  rw [setSections_eq_some_iff, foldlM_set?_eq_some_iff]
  constructor
  · rintro ⟨tables, leads, same⟩
    exact ⟨⟨tables, leads⟩, same⟩
  · rintro ⟨⟨tables, leads⟩, same⟩
    exact ⟨tables, leads, same⟩

theorem Decodes.unique {root : Toml.Table} (one : Decodes root s) (two : Decodes root s') : s = s' := by
  have first := setSections_default_iff.mpr ⟨one, rfl⟩
  have second := setSections_default_iff.mpr ⟨two, rfl⟩
  exact (Prod.mk.inj (Option.some.inj (first.symm.trans second))).1

/-! ## Files -/

theorem validate_eq_ok_iff : s.validate = .ok () ↔ s.Valid := by
  unfold validate Valid
  split_ifs with few negative
  · simp only [false_iff]
    omega
  · simp only [false_iff]
    omega
  · simp only [true_iff]
    omega

inductive Accepted (files : FileSystem) (path : Bytes) (s : Settings) : Prop
  | intro {text : Bytes} {d : Toml.Document} (read : files.read path = .ok text)
    (document : Toml.document? text = some d) (decodes : Decodes d.root s)
    (known : ∀ key ∈ d.keys, key ∈ knownKeys d.root) (valid : s.Valid)

inductive Refused (files : FileSystem) (path : Bytes) : Prop
  | unreadable {e : FileError} (read : files.read path = .error e)
  | malformed {text : Bytes} (read : files.read path = .ok text)
    (document : Toml.document? text = none)
  /-- a section is no table, or a value is not of the type of its setting -/
  | mistyped {text : Bytes} {d : Toml.Document} (read : files.read path = .ok text)
    (document : Toml.document? text = some d) (undecoded : ∀ s, ¬ Decodes d.root s)
  | unknownKey {text : Bytes} {d : Toml.Document} {key : Toml.Key} (read : files.read path = .ok text)
    (document : Toml.document? text = some d) (named : key ∈ d.keys)
    (unknown : key ∉ knownKeys d.root)
  | invalid {text : Bytes} {d : Toml.Document} {s : Settings} (read : files.read path = .ok text)
    (document : Toml.document? text = some d) (decodes : Decodes d.root s) (broken : ¬ s.Valid)

variable {files : FileSystem} {path : Bytes}

theorem accepted_or_refused (files : FileSystem) (path : Bytes) :
    (∃ s, Accepted files path s) ∨ Refused files path := by
  cases read : files.read path with
  | error e => exact .inr (.unreadable read)
  | ok text =>
    cases document : Toml.document? text with
    | none => exact .inr (.malformed read document)
    | some d =>
      by_cases decodable : ∃ s, Decodes d.root s
      · obtain ⟨s, decodes⟩ := decodable
        by_cases known : ∀ key ∈ d.keys, key ∈ knownKeys d.root
        · by_cases valid : s.Valid
          · exact .inl ⟨s, read, document, decodes, known, valid⟩
          · exact .inr (.invalid read document decodes valid)
        · push Not at known
          obtain ⟨key, named, unknown⟩ := known
          exact .inr (.unknownKey read document named unknown)
      · exact .inr (.mistyped read document fun s decodes => decodable ⟨s, decodes⟩)

theorem ofText_eq_ok_iff {text : Bytes} :
    ofText path text = .ok s ↔ ∃ d, Toml.document? text = some d ∧ Decodes d.root s ∧
      (∀ key ∈ d.keys, key ∈ knownKeys d.root) ∧ s.Valid := by
  unfold ofText
  cases Toml.document? text with
  | none => simp
  | some d =>
    cases decoded : setSections default d.root with
    | none =>
      have undecoded : ¬ Decodes d.root s := by
        intro decodes
        rw [setSections_default_iff.mpr ⟨decodes, rfl⟩] at decoded
        cases decoded
      simp [decoded, undecoded]
    | some r =>
      obtain ⟨s₁, known⟩ := r
      obtain ⟨decodes, rfl⟩ := setSections_default_iff.mp decoded
      have settled : Decodes d.root s ↔ s₁ = s :=
        ⟨fun decodes' => decodes.unique decodes', fun same => same ▸ decodes⟩
      simp only [Option.bind_some, decoded, Option.map_some, Option.some.injEq, exists_eq_left', settled]
      have allKnown : (d.keys.find? fun key => !(knownKeys d.root).contains key) = none ↔
          ∀ key ∈ d.keys, key ∈ knownKeys d.root := by
        simp
      cases unknown : d.keys.find? fun key => !(knownKeys d.root).contains key with
      | some key =>
        constructor
        · intro accepted
          cases accepted
        · rintro ⟨_, known, _⟩
          cases unknown.symm.trans (allKnown.mpr known)
      | none =>
        cases checked : s₁.validate with
        | ok _ =>
          constructor
          · intro accepted
            cases accepted
            exact ⟨rfl, allKnown.mp unknown, validate_eq_ok_iff.mp checked⟩
          · rintro ⟨rfl, _, _⟩
            rfl
        | error e =>
          constructor
          · intro accepted
            cases accepted
          · rintro ⟨rfl, _, valid⟩
            cases checked.symm.trans (validate_eq_ok_iff.mpr valid)

theorem load_eq_ok_iff : load files path = .ok s ↔ Accepted files path s := by
  unfold load
  cases read : files.read path with
  | error e =>
    constructor
    · intro loaded
      cases loaded
    · rintro ⟨read', _⟩
      cases read.symm.trans read'
  | ok text =>
    constructor
    · intro loaded
      obtain ⟨d, document, decodes, known, valid⟩ := ofText_eq_ok_iff.mp loaded
      exact ⟨read, document, decodes, known, valid⟩
    · rintro ⟨read', document, decodes, known, valid⟩
      cases read.symm.trans read'
      exact ofText_eq_ok_iff.mpr ⟨_, document, decodes, known, valid⟩

theorem Refused.not_accepted (refused : Refused files path) : ¬ Accepted files path s := by
  rintro ⟨read, document, decodes, known, valid⟩
  cases refused with
  | unreadable read' => cases read.symm.trans read'
  | malformed read' document' =>
    cases read.symm.trans read'
    cases document.symm.trans document'
  | mistyped read' document' undecoded =>
    cases read.symm.trans read'
    cases document.symm.trans document'
    exact undecoded s decodes
  | unknownKey read' document' named unknown =>
    cases read.symm.trans read'
    cases document.symm.trans document'
    exact unknown (known _ named)
  | invalid read' document' decodes' broken =>
    cases read.symm.trans read'
    cases document.symm.trans document'
    exact broken (decodes.unique decodes' ▸ valid)

theorem refused_iff : Refused files path ↔ ∃ e, load files path = .error e := by
  constructor
  · intro refused
    cases loaded : load files path with
    | ok s => exact (refused.not_accepted (load_eq_ok_iff.mp loaded)).elim
    | error e => exact ⟨e, rfl⟩
  · rintro ⟨e, failed⟩
    rcases accepted_or_refused files path with ⟨s, accepted⟩ | refused
    · cases failed.symm.trans (load_eq_ok_iff.mpr accepted)
    · exact refused

end Settings

end Jvm
