import Jvm.ClassPath
import Mathlib

/-!
Loading through a loader that remembers. As long as the files stay as they are, whatever was loaded
or could not be loaded before, an answer is that of a loader that has not loaded anything. A class
that has been loaded stays what it is, also when the files change; a failure is not remembered.
-/

set_option autoImplicit false
set_option relaxedAutoImplicit false

namespace Jvm

/-! ## Archives -/

namespace Zip

variable {files : FileSystem} {path name data : Bytes} {z : Zip}

/-- The first entry with one of the names decides, also when it cannot be read. -/
theorem loadClass_of_first {before after : List ZipEntry} {e : ZipEntry}
    (order : z.entries = before ++ e :: after) (named : e.name ∈ entryNames name)
    (earlier : ∀ e' ∈ before, e'.name ∉ entryNames name) :
    z.loadClass path name = z.readClass name e := by
  have found : (z.entries.find? fun e => (entryNames name).contains e.name) = some e := by
    rw [order, List.find?_append, List.find?_eq_none.mpr, Option.none_or, List.find?_cons_of_pos]
    · simpa using named
    · intro e' member
      simpa using earlier e' member
  rw [loadClass, found]

theorem loadClass_of_absent (absent : ∀ e ∈ z.entries, e.name ∉ entryNames name) :
    z.loadClass path name = .error (.notFound name path) := by
  have nothing : (z.entries.find? fun e => (entryNames name).contains e.name) = none := by
    apply List.find?_eq_none.mpr
    intro e member
    simpa using absent e member
  rw [loadClass, nothing]

theorem load_of_magic (content : files.read path = .ok (moduleMagic ++ data)) :
    load files path = (ofBytes data).mapError (.malformedArchive path) := by
  have marked : moduleMagic.isPrefixOf (moduleMagic ++ data) = true := by
    simp [List.isPrefixOf_iff_prefix]
  simp only [load, content, withoutMagic, marked, if_true, List.drop_left]

theorem load_of_plain (content : files.read path = .ok data) (plain : ¬ moduleMagic <+: data) :
    load files path = (ofBytes data).mapError (.malformedArchive path) := by
  have unmarked : ¬ moduleMagic.isPrefixOf data = true := by
    rwa [List.isPrefixOf_iff_prefix]
  simp only [load, content, withoutMagic, if_neg unmarked]

end Zip

namespace ClassLoader

variable {l : ClassLoader} {files files' : FileSystem} {path name name' : Bytes} {c : ClassFile}

/-! ## One call -/

/-- The answer of a loader that has not loaded anything. -/
def fresh (files : FileSystem) (path name : Bytes) : Except LoadError ClassFile :=
  ((ofPath path).load files name).1

/-- All that a call can come to: the class is there, or it cannot be read, or it is read now. -/
inductive LoadCase (l : ClassLoader) (files : FileSystem) (name : Bytes) : Prop
  | held (c : ClassFile) (held : l.loaded.lookup name = some c)
    (outcome : l.load files name = (.ok c, l))
  | failed (e : LoadError) (new : l.loaded.lookup name = none)
    (failed : (l.read files name).1 = .error e)
    (outcome : l.load files name = (.error e, (l.read files name).2))
  | obtained (c : ClassFile) (new : l.loaded.lookup name = none)
    (obtained : (l.read files name).1 = .ok c)
    (outcome : l.load files name =
      (.ok c, { (l.read files name).2 with loaded := (name, c) :: (l.read files name).2.loaded }))

theorem load_case (l : ClassLoader) (files : FileSystem) (name : Bytes) : LoadCase l files name := by
  cases held : l.loaded.lookup name with
  | some c => exact .held c held (by rw [load, held])
  | none =>
    obtain ⟨answer, l', outcome⟩ : ∃ answer l', l.read files name = (answer, l') := ⟨_, _, rfl⟩
    cases answer with
    | error e => exact .failed e held (by rw [outcome]) (by rw [load, held, outcome])
    | ok c => exact .obtained c held (by rw [outcome]) (by rw [load, held, outcome])

theorem read_loader (l : ClassLoader) (files : FileSystem) (name : Bytes) :
    (l.read files name).2 = l ∨
      ∃ z, l.kind = .archive ∧ l.openArchive files = .ok z ∧
        (l.read files name).2 = { l with archive := some z } := by
  unfold read
  cases kind : l.kind with
  | directory => exact .inl rfl
  | archive =>
    cases opened : l.openArchive files with
    | error e => exact .inl rfl
    | ok z => exact .inr ⟨z, rfl, rfl, rfl⟩

theorem read_loaded (l : ClassLoader) (files : FileSystem) (name : Bytes) :
    (l.read files name).2.loaded = l.loaded := by
  rcases l.read_loader files name with same | ⟨z, _, _, opened⟩
  · rw [same]
  · rw [opened]

theorem read_path (l : ClassLoader) (files : FileSystem) (name : Bytes) :
    (l.read files name).2.path = l.path := by
  rcases l.read_loader files name with same | ⟨z, _, _, opened⟩
  · rw [same]
  · rw [opened]

theorem load_path (l : ClassLoader) (files : FileSystem) (name : Bytes) :
    (l.load files name).2.path = l.path := by
  cases l.load_case files name with
  | held c held outcome => rw [outcome]
  | failed e new failed outcome =>
    rw [outcome]
    exact l.read_path files name
  | obtained c new obtained outcome =>
    rw [outcome]
    exact l.read_path files name

theorem fresh_eq_read (files : FileSystem) (path name : Bytes) :
    fresh files path name = ((ofPath path).read files name).1 := by
  unfold fresh
  cases (ofPath path).load_case files name with
  | held c held outcome => cases held
  | failed e new failed outcome => rw [outcome, failed]
  | obtained c new obtained outcome => rw [outcome, obtained]

theorem fresh_of_opened {z : Zip} (kind : ClassPathKind.ofPath path = .archive)
    (opened : Zip.load files path = .ok z) : fresh files path name = z.loadClass path name := by
  have isArchive : (ofPath path).kind = .archive := kind
  have isOpen : (ofPath path).openArchive files = .ok z := opened
  rw [fresh_eq_read, read, isArchive]
  dsimp only
  rw [isOpen]
  rfl

theorem fresh_of_unopened {e : LoadError} (kind : ClassPathKind.ofPath path = .archive)
    (unopened : Zip.load files path = .error e) : fresh files path name = .error e := by
  have isArchive : (ofPath path).kind = .archive := kind
  have isShut : (ofPath path).openArchive files = .error e := unopened
  rw [fresh_eq_read, read, isArchive]
  dsimp only
  rw [isShut]

/-! ## Unchanged files -/

/-- All that a loader remembers is what the files say. -/
structure Faithful (files : FileSystem) (l : ClassLoader) : Prop where
  loaded : ∀ name c, l.loaded.lookup name = some c → fresh files l.path name = .ok c
  archive : ∀ z, l.archive = some z → Zip.load files l.path = .ok z

theorem faithful_ofPath (files : FileSystem) (path : Bytes) : Faithful files (ofPath path) where
  loaded := by
    intro name c held
    cases held
  archive := by
    intro z opened
    cases opened

namespace Faithful

theorem openArchive_eq (faithful : Faithful files l) :
    l.openArchive files = Zip.load files l.path := by
  unfold openArchive
  cases opened : l.archive with
  | none => rfl
  | some z => exact (faithful.archive z opened).symm

theorem read_answer (faithful : Faithful files l) : (l.read files name).1 = fresh files l.path name := by
  -- Reading looks at the kind and the archive only, and a fresh loader has the same ones.
  have sameKind : (ofPath l.path).kind = l.kind := rfl
  have sameArchive : (ofPath l.path).openArchive files = l.openArchive files := by
    rw [faithful.openArchive_eq, (faithful_ofPath files l.path).openArchive_eq]
    rfl
  rw [fresh_eq_read, read, read, sameKind, sameArchive]
  cases l.kind with
  | directory => rfl
  | archive =>
    cases l.openArchive files with
    | error e => rfl
    | ok z => rfl

theorem read (faithful : Faithful files l) : Faithful files (l.read files name).2 := by
  rcases l.read_loader files name with same | ⟨z, _, opened, kept⟩
  · rwa [same]
  · rw [faithful.openArchive_eq] at opened
    rw [kept]
    refine ⟨faithful.loaded, ?_⟩
    intro z' same
    cases same
    exact opened

theorem load_answer (faithful : Faithful files l) :
    (l.load files name).1 = fresh files l.path name := by
  cases l.load_case files name with
  | held c held outcome => rw [outcome, faithful.loaded name c held]
  | failed e new failed outcome => rw [outcome, ← failed, faithful.read_answer]
  | obtained c new obtained outcome => rw [outcome, ← obtained, faithful.read_answer]

theorem load (faithful : Faithful files l) : Faithful files (l.load files name).2 := by
  have before : Faithful files (l.read files name).2 := faithful.read
  cases l.load_case files name with
  | held c held outcome => rwa [outcome]
  | failed e new failed outcome => rwa [outcome]
  | obtained c new obtained outcome =>
    rw [outcome]
    refine ⟨?_, before.archive⟩
    intro name' c' held
    -- The only new class is the one that was read just now.
    dsimp only at held ⊢
    rw [List.lookup_cons] at held
    by_cases same : name' = name
    · subst same
      rw [beq_self_eq_true] at held
      cases held
      rw [l.read_path, ← obtained]
      exact faithful.read_answer.symm
    · rw [beq_false_of_ne same] at held
      exact before.loaded name' c' held

end Faithful

/-! ## Sequences of calls -/

def after (l : ClassLoader) : List (FileSystem × Bytes) -> ClassLoader
  | [] => l
  | (files, name) :: calls => (l.load files name).2.after calls

theorem Faithful.after (faithful : Faithful files l) (names : List Bytes) :
    Faithful files (l.after (names.map (files, ·))) := by
  induction names generalizing l with
  | nil => exact faithful
  | cons name names ih => exact ih faithful.load

theorem after_path (l : ClassLoader) (calls : List (FileSystem × Bytes)) :
    (l.after calls).path = l.path := by
  induction calls generalizing l with
  | nil => rfl
  | cons call calls ih =>
    obtain ⟨files, name⟩ := call
    exact (ih _).trans (l.load_path files name)

theorem lookup_load (held : l.loaded.lookup name = some c) :
    (l.load files name').2.loaded.lookup name = some c := by
  have kept : (l.read files name').2.loaded.lookup name = some c := by rwa [l.read_loaded]
  cases l.load_case files name' with
  | held c' held' outcome => rwa [outcome]
  | failed e new failed outcome => rwa [outcome]
  | obtained c' new obtained outcome =>
    have other : name ≠ name' := by
      rintro rfl
      rw [held] at new
      cases new
    rw [outcome, List.lookup_cons, beq_false_of_ne other]
    exact kept

theorem lookup_after (calls : List (FileSystem × Bytes)) (held : l.loaded.lookup name = some c) :
    (l.after calls).loaded.lookup name = some c := by
  induction calls generalizing l with
  | nil => exact held
  | cons call calls ih => exact ih (lookup_load held)

theorem load_of_held (held : l.loaded.lookup name = some c) : l.load files name = (.ok c, l) := by
  rw [load, held]

theorem lookup_of_loaded (answered : (l.load files name).1 = .ok c) :
    (l.load files name).2.loaded.lookup name = some c := by
  cases l.load_case files name with
  | held c' held outcome =>
    rw [outcome] at answered ⊢
    cases answered
    exact held
  | failed e new failed outcome =>
    rw [outcome] at answered
    cases answered
  | obtained c' new obtained outcome =>
    rw [outcome] at answered ⊢
    cases answered
    rw [List.lookup_cons, beq_self_eq_true]

theorem load_of_failed {e : LoadError} (failed : (l.load files name).1 = .error e) :
    l.loaded.lookup name = none ∧ (l.load files name).2.loaded = l.loaded ∧
      ((l.load files name).2 = l ∨
        ∃ z, l.kind = .archive ∧ l.openArchive files = .ok z ∧
          (l.load files name).2 = { l with archive := some z }) := by
  cases l.load_case files name with
  | held c held outcome =>
    rw [outcome] at failed
    cases failed
  | failed e' new _ outcome =>
    rw [outcome]
    exact ⟨new, l.read_loaded files name, l.read_loader files name⟩
  | obtained c new obtained outcome =>
    rw [outcome] at failed
    cases failed

/-- What a loader remembers cannot be seen. Over files that do not change, after any calls, an answer
is that of a fresh loader. A failure is not remembered: the classes that are kept stay the same and the
name is not among them. A class that was loaded is the answer from then on, whatever happens to the
files. In an archive the first entry of one of the two names of a class decides, and the magic of
modules in front of an archive makes no difference. -/
theorem cache_invisible (path : Bytes) :
    (∀ (files : FileSystem) (names : List Bytes) (name : Bytes),
      (((ofPath path).after (names.map (files, ·))).load files name).1 = fresh files path name) ∧
    (∀ (l : ClassLoader) files name e, (l.load files name).1 = .error e →
      l.loaded.lookup name = none ∧ (l.load files name).2.loaded = l.loaded ∧
        ((l.load files name).2 = l ∨
          ∃ z, l.kind = .archive ∧ l.openArchive files = .ok z ∧
            (l.load files name).2 = { l with archive := some z })) ∧
    (∀ (l : ClassLoader) files name c, (l.load files name).1 = .ok c →
      ∀ calls files', (((l.load files name).2.after calls).load files' name).1 = .ok c) ∧
    (ClassPathKind.ofPath path = .archive →
      (∀ files z name, Zip.load files path = .ok z →
        (∀ before e after, z.entries = before ++ e :: after → e.name ∈ Zip.entryNames name →
          (∀ e' ∈ before, e'.name ∉ Zip.entryNames name) →
          fresh files path name = z.readClass name e) ∧
        ((∀ e ∈ z.entries, e.name ∉ Zip.entryNames name) →
          fresh files path name = .error (.notFound name path))) ∧
      (∀ files files' data name, files.read path = .ok (Zip.moduleMagic ++ data) →
        Zip.load files path = (Zip.ofBytes data).mapError (.malformedArchive path) ∧
        (files'.read path = .ok data → ¬ Zip.moduleMagic <+: data →
          fresh files path name = fresh files' path name))) := by
  refine ⟨?_, ?_, ?_, ?_⟩
  · intro files names name
    have faithful := (faithful_ofPath files path).after names
    rw [faithful.load_answer, after_path]
    rfl
  · intro l files name e failed
    exact load_of_failed failed
  · intro l files name c answered calls files'
    rw [load_of_held (lookup_after calls (lookup_of_loaded answered))]
  · intro kind
    refine ⟨?_, ?_⟩
    · intro files z name opened
      rw [fresh_of_opened kind opened]
      exact ⟨fun before e after => Zip.loadClass_of_first, Zip.loadClass_of_absent⟩
    · intro files files' data name marked
      have opens := Zip.load_of_magic marked
      refine ⟨opens, ?_⟩
      intro content plain
      have opens' := Zip.load_of_plain content plain
      rw [← opens'] at opens
      cases opened : Zip.load files' path with
      | error e =>
        rw [opened] at opens
        rw [fresh_of_unopened kind opens, fresh_of_unopened kind opened]
      | ok z =>
        rw [opened] at opens
        rw [fresh_of_opened kind opens, fresh_of_opened kind opened]

private def storedEntry (name content : Bytes) : Bytes × (UInt8 -> Bytes) :=
  let sizes : Bytes := [content.length.toUInt8, 0, 0, 0, content.length.toUInt8, 0, 0, 0,
    name.length.toUInt8, 0, 0, 0]
  (utf8 "PK" ++ [3, 4, 20, 0] ++ List.replicate 12 0 ++ sizes ++ name ++ content,
    fun header => utf8 "PK" ++ [1, 2, 20, 0, 20, 0] ++ List.replicate 12 0 ++ sizes
      ++ List.replicate 10 0 ++ [header, 0, 0, 0] ++ name)

private def emptyClass : Bytes :=
  [0xCA, 0xFE, 0xBA, 0xBE, 0, 0, 0, 52, 0, 1] ++ List.replicate 12 0

private def twoEntries : Bytes :=
  let first := storedEntry (utf8 "classes/A.class") emptyClass
  let second := storedEntry (utf8 "A.class") []
  first.1 ++ second.1 ++ first.2 0 ++ second.2 67
    ++ utf8 "PK" ++ [5, 6, 0, 0, 0, 0, 2, 0, 2, 0, 114, 0, 0, 0, 104, 0, 0, 0, 0, 0]

private def firstEntry : ZipEntry := ⟨utf8 "classes/A.class", 0, 0, 0, 22, 22, 0⟩

private def secondEntry : ZipEntry := ⟨utf8 "A.class", 0, 0, 0, 0, 0, 67⟩

private def twoEntriesZip : Zip := ⟨twoEntries, 0, [firstEntry, secondEntry]⟩

set_option maxRecDepth 2000 in
private theorem ofBytes_twoEntries : Zip.ofBytes twoEntries = .ok twoEntriesZip := by
  have found : Zip.findEnd twoEntries.reverse [] 0 = some (218, twoEntries.drop 218) := by cbv
  have ending : Zip.readEnd twoEntries = .ok ⟨218, 2, 114, 104⟩ := by
    rw [Zip.readEnd, found]
    cbv
  have directory : Zip.readDirectory twoEntries ⟨218, 2, 114, 104⟩ =
      (0, [firstEntry, secondEntry], .truncated) := by cbv
  rw [Zip.ofBytes, ending]
  simp only [bind, Except.bind, directory]
  rfl

private def modules : FileSystem where
  find path := if path = utf8 "m.jmod" then .ok (.file (Zip.moduleMagic ++ twoEntries))
    else .error .notExist

private def nothing : FileSystem where
  find _ := .error .notExist

set_option maxRecDepth 2000 in
/-- Behind a magic the first of two entries is the class. It is loaded after another one was not found
and stays when the archive is gone, which a fresh loader then does not open any more. -/
theorem cache_invisible_module :
    ∃ c, (((ofPath (utf8 "m.jmod")).after [(modules, utf8 "B")]).load modules (utf8 "A")).1 = .ok c ∧
      twoEntriesZip.readClass (utf8 "A") firstEntry = .ok c ∧
      (((ofPath (utf8 "m.jmod")).after [(modules, utf8 "B"), (modules, utf8 "A")]).load nothing
        (utf8 "A")).1 = .ok c ∧
      fresh nothing (utf8 "m.jmod") (utf8 "A") = .error (.archive ⟨utf8 "m.jmod", .notExist⟩) := by
  obtain ⟨unchanged, _, kept, archive⟩ := cache_invisible (utf8 "m.jmod")
  have kind : ClassPathKind.ofPath (utf8 "m.jmod") = .archive := by cbv
  obtain ⟨decides, marked⟩ := archive kind
  have opened : Zip.load modules (utf8 "m.jmod") = .ok twoEntriesZip := by
    rw [(marked modules modules twoEntries [] rfl).1, ofBytes_twoEntries]
    rfl
  have first := (decides modules twoEntriesZip (utf8 "A") opened).1 [] firstEntry [secondEntry] rfl
    (by decide) (by simp)
  have class_read : twoEntriesZip.readClass (utf8 "A") firstEntry =
      .ok ⟨0, 52, [.unused], []⟩ := by cbv
  have answered := (unchanged modules [utf8 "B"] (utf8 "A")).trans (first.trans class_read)
  exact ⟨_, answered, class_read, kept _ modules _ _ answered [] nothing, by cbv⟩

end ClassLoader

end Jvm
