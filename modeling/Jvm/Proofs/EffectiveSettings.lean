import Jvm.Proofs.SettingsFiles
import Jvm.Proofs.WrittenFlags

/-!
The settings that a run is executed with. Flags are laid over the settings of the configuration file,
and these over the defaults. A file that is refused ends the call whatever the flags are, and so do
settings that break a rule with the flags over them; in all other cases the class is executed with
exactly these settings.
-/

set_option autoImplicit false
set_option relaxedAutoImplicit false

namespace Jvm.CommandLine

/-- The settings that flags are laid over: the defaults without a file, and else those of the file. -/
inductive Base (files : FileSystem) : Bytes -> Settings -> Prop
  | default : Base files [] .default
  | file {path : Bytes} {s : Settings} (named : path ≠ []) (accepted : Settings.Accepted files path s) :
    Base files path s

/-- A call fails in the same way for every number of rounds, none included, and writes no record. -/
def FailsAtOnce (files : FileSystem) (args : List Bytes) : Prop :=
  ∃ o : Outcome, o.failure.isSome ∧ o.journal.records = [] ∧
    ∀ rounds, call rounds files args = some o

/-- A call executes a virtual machine: it has an outcome when the execution has ended, it prints what
the execution prints, fails as it fails, and records its instructions if these are traced. -/
structure Executes (files : FileSystem) (args : List Bytes) (vm : Vm) (traced : Bool) : Prop where
  unended : ∀ rounds, vm.execute rounds = none → call rounds files args = none
  ended : ∀ rounds vm' trace, vm.execute rounds = some (vm', trace) →
    ∃ o, call rounds files args = some o ∧ o.stdout = vm'.sink.output ∧
      o.failure.map Failure.message = vm'.error.map VmError.message ∧
      (o.journal.records.filter fun r => r.level = .debug) =
        if traced then trace.map instructionRecord else []

/-- A call runs a class with settings, unless these break a rule or there is no such class. -/
structure RunsWith (files : FileSystem) (args : List Bytes) (slots steps : Int) (traced : Bool)
    (t : ClassTarget) : Prop where
  invalid : ¬ (2 ≤ slots ∧ 0 ≤ steps) → FailsAtOnce files args
  unloaded : ∀ message, t.load files = .error message → FailsAtOnce files args
  executes : 2 ≤ slots → 0 ≤ steps → ∀ c, t.load files = .ok c →
    Executes files args { Vm.start c with slots := slots, maxSteps := steps } traced

/-- What comes of a call that names a configuration file, or none by an empty path, and gives options
to a run; without options they could not be read. -/
structure Layered (files : FileSystem) (args : List Bytes) (path : Bytes)
    (given : Option (RunOptions × ClassTarget)) : Prop where
  decided : (∃ base, Base files path base) ∨ (path ≠ [] ∧ Settings.Refused files path)
  refused : path ≠ [] → Settings.Refused files path → FailsAtOnce files args
  misused : given = none → FailsAtOnce files args
  settled : ∀ base o t, Base files path base → given = some (o, t) →
    RunsWith files args (o.locals.getD base.localSlots) (o.maxSteps.getD base.maxSteps)
      (o.trace.getD base.trace) t

structure CallsRun (args : List Bytes) (a : Arguments) (rest : List Bytes) : Prop where
  read : readArguments globalFlags args = .ok a
  plain : a.switch? helpFlag ≠ some true
  command : ∃ name, a.rest = name :: rest ∧ Command.named? name = some .run

/-- Arguments call the run command, name a configuration file and give options. -/
inductive Gives (args : List Bytes) : Bytes -> Option (RunOptions × ClassTarget) -> Prop
  | options {a b : Arguments} {rest : List Bytes} (calls : CallsRun args a rest)
    (read : commandArguments .run rest = .ok b) (plain : b.switch? helpFlag ≠ some true) :
    Gives args (a.text configFlag) (some (runOptions b, classTarget b))
  | misuse {a : Arguments} {rest : List Bytes} {e : UsageError} (calls : CallsRun args a rest)
    (read : commandArguments .run rest = .error e) : Gives args (a.text configFlag) none

variable {files : FileSystem} {args rest : List Bytes} {a b : Arguments} {s : Settings}
  {o : RunOptions} {t : ClassTarget} {j : Journal}

/-! ## Set-up -/

theorem base_or_refused (files : FileSystem) (path : Bytes) :
    (∃ base, Base files path base) ∨ (path ≠ [] ∧ Settings.Refused files path) := by
  by_cases named : path = []
  · subst named
    exact .inl ⟨_, .default⟩
  · rcases Settings.accepted_or_refused files path with ⟨s, accepted⟩ | refused
    · exact .inl ⟨s, .file named accepted⟩
    · exact .inr ⟨named, refused⟩

theorem setUp_of_base (base : Base files (a.text configFlag) s) :
    ∃ s', setUp files a = .ok s' ∧ s'.localSlots = s.localSlots ∧ s'.maxSteps = s.maxSteps ∧
      s'.trace = s.trace := by
  generalize path : a.text configFlag = p at base
  cases base with
  | default =>
    simp only [setUp, path, if_true]
    exact ⟨_, rfl, rfl, rfl, rfl⟩
  | file named accepted =>
    simp only [setUp, path, named, if_false, Settings.load_eq_ok_iff.mpr accepted]
    exact ⟨_, rfl, rfl, rfl, rfl⟩

theorem setUp_of_refused (named : a.text configFlag ≠ [])
    (refused : Settings.Refused files (a.text configFlag)) : ∃ e, setUp files a = .error e := by
  obtain ⟨e, failed⟩ := Settings.refused_iff.mp refused
  refine ⟨e, ?_⟩
  simp only [setUp, named, if_false, failed]
  rfl

theorem CallsRun.call_of_error {e : SettingsError} (calls : CallsRun args a rest)
    (failed : setUp files a = .error e) (rounds : Nat) :
    call rounds files args = some (.failed helpText e.message noJournal) := by
  rw [call, calls.read]
  simp only [calls.plain, if_false, failed]

theorem CallsRun.call_of_ok (calls : CallsRun args a rest) (ready : setUp files a = .ok s)
    (rounds : Nat) : call rounds files args = callCommand rounds files s .run rest := by
  obtain ⟨name, words, named⟩ := calls.command
  rw [call, calls.read]
  simp only [calls.plain, if_false, ready, words, named]

/-! ## Runs -/

theorem prepareRun_of_ok {c : ClassFile} (valid : (o.over s).Valid) (loaded : t.load files = .ok c) :
    prepareRun files s o t = .ok (o.over s, c) := by
  have checked := Settings.validate_eq_ok_iff.mpr valid
  rw [prepareRun]
  simp only [checked, loaded]
  rfl

theorem prepareRun_of_error (bad : ¬ (o.over s).Valid ∨ ∃ message, t.load files = .error message) :
    ∃ message, prepareRun files s o t = .error message := by
  cases checked : (o.over s).validate with
  | error e =>
    refine ⟨e.message, ?_⟩
    rw [prepareRun]
    simp only [checked]
    rfl
  | ok _ =>
    rcases bad with invalid | ⟨message, unloaded⟩
    · exact (invalid (Settings.validate_eq_ok_iff.mp checked)).elim
    · refine ⟨message, ?_⟩
      rw [prepareRun]
      simp only [checked, unloaded]
      rfl

theorem debug_records (s : Settings) (name : Bytes) (vm : Vm) (trace : List TraceEntry)
    (empty : j.records = []) :
    ((j.add (runVerbosity s) (runRecords s name vm trace)).records.filter fun r => r.level = .debug) =
      if s.trace then trace.map instructionRecord else [] := by
  have last : (endRecord name vm).level ≠ .debug := by
    unfold endRecord
    split <;> exact nofun
  have debug : ((runRecords s name vm trace).filter fun r => r.level = .debug) =
      if s.trace then trace.map instructionRecord else [] := by
    cases traced : s.trace <;> simp [runRecords, traced, last, List.filter_map, Function.comp_def,
      instructionRecord]
  have visible : ∀ r ∈ (if s.trace then trace.map instructionRecord else []),
      r.level.leastVerbosity ≤ runVerbosity s := by
    intro r member
    cases traced : s.trace with
    | false => simp [traced] at member
    | true =>
      rw [traced, if_pos rfl] at member
      obtain ⟨e, _, rfl⟩ := List.mem_map.mp member
      have enough : 2 ≤ runVerbosity s := by
        rw [runVerbosity, traced, if_pos rfl]
        exact Int.le_max_right _ _
      exact enough
  simp only [Journal.add, empty, List.nil_append]
  rw [List.filter_comm, debug]
  exact List.filter_eq_self.mpr fun r member => decide_eq_true (visible r member)

theorem run_of_error {message : Bytes} (bad : prepareRun files s o t = .error message) (rounds : Nat) :
    run rounds files s o t j = some (.failed [] message j) := by
  rw [run, bad]

theorem run_of_unended {c : ClassFile} {s' : Settings} {rounds : Nat}
    (ready : prepareRun files s o t = .ok (s', c))
    (unended : (s'.apply (Vm.start c)).execute rounds = none) :
    run rounds files s o t j = none := by
  rw [run, ready]
  simp only [unended]

theorem run_of_ended {c : ClassFile} {s' : Settings} {rounds : Nat} {vm : Vm} {trace : List TraceEntry}
    (ready : prepareRun files s o t = .ok (s', c))
    (ended : (s'.apply (Vm.start c)).execute rounds = some (vm, trace)) :
    ∃ out, run rounds files s o t j = some out ∧ out.stdout = vm.sink.output ∧
      out.failure.map Failure.message = vm.error.map VmError.message ∧
      out.journal = j.add (runVerbosity s') (runRecords s' t.target vm trace) := by
  rw [run, ready]
  simp only [ended]
  cases failed : vm.error with
  | none => exact ⟨_, rfl, rfl, rfl, rfl⟩
  | some e => exact ⟨_, rfl, rfl, rfl, rfl⟩

/-! ## Calls -/

theorem CallsRun.failsAtOnce_of_refused (calls : CallsRun args a rest) (named : a.text configFlag ≠ [])
    (refused : Settings.Refused files (a.text configFlag)) : FailsAtOnce files args := by
  obtain ⟨e, failed⟩ := setUp_of_refused named refused
  exact ⟨_, rfl, rfl, calls.call_of_error failed⟩

theorem CallsRun.failsAtOnce_of_misuse {e : UsageError} (calls : CallsRun args a rest)
    (read : commandArguments .run rest = .error e) : FailsAtOnce files args := by
  cases ready : setUp files a with
  | error e => exact ⟨_, rfl, rfl, calls.call_of_error ready⟩
  | ok s =>
    have misused (rounds : Nat) : callCommand rounds files s .run rest =
        some (refused (usageText "Incorrect Usage: " (utf8 "\n") e Command.run.helpText) e
          (journalOf s)) := by
      rw [callCommand, read]
    exact ⟨_, rfl, rfl, fun rounds => (calls.call_of_ok ready rounds).trans (misused rounds)⟩

theorem CallsRun.call_eq_run (calls : CallsRun args a rest) (ready : setUp files a = .ok s)
    (read : commandArguments .run rest = .ok b) (plain : b.switch? helpFlag ≠ some true)
    (rounds : Nat) :
    call rounds files args =
      run rounds files s (runOptions b) (classTarget b) (journalOf s) := by
  rw [calls.call_of_ok ready, callCommand, read]
  simp only [plain, if_false, perform]

theorem CallsRun.runsWith (calls : CallsRun args a rest) (base : Base files (a.text configFlag) s)
    (read : commandArguments .run rest = .ok b) (plain : b.switch? helpFlag ≠ some true) :
    RunsWith files args ((runOptions b).locals.getD s.localSlots)
      ((runOptions b).maxSteps.getD s.maxSteps) ((runOptions b).trace.getD s.trace)
      (classTarget b) := by
  obtain ⟨s', ready, slots, steps, traced⟩ := setUp_of_base base
  have asRun := calls.call_eq_run ready read plain
  have fails (bad : ¬ ((runOptions b).over s').Valid ∨
      ∃ message, (classTarget b).load files = .error message) : FailsAtOnce files args := by
    obtain ⟨message, failed⟩ := prepareRun_of_error bad
    exact ⟨_, rfl, rfl, fun rounds => (asRun rounds).trans (run_of_error failed rounds)⟩
  rw [← slots, ← steps, ← traced]
  refine ⟨fun invalid => fails (.inl invalid), fun message unloaded => fails (.inr ⟨message, unloaded⟩), ?_⟩
  intro enough natural c loaded
  have prepared := prepareRun_of_ok (s := s') (o := runOptions b) ⟨enough, natural⟩ loaded
  constructor
  · intro rounds unended
    rw [asRun]
    exact run_of_unended prepared unended
  · intro rounds vm trace ended
    obtain ⟨out, result, printed, failure, journal⟩ := run_of_ended (j := journalOf s') prepared ended
    refine ⟨out, (asRun rounds).trans result, printed, failure, ?_⟩
    rw [journal]
    exact debug_records _ _ vm trace rfl

theorem Gives.layered {path : Bytes} {given : Option (RunOptions × ClassTarget)}
    (gives : Gives args path given) (files : FileSystem) : Layered files args path given := by
  refine ⟨base_or_refused files path, ?_, ?_, ?_⟩
  · intro named refused
    cases gives with
    | options calls _ _ => exact calls.failsAtOnce_of_refused named refused
    | misuse calls _ => exact calls.failsAtOnce_of_refused named refused
  · rintro rfl
    cases gives with
    | misuse calls read => exact calls.failsAtOnce_of_misuse read
  · rintro base o t settings rfl
    cases gives with
    | options calls read plain => exact calls.runsWith settings read plain

/-! ## Written lines -/

theorem exists_callsRun {config : Option Bytes} {front args : List Bytes}
    (file : front ∈ configSpellings config) :
    ∃ a, CallsRun (front ++ utf8 "run" :: args) a args ∧ a.text configFlag = config.getD [] := by
  obtain ⟨a, read, plain, path, words⟩ := readArguments_run file args
  refine ⟨a, ⟨read, ?_, utf8 "run", words, rfl⟩, path⟩
  rw [plain]
  exact nofun

theorem RunLine.gives_options {config : Option Bytes} {given : List RunFlag} {target : Bytes}
    (line : RunLine config given target args) (operand : argumentForm target = .positional)
    (fit : ∀ f ∈ given, f.Fits) :
    Gives args (config.getD []) (some (RunFlag.options given, ⟨target, utf8 "."⟩)) := by
  obtain @⟨front, words, args, others, file, spelled, order⟩ := line
  obtain ⟨a, calls, path⟩ := exists_callsRun file
  have read := spelled.commandArguments_eq operand order fit
  have help := RunFlag.value?_eq_none helpFlag (by rintro (_ | _ | _) <;> rfl) given (target :: others)
  have dot := RunFlag.value?_eq_none classPathFlag (by rintro (_ | _ | _) <;> rfl) given
    (target :: others)
  have named : classTarget ⟨(given.map RunFlag.entry).reverse, target :: others⟩ =
      ⟨target, utf8 "."⟩ := by
    simp only [classTarget, Arguments.text, dot]
    rfl
  have gives := Gives.options calls read (by simp [Arguments.switch?, help])
  rw [path, RunFlag.runOptions_eq, named] at gives
  exact gives

theorem RunLine.gives_none {config : Option Bytes} {given : List RunFlag} {target : Bytes}
    (line : RunLine config given target args) (operand : argumentForm target = .positional)
    (unfit : ∃ f ∈ given, ¬ f.Fits) : Gives args (config.getD []) none := by
  obtain ⟨file, spelled, order⟩ := line
  obtain ⟨a, calls, path⟩ := exists_callsRun file
  obtain ⟨e, read⟩ := spelled.commandArguments_error operand order unfit
  exact path ▸ Gives.misuse calls read

/-- Flags go over the configuration file and the file over the defaults, for whatever arguments call the
run command; a line that gives flags in any order and number gives the last value of each, and a value
out of range is a misuse. -/
theorem run_settings_layered :
    (∀ files args path given, Gives args path given → Layered files args path given) ∧
    (∀ config given target args, argumentForm target = .positional →
      RunLine config given target args →
      ((∀ f ∈ given, f.Fits) →
        Gives args (config.getD []) (some (RunFlag.options given, ⟨target, utf8 "."⟩))) ∧
      ((∃ f ∈ given, ¬ f.Fits) → Gives args (config.getD []) none)) ∧
    Settings.default.localSlots = 4 ∧ Settings.default.maxSteps = 0 ∧
      Settings.default.trace = false := by
  refine ⟨fun files args path given gives => gives.layered files, ?_, rfl, rfl, rfl⟩
  intro config given target args operand line
  exact ⟨line.gives_options operand, line.gives_none operand⟩

/-- The code pushes 1 and then adds to local slot 6. -/
private def reachingSlot : ClassFile where
  minor := 0
  major := 52
  pool := [.unused, .utf8 (utf8 "main"), .utf8 (utf8 "Code")]
  members := [⟨9, 1, 0, some [⟨2, some (List.replicate 8 0 ++ [0x04, 0x84, 6, 1])⟩]⟩]

private def reachingSlotFile : Bytes :=
  [0xCA, 0xFE, 0xBA, 0xBE, 0, 0, 0, 52, 0, 3, 1, 0, 4] ++ utf8 "main" ++ [1, 0, 4] ++ utf8 "Code" ++
    [0, 0x21, 0, 0, 0, 0, 0, 0, 0, 0, 0, 1, 0, 9, 0, 1, 0, 0, 0, 1, 0, 2, 0, 0, 0, 12] ++
    List.replicate 8 0 ++ [0x04, 0x84, 6, 1]

private def layeredFiles (text : String) : FileSystem where
  find path :=
    if path = utf8 "vm.toml" then .ok (.file (utf8 text))
    else if path = utf8 "A.class" then .ok (.file reachingSlotFile)
    else .error .notExist

/-- A file with one local slot is refused although a flag asks for eight. With six slots and one step in
the file, flags that lift the step limit and ask for a trace leave the slots as they are: both
instructions are recorded, and the second one finds six slots. -/
theorem run_settings_layered_vm :
    FailsAtOnce (layeredFiles "[vm]\nlocal_slots = 1\n")
      (["--config=vm.toml", "run", "--locals=8", "A.class"].map utf8) ∧
    ClassTarget.load (layeredFiles "[vm]\nlocal_slots = 6\nmax_steps = 1\n")
      ⟨utf8 "A.class", utf8 "."⟩ = .ok reachingSlot ∧
    ∃ o, Executes (layeredFiles "[vm]\nlocal_slots = 6\nmax_steps = 1\n")
        (["--config", "vm.toml", "run", "A.class", "--max-steps", "0", "--trace"].map utf8)
        { Vm.start reachingSlot with slots := 6, maxSteps := 0 } true ∧
      call 2 (layeredFiles "[vm]\nlocal_slots = 6\nmax_steps = 1\n")
        (["--config", "vm.toml", "run", "A.class", "--max-steps", "0", "--trace"].map utf8) = some o ∧
      o.failure.map Failure.message = some (ExecError.message ⟨9, 0x84, .badLocal 6 6⟩) ∧
      ((o.journal.records.filter fun r => r.level = .debug).map fun r => r.text) =
        ["pc=8 iconst_1 depth=0", "pc=9 iinc depth=1"].map utf8 := by
  obtain ⟨layered, written, _⟩ := run_settings_layered
  have loaded : ClassTarget.load (layeredFiles "[vm]\nlocal_slots = 6\nmax_steps = 1\n")
      ⟨utf8 "A.class", utf8 "."⟩ = .ok reachingSlot := by decide +kernel
  refine ⟨?_, loaded, ?_⟩
  · have refused : Settings.Refused (layeredFiles "[vm]\nlocal_slots = 1\n") (utf8 "vm.toml") :=
      Settings.refused_iff.mpr ⟨.invalid (utf8 "vm.toml") (.localSlots 1), by decide +kernel⟩
    have spelled : RunFlag.Spelled [.locals 8] ([utf8 "--locals=8"] ++ []) := .cons (by decide) .nil
    have line : RunLine (some (utf8 "vm.toml")) [.locals 8] (utf8 "A.class")
        ([utf8 "--config=vm.toml"] ++ utf8 "run" :: ([utf8 "--locals=8"] ++ [] ++ [utf8 "A.class"])) :=
      .intro (by decide) spelled (.front (.inr rfl))
    have gives := (written _ _ _ _ (by decide) line).1 (by simp [RunFlag.Fits])
    exact (layered _ _ _ _ gives).refused (by decide) refused
  · have accepted : Settings.Accepted (layeredFiles "[vm]\nlocal_slots = 6\nmax_steps = 1\n")
        (utf8 "vm.toml") { Settings.default with localSlots := 6, maxSteps := 1 } :=
      Settings.load_eq_ok_iff.mp (by decide +kernel)
    have spelled : RunFlag.Spelled [.maxSteps 0, .trace true]
        ([utf8 "--max-steps", utf8 "0"] ++ ([utf8 "--trace"] ++ [])) :=
      .cons (by decide) (.cons (by decide) .nil)
    have line : RunLine (some (utf8 "vm.toml")) [.maxSteps 0, .trace true] (utf8 "A.class")
        ([utf8 "--config", utf8 "vm.toml"] ++ utf8 "run" :: (utf8 "A.class" ::
          ([utf8 "--max-steps", utf8 "0"] ++ ([utf8 "--trace"] ++ [])))) :=
      .intro (by decide) spelled .behind
    have gives := (written _ _ _ _ (by decide) line).1 (by simp [RunFlag.Fits])
    have runs := (layered _ _ _ _ gives).settled _ _ _ (.file (by decide) accepted) rfl
    have executes := runs.executes (by decide) (by decide) _ loaded
    obtain ⟨o, called, _, failed, traced⟩ := executes.ended 2 _ _ rfl
    refine ⟨o, executes, called, failed.trans ?_, ?_⟩
    · rfl
    · rw [traced]
      decide +kernel

end Jvm.CommandLine
