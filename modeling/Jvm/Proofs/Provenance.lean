import Jvm.Proofs.Execution
import Mathlib.Data.List.Infix
import Mathlib.Tactic.Common

/-!
Where the values of a run come from. Only one local slot is ever set, since an increment needs an
integer that is there already. Values are copied between that slot and the stack whatever their kind,
but a text enters the stack in one way only: an instruction loads it from the constant pool.
-/

set_option autoImplicit false
set_option relaxedAutoImplicit false

namespace Jvm

def Frame.OnlySlotOne (f : Frame) : Prop := ∀ i v, i ≠ 1 → f.locals[i]? = some v → v = .void

theorem Frame.OnlySlotOne.eq_one {f : Frame} {i : Nat} {n : Int32} (only : f.OnlySlotOne)
    (present : f.locals[i]? = some (.int n)) : i = 1 := by
  by_contra other
  cases only i _ other present

/-- A value that is on the stack or in slot 1. -/
def Frame.Holds (f : Frame) (v : Value) : Prop := v ∈ f.stack ∨ f.locals[1]? = some v

theorem Sink.writes_of_println? {s s' : Sink} {line : Bytes} (printed : s.println? line = some s') :
    s'.writes = (line ++ utf8 "\n") :: s.writes := by
  unfold Sink.println? Sink.write? at printed
  split at printed
  · cases printed
    rfl
  · cases printed
  · cases printed
    rfl

namespace Native

variable {n : Native} {stack rest : List Value} {line : Bytes}

theorem line?_suffix (top : n.line? stack = some (line, rest)) : rest <:+ stack := by
  unfold line? at top
  split at top
  · cases top
    exact ⟨[_, _], rfl⟩
  · cases top
    exact ⟨[_, _], rfl⟩
  · cases top

theorem line?_origin (top : n.line? stack = some (line, rest)) :
    (∃ k : Int32, line = Bytes.int k.toInt) ∨ .string line ∈ stack := by
  unfold line? at top
  split at top
  · cases top
    exact .inl ⟨_, rfl⟩
  · cases top
    exact .inr (by simp)
  · cases top

end Native

theorem Frame.Unpoppable.suffix {kinds : List Kind} {stack left : List Value} {e : Fault}
    (top : Frame.Unpoppable kinds stack e left) : left <:+ stack := by
  induction top with
  | underflow => exact List.suffix_rfl
  | wrong other => exact List.suffix_cons _ _
  | later right deeper ih => exact ih.trans (List.suffix_cons _ _)

namespace Machine

variable {c : ClassFile} {m m' : Machine} {op : Opcode} {returned : Bool}

theorem Faults.left_suffix {e : Fault} {left : List Value} (faults : Faults c m op e left) :
    left <:+ m.frame.stack := by
  cases faults with
  | istore1Underflow empty => exact List.nil_suffix
  | istore1 v rest top absent =>
    rw [top]
    exact List.suffix_cons _ _
  | irem e left top => exact top.suffix
  | iremZero v1 rest top =>
    rw [top]
    exact ⟨[_, _], rfl⟩
  | ifne e left top => exact top.suffix
  | ifIcmpgt e left top => exact top.suffix
  | unpopped index method n e left operand resolved known top => exact top.suffix
  | refused index method n line rest operand resolved known top refused =>
    exact Native.line?_suffix top
  | _ => exact List.suffix_rfl

theorem Does.locals_length (does : Does c m op returned m') :
    m'.frame.locals.length = m.frame.locals.length := by
  cases does with
  | istore1 v rest top fits => exact List.length_set
  | iinc slot delta n first second present => exact List.length_set
  | _ => rfl

theorem Does.onlySlotOne (only : m.frame.OnlySlotOne) (does : Does c m op returned m') :
    m'.frame.OnlySlotOne := by
  cases does with
  | istore1 v rest top fits =>
    intro i v' other present
    change (m.frame.locals.set 1 v)[i]? = some v' at present
    rw [List.getElem?_set_ne other.symm] at present
    exact only i v' other present
  | iinc slot delta n first second present =>
    intro i v' other present'
    change (m.frame.locals.set slot.toNat _)[i]? = some v' at present'
    rw [only.eq_one present, List.getElem?_set_ne other.symm] at present'
    exact only i v' other present'
  | _ => exact only

theorem Does.text_origin {text : Bytes} (only : m.frame.OnlySlotOne)
    (does : Does c m op returned m') (held : m'.frame.Holds (.string text)) :
    m.frame.Holds (.string text) ∨ op = .ldc ∧ ∃ index : UInt8,
      m.frame.byteAt? (m.frame.pc + 1) = some index ∧ c.resolveString index.toUInt16 = .ok text := by
  -- Most instructions leave slot 1 alone and add no text to the stack.
  have kept {stack : List Value} (fewer : .string text ∈ stack → .string text ∈ m.frame.stack)
      (held : .string text ∈ stack ∨ m.frame.locals[1]? = some (.string text)) :
      m.frame.Holds (.string text) := held.imp fewer id
  cases does with
  | ldc index text' operand resolved =>
    rcases held with held | held
    · rcases List.mem_cons.mp held with same | below
      · cases same
        exact .inr ⟨rfl, index, operand, resolved⟩
      · exact .inl (.inl below)
    · exact .inl (.inr held)
  | iload1 v present =>
    rcases held with held | held
    · rcases List.mem_cons.mp held with same | below
      · rw [← same] at present
        exact .inl (.inr present)
      · exact .inl (.inl below)
    · exact .inl (.inr held)
  | istore1 v rest top fits =>
    have taken : v ∈ m.frame.stack ∧ ∀ w ∈ rest, w ∈ m.frame.stack := by simp +contextual [top]
    rcases held with held | held
    · exact .inl (.inl (taken.2 _ held))
    · change (m.frame.locals.set 1 v)[1]? = _ at held
      rw [List.getElem?_set_self fits] at held
      cases held
      exact .inl (.inl taken.1)
  | iinc slot delta n first second present =>
    rcases held with held | held
    · exact .inl (.inl held)
    · have fits := (List.getElem?_eq_some_iff.mp present).1
      change (m.frame.locals.set slot.toNat _)[1]? = _ at held
      rw [only.eq_one present] at fits held
      rw [List.getElem?_set_self fits] at held
      cases held
  | irem v2 v1 rest top nonzero => exact .inl (kept (by simp [top, behind, moved]) held)
  | ifneTaken distance v rest operand top taken => exact .inl (kept (by simp [top, moved]) held)
  | ifneNotTaken v rest top notTaken => exact .inl (kept (by simp [top, behind, moved]) held)
  | ifIcmpgtTaken distance v2 v1 rest operand top taken => exact .inl (kept (by simp [top, moved]) held)
  | ifIcmpgtNotTaken v2 v1 rest top notTaken => exact .inl (kept (by simp [top, behind, moved]) held)
  | invokevirtual index method n line rest sink operand resolved known top printed =>
    exact .inl (kept (fun member => (Native.line?_suffix top).subset member) held)
  | _ => exact .inl (kept (by simp [behind, moved]) held)

theorem Does.writes_origin (does : Does c m op returned m') :
    m'.sink.writes = m.sink.writes ∨
      ∃ line, m'.sink.writes = (line ++ utf8 "\n") :: m.sink.writes ∧
        ((∃ k : Int32, line = Bytes.int k.toInt) ∨ .string line ∈ m.frame.stack) := by
  cases does with
  | invokevirtual index method n line rest sink operand resolved known top printed =>
    exact .inr ⟨line, Sink.writes_of_println? printed, Native.line?_origin top⟩
  | _ => exact .inl rfl

end Machine

/-! ## Runs -/

/-- A line that a class can print: the decimal form of a number, or a String constant at an index of
one byte. -/
def ClassFile.Prints (c : ClassFile) (w : Bytes) : Prop :=
  ∃ line, w = line ++ utf8 "\n" ∧ ((∃ k : Int32, line = Bytes.int k.toInt) ∨
    ∃ index : UInt8, c.resolveString index.toUInt16 = .ok line)

def TraceEntry.Loads (code : Bytes) (index : UInt8) (e : TraceEntry) : Prop :=
  e.opcode = Opcode.ldc.byte ∧
    ∃ i : Nat, e.pc = i ∧ code[i]? = some Opcode.ldc.byte ∧ code[i + 1]? = some index

namespace Progress

/-- The values of a run and the lines it has written come from where they can come from. -/
structure Sourced (c : ClassFile) (code : Bytes) (slots : Nat) (before : List Bytes)
    (q : Progress) : Prop where
  code_eq : q.machine.frame.code = code
  slots_eq : q.machine.frame.locals.length = slots
  unset : q.machine.frame.OnlySlotOne
  loaded : ∀ text, q.machine.frame.Holds (.string text) →
    ∃ index : UInt8, c.resolveString index.toUInt16 = .ok text ∧ ∃ e ∈ q.trace, e.Loads code index
  printed : ∃ lines, q.machine.sink.writes = lines ++ before ∧ ∀ w ∈ lines, c.Prints w

variable {c : ClassFile} {maxSteps : Int} {code : Bytes} {slots : Nat} {before : List Bytes}
  {p q q' : Progress}

theorem sourced_start (c : ClassFile) (slots : Nat) (code : Bytes) (sink : Sink) :
    Sourced c code slots sink.writes (start { frame := .start slots code, sink := sink }) where
  code_eq := rfl
  slots_eq := List.length_replicate
  unset := by
    intro i v _ present
    exact (List.mem_replicate.mp (List.mem_of_getElem? present)).2
  loaded := by
    rintro text (held | held)
    · cases held
    · cases (List.mem_replicate.mp (List.mem_of_getElem? held)).2
  printed := ⟨[], rfl, by simp⟩

theorem Sourced.loaded_record {op : Opcode} {m : Machine} {text : Bytes}
    (sourced : Sourced c code slots before q) (held : q.machine.frame.Holds (.string text)) :
    ∃ index : UInt8, c.resolveString index.toUInt16 = .ok text ∧
      ∃ e ∈ (q.record op m).trace, e.Loads code index := by
  obtain ⟨index, resolved, e, member, loads⟩ := sourced.loaded text held
  refine ⟨index, resolved, e, ?_, loads⟩
  rw [trace_record]
  exact List.mem_append_left _ member

theorem Sourced.loaded_does {op : Opcode} {returned : Bool} {m : Machine} {text : Bytes}
    (sourced : Sourced c code slots before q) (fetched : q.fetched = .ok op)
    (does : Machine.Does c q.machine op returned m) (held : m.frame.Holds (.string text)) :
    ∃ index : UInt8, c.resolveString index.toUInt16 = .ok text ∧
      ∃ e ∈ (q.record op m).trace, e.Loads code index := by
  rcases does.text_origin sourced.unset held with held | ⟨rfl, index, operand, resolved⟩
  · exact sourced.loaded_record held
  · obtain ⟨i, here, _, byte, _⟩ := fetch_eq_ok_iff.mp fetched
    rw [here] at operand
    rw [sourced.code_eq] at byte
    have operand : code[i + 1]? = some index := sourced.code_eq ▸ operand
    refine ⟨index, resolved, ⟨Opcode.ldc.byte, q.machine.frame⟩, ?_, rfl, i, here, byte, operand⟩
    rw [trace_record]
    exact List.mem_append_right _ (List.mem_singleton_self _)

theorem Sourced.printed_does {op : Opcode} {returned : Bool} {m : Machine}
    (sourced : Sourced c code slots before q) (does : Machine.Does c q.machine op returned m) :
    ∃ lines, m.sink.writes = lines ++ before ∧ ∀ w ∈ lines, c.Prints w := by
  obtain ⟨lines, written, possible⟩ := sourced.printed
  rcases does.writes_origin with same | ⟨line, added, origin⟩
  · exact ⟨lines, same.trans written, possible⟩
  · refine ⟨(line ++ utf8 "\n") :: lines, ?_, ?_⟩
    · rw [added, written, List.cons_append]
    · intro w member
      rcases List.mem_cons.mp member with rfl | member
      · refine ⟨line, rfl, origin.imp_right ?_⟩
        intro onStack
        obtain ⟨index, resolved, _⟩ := sourced.loaded line (.inl onStack)
        exact ⟨index, resolved⟩
      · exact possible w member

theorem Sourced.executes (sourced : Sourced c code slots before q) (executes : Executes c q q') :
    Sourced c code slots before q' := by
  cases executes with
  | does op returned m fetched does =>
    exact ⟨does.code_eq.trans sourced.code_eq, does.locals_length.trans sourced.slots_eq,
      does.onlySlotOne sourced.unset, fun text held => sourced.loaded_does fetched does held,
      sourced.printed_does does⟩
  | faults op f left fetched faults =>
    refine ⟨sourced.code_eq, sourced.slots_eq, sourced.unset, ?_, sourced.printed⟩
    intro text held
    exact sourced.loaded_record (held.imp_left fun member => faults.left_suffix.subset member)

theorem Shows.sourced (first : Sourced c code slots before p) (shown : Shows c maxSteps p q) :
    Sourced c code slots before q :=
  shown.invariant first fun _ _ sourced executes => sourced.executes executes

end Progress

namespace Vm

open Progress

/-- In every run that an execution starts the values have a known origin: the code stays the entry
point, the local slots stay as many, all but slot 1 stay unset, and each text on the stack or in
slot 1 was loaded by an instruction executed before. So each line that an execution prints is a number
in decimal or a String constant with an index of one byte. -/
theorem execution_values_sourced (vm : Vm) (code : Bytes)
    (entry : vm.classFile.entryPoint = .ok code) :
    (∀ q, Shows vm.classFile vm.maxSteps (vm.entered code) q →
      Sourced vm.classFile code vm.slotCount vm.sink.writes q) ∧
    (∀ rounds vm' trace, vm.execute rounds = some (vm', trace) →
      (∃ q, Shows vm.classFile vm.maxSteps (vm.entered code) q ∧ q.trace = trace ∧
        q.machine.sink = vm'.sink) ∧
      ∃ lines, vm'.sink.writes = lines ++ vm.sink.writes ∧ ∀ w ∈ lines, vm.classFile.Prints w) := by
  have sourced {q : Progress} (shown : Shows vm.classFile vm.maxSteps (vm.entered code) q) :
      Sourced vm.classFile code vm.slotCount vm.sink.writes q :=
    shown.sourced (sourced_start vm.classFile vm.slotCount code vm.sink)
  refine ⟨fun q => sourced, ?_⟩
  intro rounds vm' trace executed
  rw [execute_of_entry vm entry] at executed
  obtain ⟨e, ends, same⟩ := Option.map_eq_some_iff.mp executed
  cases same
  have shown := shows_of_run ends
  exact ⟨⟨e.progress, shown, rfl, rfl⟩, (sourced shown).printed⟩

/-- Load the text at index 4, store it and return. -/
private def storingCode : Bytes := List.replicate 8 0 ++ [0x12, 0x04, 0x3C, 0xB1]

private def storing : Vm := .start
  { minor := 0, major := 0
    pool := [.unused, .utf8 (utf8 "main"), .utf8 (utf8 "Code"), .utf8 (utf8 "Fizz"), .string 3]
    members := [⟨0, 1, 0, some [⟨2, some storingCode⟩]⟩] }

theorem execution_values_sourced_stored :
    storing.classFile.entryPoint = .ok storingCode ∧
      ∃ q, Shows storing.classFile 0 (storing.entered storingCode) q ∧
        q.machine.frame.locals[1]? = some (.string (utf8 "Fizz")) ∧
        ∃ index : UInt8, storing.classFile.resolveString index.toUInt16 = .ok (utf8 "Fizz") ∧
          ∃ e ∈ q.trace, e.Loads storingCode index := by
  have entry : storing.classFile.entryPoint = .ok storingCode := by decide
  have shown : Shows storing.classFile 0 (storing.entered storingCode) _ :=
    .between (.succ (.succ .zero rfl) rfl)
  have sourced := (execution_values_sourced storing storingCode entry).1 _ shown
  exact ⟨entry, _, shown, rfl, sourced.loaded _ (.inr rfl)⟩

end Vm

end Jvm
