import Jvm.Proofs.Execution
import Jvm.Proofs.Resolution
import Mathlib.Tactic.Common

/-!
What an instruction looks at. Of the code it reads the operand bytes that its width announces and
nothing else: with other code that has the same bytes there it does the same. Since the run loop
executes an instruction only if all its bytes lie in the code, no run reads outside the code.
-/

set_option autoImplicit false
set_option relaxedAutoImplicit false

namespace Jvm

def Frame.recode (code : Bytes) (f : Frame) : Frame := { f with code := code }

namespace Machine

def recode (code : Bytes) (m : Machine) : Machine := { m with frame := m.frame.recode code }

def recodeOutcome {α : Type} (code : Bytes) :
    EStateM.Result Fault Machine α -> EStateM.Result Fault Machine α
  | .ok a m => .ok a (m.recode code)
  | .error e m => .error e (m.recode code)

/-- Work that looks at no code but the `k` bytes from the frame's position on. -/
def Confined {α : Type} (k : Nat) (x : Exec α) : Prop :=
  ∀ (m : Machine) (code : Bytes),
    (∀ i : Int, m.frame.pc ≤ i → i < m.frame.pc + k →
      (m.frame.recode code).byteAt? i = m.frame.byteAt? i) →
    x (m.recode code) = recodeOutcome code (x m)

namespace Confined

variable {α β : Type} {k : Nat}

theorem pure (a : α) : Confined k (pure a : Exec α) := fun _ _ _ => rfl

theorem throw (e : Fault) : Confined k (throw e : Exec α) := fun _ _ _ => rfl

theorem bind {x : Exec α} {f : α -> Exec β} (first : Confined k x)
    (second : ∀ a, Confined 0 (f a)) : Confined k (x >>= f) := by
  intro m code same
  have run' := first m code same
  cases run : x m with
  | ok a d =>
    rw [run] at run'
    rw [Outcome.bind_of_ok run, Outcome.bind_of_ok run']
    refine second a d code fun i low high => ?_
    omega
  | error e d =>
    rw [run] at run'
    rw [Outcome.bind_of_error run, Outcome.bind_of_error run']
    rfl

theorem within {x : Exec α} (method : MemberRef) (work : Confined k x) :
    Confined k (within method x) := by
  intro m code same
  have run' := work m code same
  cases run : x m with
  | ok a d =>
    rw [run] at run'
    rw [Machine.within, Machine.within, run, run']
    rfl
  | error e d =>
    rw [run] at run'
    rw [Machine.within, Machine.within, run, run']
    rfl

theorem emit (print : Sink -> Option Sink) : Confined k (emit print) := by
  intro m code _
  have shared : (m.recode code).sink = m.sink := rfl
  rw [Machine.emit, Machine.emit, shared]
  cases print m.sink <;> rfl

/-! ### Work on the frame -/

theorem onFrame_bind {x : FrameM α} {f : α -> FrameM β} (first : Confined k (onFrame x))
    (second : ∀ a, Confined 0 (onFrame (f a))) : Confined k (onFrame (x >>= f)) := by
  have split : onFrame (x >>= f) = onFrame x >>= fun a => onFrame (f a) := by
    funext m
    cases run : x m.frame with
    | ok a d =>
      rw [Outcome.bind_of_ok (onFrame_of_ok run), onFrame, Outcome.bind_of_ok run]
      rfl
    | error e d =>
      rw [Outcome.bind_of_error (onFrame_of_error run), onFrame, Outcome.bind_of_error run]
  rw [split]
  exact first.bind second

theorem proceed {x : FrameM Unit} (work : Confined k (onFrame x)) : Confined k (proceed x) :=
  work.bind fun _ => Confined.pure false

theorem onFrame_pure (a : α) : Confined k (onFrame (Pure.pure a)) := fun _ _ _ => rfl

theorem onFrame_throw (e : Fault) : Confined k (onFrame (MonadExcept.throw e : FrameM α)) :=
  fun _ _ _ => rfl

theorem push (v : Value) : Confined k (onFrame (Frame.push v)) := fun _ _ _ => rfl

theorem seek (pc : Int) : Confined k (onFrame (Frame.seek pc)) := fun _ _ _ => rfl

theorem pop : Confined k (onFrame Frame.pop) := by
  rintro ⟨⟨_, pc, stack, locals⟩, sink⟩ code _
  cases stack <;> rfl

theorem popInt : Confined k (onFrame Frame.popInt) := by
  refine onFrame_bind pop fun v => ?_
  cases v with
  | int n => exact onFrame_pure n
  | void => exact onFrame_throw _
  | string s => exact onFrame_throw _

theorem popString : Confined k (onFrame Frame.popString) := by
  refine onFrame_bind pop fun v => ?_
  cases v with
  | string s => exact onFrame_pure s
  | void => exact onFrame_throw _
  | int n => exact onFrame_throw _

theorem getLocal (slot : Nat) : Confined k (onFrame (Frame.getLocal slot)) := by
  intro m code _
  cases present : m.frame.locals[slot]? with
  | some v =>
    rw [onFrame_of_ok (Frame.getLocal_of_some (f := m.frame) present),
      onFrame_of_ok (Frame.getLocal_of_some (f := (m.recode code).frame) present)]
    rfl
  | none =>
    rw [onFrame_of_error (Frame.getLocal_of_none (f := m.frame) present),
      onFrame_of_error (Frame.getLocal_of_none (f := (m.recode code).frame) present)]
    rfl

theorem getLocalInt (slot : Nat) : Confined k (onFrame (Frame.getLocalInt slot)) := by
  refine onFrame_bind (getLocal slot) fun v => ?_
  cases v with
  | int n => exact onFrame_pure n
  | void => exact onFrame_throw _
  | string s => exact onFrame_throw _

theorem setLocal (slot : Nat) (v : Value) : Confined k (onFrame (Frame.setLocal slot v)) := by
  intro m code _
  rcases Nat.lt_or_ge slot m.frame.locals.length with fits | beyond
  · rw [onFrame_of_ok (Frame.setLocal_of_lt (f := m.frame) v fits),
      onFrame_of_ok (Frame.setLocal_of_lt (f := (m.recode code).frame) v fits)]
    rfl
  · rw [onFrame_of_error (Frame.setLocal_of_le (f := m.frame) v beyond),
      onFrame_of_error (Frame.setLocal_of_le (f := (m.recode code).frame) v beyond)]
    rfl

/-! ### Operands -/

theorem readU8_bind {f : UInt8 -> FrameM α} (rest : ∀ b, Confined k (onFrame (f b))) :
    Confined (k + 1) (onFrame (Frame.readU8 >>= f)) := by
  intro m code same
  have here : (m.frame.recode code).byteAt? m.frame.pc = m.frame.byteAt? m.frame.pc :=
    same m.frame.pc (Int.le_refl _) (by omega)
  cases operand : m.frame.byteAt? m.frame.pc with
  | some b =>
    rw [operand] at here
    have run {m : Machine} (operand : m.frame.byteAt? m.frame.pc = some b) :
        onFrame (Frame.readU8 >>= f) m = onFrame (f b) m.pass := by
      rw [onFrame, Outcome.bind_of_ok (Frame.readU8_of_some operand)]
      rfl
    rw [run operand, run (m := m.recode code) here]
    refine rest b m.pass code fun i low high => same i ?_ ?_
    · change m.frame.pc + 1 ≤ i at low
      omega
    · change i < m.frame.pc + 1 + k at high
      omega
  | none =>
    rw [operand] at here
    have run {m : Machine} (absent : m.frame.byteAt? m.frame.pc = none) :
        onFrame (Frame.readU8 >>= f) m = .error .operandOutside m :=
      onFrame_of_error (Outcome.bind_of_error (Frame.readU8_of_none absent) _)
    rw [run operand, run (m := m.recode code) here]
    rfl

theorem readI8 : Confined 1 (onFrame Frame.readI8) := readU8_bind fun _ => onFrame_pure _

theorem readU16 : Confined 2 (onFrame Frame.readU16) := by
  intro m code same
  have here : (m.frame.recode code).u16At? m.frame.pc = m.frame.u16At? m.frame.pc := by
    rw [Frame.u16At?, Frame.u16At?, same m.frame.pc (by omega) (by omega),
      same (m.frame.pc + 1) (by omega) (by omega)]
  cases operand : m.frame.u16At? m.frame.pc with
  | some n =>
    rw [operand] at here
    rw [onFrame_of_ok (Frame.readU16_of_some operand),
      onFrame_of_ok (Frame.readU16_of_some (f := (m.recode code).frame) here)]
    rfl
  | none =>
    rw [operand] at here
    rw [onFrame_of_error (Frame.readU16_of_none operand),
      onFrame_of_error (Frame.readU16_of_none (f := (m.recode code).frame) here)]
    rfl

theorem readTarget : Confined 2 (onFrame readTarget) := by
  intro m code same
  have word : Confined 2 (onFrame Frame.readI16) := onFrame_bind readU16 fun _ => onFrame_pure _
  -- The position that the distance counts from is the same with either code.
  exact onFrame_bind (f := fun d : Int16 => Pure.pure (m.frame.pc - 1 + d.toInt)) word
    (fun _ => onFrame_pure _) m code same

/-! ### Instructions -/

theorem native (n : Native) : Confined 0 (native n) := by
  cases n with
  | printlnInt => exact popInt.bind fun _ => popInt.bind fun _ => emit _
  | printlnString => exact popString.bind fun _ => popInt.bind fun _ => emit _

theorem loadString (c : ClassFile) (index : UInt16) : Confined 0 (onFrame (loadString c index)) := by
  unfold Machine.loadString
  cases c.resolveString index with
  | ok text => exact push _
  | error e => exact onFrame_throw _

theorem invoke (c : ClassFile) (index : UInt16) : Confined 0 (invoke c index) := by
  unfold Machine.invoke
  cases c.resolveMethodref index with
  | error e => exact throw _
  | ok method =>
    dsimp only
    cases Native.ofId? method.id with
    | none => exact throw _
    | some n => exact (native n).within method

theorem execute (c : ClassFile) (op : Opcode) : Confined (op.width - 1) (execute c op) := by
  cases op with
  | iconst1 => exact proceed (push _)
  | iconst3 => exact proceed (push _)
  | iconst5 => exact proceed (push _)
  | bipush => exact proceed (onFrame_bind readI8 fun _ => push _)
  | ldc => exact proceed (readU8_bind fun index => loadString c index.toUInt16)
  | iload1 => exact proceed (onFrame_bind (getLocal 1) fun _ => push _)
  | istore1 => exact proceed (onFrame_bind pop fun _ => setLocal 1 _)
  | irem =>
    refine proceed (onFrame_bind popInt fun v2 => onFrame_bind popInt fun v1 => ?_)
    split
    · exact onFrame_throw _
    · exact push _
  | iinc =>
    exact proceed (readU8_bind fun slot => onFrame_bind readI8 fun _ =>
      onFrame_bind (getLocalInt slot.toNat) fun _ => setLocal slot.toNat _)
  | ifne =>
    refine proceed (onFrame_bind readTarget fun target => onFrame_bind popInt fun v => ?_)
    split
    · exact onFrame_pure ()
    · exact seek target
  | ifIcmpgt =>
    refine proceed (onFrame_bind readTarget fun target => onFrame_bind popInt fun v2 =>
      onFrame_bind popInt fun v1 => ?_)
    split
    · exact seek target
    · exact onFrame_pure ()
  | goto => exact proceed (onFrame_bind readTarget fun target => seek target)
  | return_ => exact pure true
  | getstatic => exact proceed (onFrame_bind readU16 fun _ => push _)
  | invokevirtual => exact readU16.bind fun index => (invoke c index).bind fun _ => pure false

end Confined

end Machine

/-! ## Access in range -/

def Fault.OutsideCode : Fault -> Prop
  | .operandOutside => True
  | .inMethod _ inner => inner.OutsideCode
  | _ => False

/-- The stack, the locals and the pool have all that an instruction takes from them: every position
that it goes to is there, and a divisor is not zero. -/
def Frame.Supplies (c : ClassFile) (f : Frame) : Opcode -> Prop
  | .ldc => ∃ (index : UInt8) (text : UInt16), f.byteAt? (f.pc + 1) = some index ∧
      c.entry? index.toUInt16 = some (.string text) ∧ text.toNat < c.pool.length
  | .iload1 => 1 < f.locals.length
  | .istore1 => 1 ≤ f.stack.length ∧ 1 < f.locals.length
  | .iinc => ∃ slot : UInt8, f.byteAt? (f.pc + 1) = some slot ∧ slot.toNat < f.locals.length
  | .irem => 2 ≤ f.stack.length ∧ f.stack.head? ≠ some (.int 0)
  | .ifne => 1 ≤ f.stack.length
  | .ifIcmpgt => 2 ≤ f.stack.length
  | .invokevirtual => 2 ≤ f.stack.length ∧
      ∃ index owner pair ownerName name descriptor : UInt16, f.u16At? (f.pc + 1) = some index ∧
        c.entry? index = some (.methodref owner pair) ∧
        c.entry? owner = some (.classInfo ownerName) ∧
        c.entry? pair = some (.nameAndType name descriptor) ∧
        ∀ i ∈ [ownerName, name, descriptor], i.toNat < c.pool.length
  | _ => True

theorem Frame.Unpoppable.reported {kinds : List Kind} {stack left : List Value} {e : Fault}
    (top : Frame.Unpoppable kinds stack e left) : ¬ e.OutsideCode := by
  induction top with
  | underflow => exact id
  | wrong _ => exact id
  | later _ _ ih => exact ih

namespace Machine

variable {c : ClassFile} {m : Machine} {op : Opcode}

theorem Faults.reported {e : Fault} {left : List Value} (faults : Faults c m op e left) :
    ¬ e.OutsideCode := by
  cases faults with
  | irem _ _ top => exact top.reported
  | ifne _ _ top => exact top.reported
  | ifIcmpgt _ _ top => exact top.reported
  | unpopped _ _ _ e _ _ _ _ top =>
    have inner : ¬ e.OutsideCode := top.reported
    exact inner
  | _ => exact id

theorem Does.supplied {returned : Bool} {m' : Machine} (does : Does c m op returned m') :
    m.frame.Supplies c op := by
  cases does with
  | ldc index text operand resolved =>
    obtain ⟨i, first, second⟩ := ClassFile.resolveString_eq_ok_iff.mp resolved
    exact ⟨index, i, operand, first, ClassFile.entry?_eq_some_lt second⟩
  | iload1 v present => exact (List.getElem?_eq_some_iff.mp present).1
  | istore1 v rest top fits => exact ⟨by simp [top], fits⟩
  | iinc slot delta n first second present =>
    exact ⟨slot, first, (List.getElem?_eq_some_iff.mp present).1⟩
  | irem v2 v1 rest top nonzero => exact ⟨by simp [top], by simpa [top] using nonzero⟩
  | ifneTaken distance v rest operand top taken =>
    change 1 ≤ m.frame.stack.length
    simp [top]
  | ifneNotTaken v rest top notTaken =>
    change 1 ≤ m.frame.stack.length
    simp [top]
  | ifIcmpgtTaken distance v2 v1 rest operand top taken =>
    change 2 ≤ m.frame.stack.length
    simp [top]
  | ifIcmpgtNotTaken v2 v1 rest top notTaken =>
    change 2 ≤ m.frame.stack.length
    simp [top]
  | invokevirtual index method n line rest sink operand resolved known top printed =>
    obtain ⟨owner, pair, entry, ofOwner, ofPair⟩ := ClassFile.resolveMethodref_eq_ok_iff.mp resolved
    obtain ⟨ownerName, first, text⟩ := ClassFile.resolveClass_eq_ok_iff.mp ofOwner
    obtain ⟨name, descriptor, second, text', text''⟩ :=
      ClassFile.resolveNameAndType_eq_ok_iff.mp ofPair
    have deep := Native.line?_length top
    refine ⟨by omega, index, owner, pair, ownerName, name, descriptor, operand, entry, first, second,
      ?_⟩
    simp [ClassFile.entry?_eq_some_lt text, ClassFile.entry?_eq_some_lt text',
      ClassFile.entry?_eq_some_lt text'']
  | _ => exact trivial

end Machine

theorem fetch_reported {code : Bytes} {pc : Int} {e : ExecError} (failed : fetch code pc = .error e) :
    ¬ e.fault.OutsideCode := by
  unfold fetch at failed
  repeat' split at failed
  all_goals
    cases failed
    try exact id

namespace Progress

variable {c : ClassFile} {q : Progress} {op : Opcode}

theorem executed_recoded (c : ClassFile) (q : Progress) (op : Opcode) (code : Bytes)
    (same : ∀ i : Int, q.machine.frame.pc < i → i < q.machine.frame.pc + op.width →
      (q.machine.frame.recode code).byteAt? i = q.machine.frame.byteAt? i) :
    Machine.execute c op (q.machine.pass.recode code) =
      Machine.recodeOutcome code (Machine.execute c op q.machine.pass) := by
  have positive := op.width_pos
  refine Machine.Confined.execute c op q.machine.pass code fun i low high => ?_
  change q.machine.frame.pc + 1 ≤ i at low
  change i < q.machine.frame.pc + 1 + (op.width - 1 : Nat) at high
  exact same i (by omega) (by omega)

theorem executed_in_range (c : ClassFile) (fetched : q.fetched = .ok op) :
    match Machine.execute c op q.machine.pass with
    | .ok _ _ => q.machine.frame.Supplies c op
    | .error e _ => ¬ e.OutsideCode := by
  have accounted := Machine.execute_accounted (c := c) (fetched_operands fetched)
  cases executed : Machine.execute c op q.machine.pass with
  | ok returned m =>
    rw [executed] at accounted
    exact Machine.Does.supplied accounted
  | error e m =>
    rw [executed] at accounted
    obtain ⟨left, _, faults⟩ := accounted
    exact faults.reported

theorem round_reported {maxSteps : Int} {ended : Ended} (last : q.round c maxSteps = .ended ended) :
    ∀ e, ended.error = some e → ¬ e.fault.OutsideCode := by
  have possible := round_case c maxSteps q
  rw [last] at possible
  intro e error
  cases possible with
  | unfetched e' failed =>
    cases error
    exact fetch_reported failed
  | limited op fetched reached =>
    cases error
    exact id
  | returned op m fetched below executed => cases error
  | faulted op m f fetched below executed =>
    cases error
    have outcome := executed_in_range c fetched
    rw [executed] at outcome
    exact outcome

private theorem run_reported {p : Progress} {maxSteps : Int} {rounds : Nat} {ended : Ended}
    (run : p.run c maxSteps rounds = some ended) :
    ∀ e, ended.error = some e → ¬ e.fault.OutsideCode := by
  obtain ⟨n, q, _, _, last⟩ := run_eq_some_iff.mp run
  exact round_reported last

/-- No run leaves the code, whatever class, code, position, stack, locals and step limit it starts
with. A fetched instruction lies in the code with all its bytes, depends on no byte but its operands,
and either finds all it takes from the stack, the locals and the pool, or faults with a reason of its
own; outside the instructions nothing is fetched. So every run, and every execution of a virtual
machine, that ends with an error ends with a reported one. -/
theorem run_stays_inside :
    (∀ (c : ClassFile) (q : Progress) (op : Opcode), q.fetched = .ok op →
      (codeStart : Int) ≤ q.machine.frame.pc ∧
      q.machine.frame.pc + op.width ≤ q.machine.frame.code.length ∧
      q.machine.frame.byteAt? q.machine.frame.pc = some op.byte ∧
      (∀ code : Bytes,
        (∀ i : Int, q.machine.frame.pc < i → i < q.machine.frame.pc + op.width →
          (q.machine.frame.recode code).byteAt? i = q.machine.frame.byteAt? i) →
        Machine.execute c op (q.machine.pass.recode code) =
          Machine.recodeOutcome code (Machine.execute c op q.machine.pass)) ∧
      (match Machine.execute c op q.machine.pass with
        | .ok _ _ => q.machine.frame.Supplies c op
        | .error e _ => ¬ e.OutsideCode)) ∧
    (∀ q : Progress,
      q.machine.frame.pc < codeStart ∨ (q.machine.frame.code.length : Int) ≤ q.machine.frame.pc →
      q.fetched = .error ⟨q.machine.frame.pc, 0, .noInstruction⟩) ∧
    (∀ (c : ClassFile) (p : Progress) (maxSteps : Int) (rounds : Nat) (ended : Ended),
      p.run c maxSteps rounds = some ended →
      ∀ e, ended.error = some e → ¬ e.fault.OutsideCode) ∧
    (∀ (vm vm' : Vm) (rounds : Nat) (trace : List TraceEntry),
      vm.execute rounds = some (vm', trace) →
      match vm'.error with
      | none => True
      | some (.entry e) => vm.classFile.entryPoint = .error e
      | some (.exec e) => ¬ e.fault.OutsideCode) := by
  refine ⟨?_, fun q outside => fetch_of_outside outside, fun _ _ _ _ _ run => run_reported run, ?_⟩
  · intro c q op fetched
    obtain ⟨started, wide, byte⟩ := fetched_inside fetched
    exact ⟨started, wide, byte, executed_recoded c q op, executed_in_range c fetched⟩
  · intro vm vm' rounds trace executed
    unfold Vm.execute at executed
    split at executed
    · rename_i e missing
      cases executed
      exact missing
    · dsimp only at executed
      split at executed
      · cases executed
      · rename_i ended run
        cases executed
        dsimp only
        cases error : ended.error with
        | none => trivial
        | some e => exact run_reported run e error

end Progress

end Jvm
