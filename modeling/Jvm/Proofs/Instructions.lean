import Jvm.Machine.Run
import Jvm.Proofs.Outcomes
import Jvm.Proofs.Rounds
import Mathlib.Tactic.Common

/-!
What an instruction can do, case by case: the machine after it, or the fault and what the fault leaves
on the stack. The operand bytes are taken to be there, as the run loop makes sure of before it
executes an instruction.
-/

set_option autoImplicit false
set_option relaxedAutoImplicit false

namespace Jvm

namespace Frame

variable {f : Frame}

def u16At? (f : Frame) (i : Int) : Option UInt16 := do
  let high <- f.byteAt? i
  let low <- f.byteAt? (i + 1)
  return (Bytes.bigEndian [high, low]).toUInt16

def HasOperands (f : Frame) (op : Opcode) : Prop :=
  ∀ i : Int, f.pc < i → i < f.pc + op.width → ∃ b, f.byteAt? i = some b

theorem HasOperands.byte {op : Opcode} (there : f.HasOperands op) (wide : 2 ≤ op.width) :
    ∃ b, f.byteAt? (f.pc + 1) = some b :=
  there (f.pc + 1) (by omega) (by omega)

theorem HasOperands.word {op : Opcode} (there : f.HasOperands op) (wide : 3 ≤ op.width) :
    ∃ n, f.u16At? (f.pc + 1) = some n := by
  obtain ⟨high, first⟩ := there (f.pc + 1) (by omega) (by omega)
  obtain ⟨low, second⟩ := there (f.pc + 1 + 1) (by omega) (by omega)
  exact ⟨(Bytes.bigEndian [high, low]).toUInt16, by simp [u16At?, first, second]⟩

theorem readU8_of_some {b : UInt8} (operand : f.byteAt? f.pc = some b) :
    readU8 f = .ok b { f with pc := f.pc + 1 } := by
  rw [readU8, Outcome.get_bind, operand]
  rfl

theorem readU8_of_none (absent : f.byteAt? f.pc = none) :
    readU8 f = .error .operandOutside f := by
  rw [readU8, Outcome.get_bind, absent]
  rfl

theorem readU16_of_some {n : UInt16} (operand : f.u16At? f.pc = some n) :
    readU16 f = .ok n { f with pc := f.pc + 2 } := by
  rw [readU16, Outcome.get_bind]
  unfold u16At? at operand
  cases first : f.byteAt? f.pc with
  | none => simp [first] at operand
  | some high =>
    cases second : f.byteAt? (f.pc + 1) with
    | none => simp [first, second] at operand
    | some low =>
      have same : (Bytes.bigEndian [high, low]).toUInt16 = n := by
        simpa [first, second] using operand
      rw [← same]
      rfl

theorem readU16_of_none (absent : f.u16At? f.pc = none) :
    readU16 f = .error .operandOutside f := by
  rw [readU16, Outcome.get_bind]
  unfold u16At? at absent
  cases first : f.byteAt? f.pc with
  | none => rfl
  | some high =>
    cases second : f.byteAt? (f.pc + 1) with
    | none => rfl
    | some low => simp [first, second] at absent

/-- A stack that does not start with values of the given kinds, the top one first, with the fault of
popping them and what is left on the stack then. -/
inductive Unpoppable : List Kind -> List Value -> Fault -> List Value -> Prop
  | underflow {kind : Kind} {kinds : List Kind} : Unpoppable (kind :: kinds) [] .stackUnderflow []
  | wrong {kind : Kind} {kinds : List Kind} {v : Value} {rest : List Value}
    (other : v.kind ≠ kind) : Unpoppable (kind :: kinds) (v :: rest) (.poppedKind v kind) rest
  | later {kind : Kind} {kinds : List Kind} {v : Value} {rest left : List Value} {e : Fault}
    (right : v.kind = kind) (deeper : Unpoppable kinds rest e left) :
    Unpoppable (kind :: kinds) (v :: rest) e left

theorem pop_of_nil (empty : f.stack = []) :
    pop f = .error .stackUnderflow { f with stack := [] } := by
  obtain ⟨code, pc, stack, locals⟩ := f
  cases empty
  rfl

theorem pop_of_cons {v : Value} {rest : List Value} (top : f.stack = v :: rest) :
    pop f = .ok v { f with stack := rest } := by
  obtain ⟨code, pc, stack, locals⟩ := f
  cases top
  rfl

/-- The operation takes a value of a kind from the stack, or faults as popping one does. -/
def Takes {α : Type} (kind : Kind) (value : α -> Value) (take : FrameM α) : Prop :=
  ∀ f : Frame,
    (∃ a rest, f.stack = value a :: rest ∧ take f = .ok a { f with stack := rest }) ∨
      ∃ e left, (∀ kinds, Unpoppable (kind :: kinds) f.stack e left) ∧
        take f = .error e { f with stack := left }

theorem popInt_takes : Takes .int .int popInt := by
  rintro ⟨code, pc, stack, locals⟩
  cases stack with
  | nil => exact .inr ⟨_, [], fun _ => .underflow, rfl⟩
  | cons v rest =>
    cases v with
    | int n => exact .inl ⟨n, rest, rfl, rfl⟩
    | void => exact .inr ⟨_, rest, fun _ => .wrong (by decide), rfl⟩
    | string s => exact .inr ⟨_, rest, fun _ => .wrong (by simp [Value.kind]), rfl⟩

theorem popString_takes : Takes .string .string popString := by
  rintro ⟨code, pc, stack, locals⟩
  cases stack with
  | nil => exact .inr ⟨_, [], fun _ => .underflow, rfl⟩
  | cons v rest =>
    cases v with
    | string s => exact .inl ⟨s, rest, rfl, rfl⟩
    | void => exact .inr ⟨_, rest, fun _ => .wrong (by decide), rfl⟩
    | int n => exact .inr ⟨_, rest, fun _ => .wrong (by simp [Value.kind]), rfl⟩

theorem popInts_cases (f : Frame) :
    (∃ v2 v1 rest, f.stack = .int v2 :: .int v1 :: rest ∧
      ∀ work : Int32 -> Int32 -> FrameM Unit,
        (do let v2 <- popInt; let v1 <- popInt; work v2 v1) f = work v2 v1 { f with stack := rest }) ∨
      ∃ e left, Unpoppable [.int, .int] f.stack e left ∧
        ∀ work : Int32 -> Int32 -> FrameM Unit,
          (do let v2 <- popInt; let v1 <- popInt; work v2 v1) f =
            .error e { f with stack := left } := by
  rcases popInt_takes f with ⟨v2, rest, top, first⟩ | ⟨e, left, top, first⟩
  · rcases popInt_takes { f with stack := rest } with ⟨v1, rest', top', second⟩ |
      ⟨e, left, top', second⟩
    · refine .inl ⟨v2, v1, rest', ?_, fun work => ?_⟩
      · rw [top]
        exact congrArg _ top'
      · rw [Outcome.bind_of_ok first, Outcome.bind_of_ok second]
    · refine .inr ⟨e, left, ?_, fun work => ?_⟩
      · rw [top]
        exact .later rfl (top' [])
      · rw [Outcome.bind_of_ok first, Outcome.bind_of_error second]
  · exact .inr ⟨e, left, top _, fun work => Outcome.bind_of_error first _⟩

theorem getLocal_of_some {i : Nat} {v : Value} (present : f.locals[i]? = some v) :
    getLocal i f = .ok v f := by
  change getLocal (.ofNat i) f = _
  rw [getLocal, Outcome.get_bind]
  dsimp only
  rw [present]
  rfl

theorem getLocal_of_none {i : Nat} (absent : f.locals[i]? = none) :
    getLocal i f = .error (.badLocal i f.locals.length) f := by
  change getLocal (.ofNat i) f = _
  rw [getLocal, Outcome.get_bind]
  dsimp only
  rw [absent]
  rfl

theorem getLocalInt_of_int {i : Nat} {n : Int32} (present : f.locals[i]? = some (.int n)) :
    getLocalInt i f = .ok n f := by
  rw [getLocalInt, Outcome.bind_of_ok (getLocal_of_some present)]
  rfl

theorem getLocalInt_of_other {i : Nat} {v : Value} (present : f.locals[i]? = some v)
    (other : v.kind ≠ .int) : getLocalInt i f = .error (.localKind i v) f := by
  rw [getLocalInt, Outcome.bind_of_ok (getLocal_of_some present)]
  cases v with
  | int n => exact (other rfl).elim
  | void => rfl
  | string s => rfl

theorem getLocalInt_of_none {i : Nat} (absent : f.locals[i]? = none) :
    getLocalInt i f = .error (.badLocal i f.locals.length) f :=
  Outcome.bind_of_error (getLocal_of_none absent) _

theorem setLocal_of_lt {i : Nat} (v : Value) (fits : i < f.locals.length) :
    setLocal i v f = .ok () { f with locals := f.locals.set i v } := by
  change setLocal (.ofNat i) v f = _
  rw [setLocal, Outcome.get_bind]
  dsimp only
  rw [if_pos fits]
  rfl

theorem setLocal_of_le {i : Nat} (v : Value) (beyond : f.locals.length ≤ i) :
    setLocal i v f = .error (.badLocal i f.locals.length) f := by
  change setLocal (.ofNat i) v f = _
  rw [setLocal, Outcome.get_bind]
  dsimp only
  rw [if_neg (Nat.not_lt.mpr beyond)]
  rfl

end Frame

namespace Native

def pops : Native -> List Kind
  | printlnInt => [.int, .int]
  | printlnString => [.string, .int]

def line? : Native -> List Value -> Option (Bytes × List Value)
  | printlnInt, .int n :: .int _ :: rest => some (Bytes.int n.toInt, rest)
  | printlnString, .string text :: .int _ :: rest => some (text, rest)
  | _, _ => none

end Native

namespace Machine

def moved (m : Machine) (pc : Int) (stack : List Value) : Machine :=
  { m with frame := { m.frame with pc := pc, stack := stack } }

def behind (m : Machine) (op : Opcode) (stack : List Value) : Machine :=
  m.moved (m.frame.pc + op.width) stack

def stored (m : Machine) (slot : Nat) (v : Value) : Machine :=
  { m with frame := { m.frame with locals := m.frame.locals.set slot v } }

/-- All that an instruction can do when it does not fault: whether the frame returns, and the machine
afterwards. The position of `m` is that of the instruction's byte. -/
inductive Does (c : ClassFile) (m : Machine) : Opcode -> Bool -> Machine -> Prop
  | iconst1 : Does c m .iconst1 false (m.behind .iconst1 (.int 1 :: m.frame.stack))
  | iconst3 : Does c m .iconst3 false (m.behind .iconst3 (.int 3 :: m.frame.stack))
  | iconst5 : Does c m .iconst5 false (m.behind .iconst5 (.int 5 :: m.frame.stack))
  | bipush (b : UInt8) (operand : m.frame.byteAt? (m.frame.pc + 1) = some b) :
    Does c m .bipush false (m.behind .bipush (.int b.toInt8.toInt32 :: m.frame.stack))
  | ldc (index : UInt8) (text : Bytes) (operand : m.frame.byteAt? (m.frame.pc + 1) = some index)
    (resolved : c.resolveString index.toUInt16 = .ok text) :
    Does c m .ldc false (m.behind .ldc (.string text :: m.frame.stack))
  | iload1 (v : Value) (present : m.frame.locals[1]? = some v) :
    Does c m .iload1 false (m.behind .iload1 (v :: m.frame.stack))
  | istore1 (v : Value) (rest : List Value) (top : m.frame.stack = v :: rest)
    (fits : 1 < m.frame.locals.length) :
    Does c m .istore1 false ((m.behind .istore1 rest).stored 1 v)
  | iinc (slot delta : UInt8) (n : Int32) (first : m.frame.byteAt? (m.frame.pc + 1) = some slot)
    (second : m.frame.byteAt? (m.frame.pc + 2) = some delta)
    (present : m.frame.locals[slot.toNat]? = some (.int n)) :
    Does c m .iinc false
      ((m.behind .iinc m.frame.stack).stored slot.toNat (.int (n + delta.toInt8.toInt32)))
  | irem (v2 v1 : Int32) (rest : List Value) (top : m.frame.stack = .int v2 :: .int v1 :: rest)
    (nonzero : v2 ≠ 0) : Does c m .irem false (m.behind .irem (.int (remainder v1 v2) :: rest))
  | ifneTaken (distance : UInt16) (v : Int32) (rest : List Value)
    (operand : m.frame.u16At? (m.frame.pc + 1) = some distance)
    (top : m.frame.stack = .int v :: rest) (taken : v ≠ 0) :
    Does c m .ifne false (m.moved (m.frame.pc + distance.toInt16.toInt) rest)
  | ifneNotTaken (v : Int32) (rest : List Value) (top : m.frame.stack = .int v :: rest)
    (notTaken : v = 0) : Does c m .ifne false (m.behind .ifne rest)
  | ifIcmpgtTaken (distance : UInt16) (v2 v1 : Int32) (rest : List Value)
    (operand : m.frame.u16At? (m.frame.pc + 1) = some distance)
    (top : m.frame.stack = .int v2 :: .int v1 :: rest) (taken : v1 > v2) :
    Does c m .ifIcmpgt false (m.moved (m.frame.pc + distance.toInt16.toInt) rest)
  | ifIcmpgtNotTaken (v2 v1 : Int32) (rest : List Value)
    (top : m.frame.stack = .int v2 :: .int v1 :: rest) (notTaken : ¬ v1 > v2) :
    Does c m .ifIcmpgt false (m.behind .ifIcmpgt rest)
  | goto (distance : UInt16) (operand : m.frame.u16At? (m.frame.pc + 1) = some distance) :
    Does c m .goto false (m.moved (m.frame.pc + distance.toInt16.toInt) m.frame.stack)
  | return_ : Does c m .return_ true (m.behind .return_ m.frame.stack)
  | getstatic : Does c m .getstatic false (m.behind .getstatic (.int 0 :: m.frame.stack))
  | invokevirtual (index : UInt16) (method : MemberRef) (n : Native) (line : Bytes)
    (rest : List Value) (sink : Sink) (operand : m.frame.u16At? (m.frame.pc + 1) = some index)
    (resolved : c.resolveMethodref index = .ok method) (known : Native.ofId? method.id = some n)
    (top : n.line? m.frame.stack = some (line, rest))
    (printed : m.sink.println? line = some sink) :
    Does c m .invokevirtual false { m.behind .invokevirtual rest with sink := sink }

/-- All the faults of an instruction, with what is left on the stack. -/
inductive Faults (c : ClassFile) (m : Machine) : Opcode -> Fault -> List Value -> Prop
  | ldc (index : UInt8) (e : ResolveError)
    (operand : m.frame.byteAt? (m.frame.pc + 1) = some index)
    (unresolved : c.resolveString index.toUInt16 = .error e) :
    Faults c m .ldc (.badConstant e) m.frame.stack
  | iload1 (absent : m.frame.locals.length ≤ 1) :
    Faults c m .iload1 (.badLocal 1 m.frame.locals.length) m.frame.stack
  | istore1Underflow (empty : m.frame.stack = []) : Faults c m .istore1 .stackUnderflow []
  | istore1 (v : Value) (rest : List Value) (top : m.frame.stack = v :: rest)
    (absent : m.frame.locals.length ≤ 1) :
    Faults c m .istore1 (.badLocal 1 m.frame.locals.length) rest
  | iincAbsent (slot : UInt8) (operand : m.frame.byteAt? (m.frame.pc + 1) = some slot)
    (absent : m.frame.locals.length ≤ slot.toNat) :
    Faults c m .iinc (.badLocal slot.toNat m.frame.locals.length) m.frame.stack
  | iincKind (slot : UInt8) (v : Value) (operand : m.frame.byteAt? (m.frame.pc + 1) = some slot)
    (present : m.frame.locals[slot.toNat]? = some v) (other : v.kind ≠ .int) :
    Faults c m .iinc (.localKind slot.toNat v) m.frame.stack
  | irem (e : Fault) (left : List Value) (top : Frame.Unpoppable [.int, .int] m.frame.stack e left) :
    Faults c m .irem e left
  | iremZero (v1 : Int32) (rest : List Value) (top : m.frame.stack = .int 0 :: .int v1 :: rest) :
    Faults c m .irem (.divideByZero v1) rest
  | ifne (e : Fault) (left : List Value) (top : Frame.Unpoppable [.int] m.frame.stack e left) :
    Faults c m .ifne e left
  | ifIcmpgt (e : Fault) (left : List Value)
    (top : Frame.Unpoppable [.int, .int] m.frame.stack e left) : Faults c m .ifIcmpgt e left
  | unresolved (index : UInt16) (e : ResolveError)
    (operand : m.frame.u16At? (m.frame.pc + 1) = some index)
    (unresolved : c.resolveMethodref index = .error e) :
    Faults c m .invokevirtual (.badConstant e) m.frame.stack
  | unknown (index : UInt16) (method : MemberRef)
    (operand : m.frame.u16At? (m.frame.pc + 1) = some index)
    (resolved : c.resolveMethodref index = .ok method) (unknown : Native.ofId? method.id = none) :
    Faults c m .invokevirtual (.unknownMethod method) m.frame.stack
  | unpopped (index : UInt16) (method : MemberRef) (n : Native) (e : Fault) (left : List Value)
    (operand : m.frame.u16At? (m.frame.pc + 1) = some index)
    (resolved : c.resolveMethodref index = .ok method) (known : Native.ofId? method.id = some n)
    (top : Frame.Unpoppable n.pops m.frame.stack e left) :
    Faults c m .invokevirtual (.inMethod method e) left
  | refused (index : UInt16) (method : MemberRef) (n : Native) (line : Bytes) (rest : List Value)
    (operand : m.frame.u16At? (m.frame.pc + 1) = some index)
    (resolved : c.resolveMethodref index = .ok method) (known : Native.ofId? method.id = some n)
    (top : n.line? m.frame.stack = some (line, rest)) (refused : m.sink.println? line = none) :
    Faults c m .invokevirtual (.inMethod method .sinkFull) rest

/-- An outcome that is among those of the instruction. Every fault comes when all operands have been
read, and changes nothing but the position and the stack. -/
def Accounted (c : ClassFile) (m : Machine) (op : Opcode) :
    EStateM.Result Fault Machine Bool -> Prop
  | .ok returned m' => Does c m op returned m'
  | .error e m' => ∃ left, m' = m.behind op left ∧ Faults c m op e left

variable {c : ClassFile} {m : Machine} {op : Opcode}

theorem onFrame_of_ok {α : Type} {x : FrameM α} {a : α} {f : Frame} (run : x m.frame = .ok a f) :
    onFrame x m = .ok a { m with frame := f } := by
  rw [onFrame, run]

theorem onFrame_of_error {α : Type} {x : FrameM α} {e : Fault} {f : Frame}
    (run : x m.frame = .error e f) : onFrame x m = .error e { m with frame := f } := by
  rw [onFrame, run]

private theorem accounted_of_ok {x : FrameM Unit} {f : Frame} (run : x m.pass.frame = .ok () f)
    (does : Does c m op false { m with frame := f }) : Accounted c m op (proceed x m.pass) := by
  rw [proceed, Outcome.bind_of_ok (onFrame_of_ok run)]
  exact does

private theorem accounted_of_error {x : FrameM Unit} {e : Fault} {f : Frame} {left : List Value}
    (run : x m.pass.frame = .error e f) (faults : Faults c m op e left)
    (same : f = (m.behind op left).frame) : Accounted c m op (proceed x m.pass) := by
  rw [proceed, Outcome.bind_of_error (onFrame_of_error run), same]
  exact ⟨left, rfl, faults⟩

private theorem readU8_pass (op : Opcode) {b : UInt8}
    (operand : m.frame.byteAt? (m.frame.pc + 1) = some b) (two : op.width = 2) :
    Frame.readU8 m.pass.frame = .ok b (m.behind op m.frame.stack).frame := by
  have reached : m.frame.pc + 1 + 1 = m.frame.pc + op.width := by omega
  rw [Frame.readU8_of_some operand, behind, moved, ← reached]
  rfl

theorem readU16_pass (op : Opcode) {n : UInt16}
    (operand : m.frame.u16At? (m.frame.pc + 1) = some n) (three : op.width = 3) :
    Frame.readU16 m.pass.frame = .ok n (m.behind op m.frame.stack).frame := by
  have reached : m.frame.pc + 1 + 2 = m.frame.pc + op.width := by omega
  rw [Frame.readU16_of_some operand, behind, moved, ← reached]
  rfl

private theorem readTarget_pass (op : Opcode) {distance : UInt16}
    (operand : m.frame.u16At? (m.frame.pc + 1) = some distance) (three : op.width = 3) :
    readTarget m.pass.frame =
      .ok (m.frame.pc + distance.toInt16.toInt) (m.behind op m.frame.stack).frame := by
  have aimed : m.pass.frame.pc - 1 + distance.toInt16.toInt =
      m.frame.pc + distance.toInt16.toInt := by
    change m.frame.pc + 1 - 1 + _ = _
    omega
  have read : Frame.readI16 m.pass.frame =
      .ok distance.toInt16 (m.behind op m.frame.stack).frame := by
    rw [Frame.readI16, Outcome.bind_of_ok (readU16_pass op operand three)]
    rfl
  rw [readTarget, Outcome.get_bind, Outcome.bind_of_ok read, aimed]
  rfl

/-! ### The instructions one by one -/

private theorem bipush_accounted (there : m.frame.HasOperands .bipush) :
    Accounted c m .bipush (execute c .bipush m.pass) := by
  obtain ⟨b, operand⟩ := there.byte (by decide)
  have read : Frame.readI8 m.pass.frame = .ok b.toInt8 (m.behind .bipush m.frame.stack).frame := by
    rw [Frame.readI8, Outcome.bind_of_ok (readU8_pass .bipush operand rfl)]
    rfl
  exact accounted_of_ok (Outcome.bind_of_ok read _) (.bipush b operand)

private theorem ldc_accounted (there : m.frame.HasOperands .ldc) :
    Accounted c m .ldc (execute c .ldc m.pass) := by
  obtain ⟨index, operand⟩ := there.byte (by decide)
  have read := readU8_pass .ldc operand rfl
  cases resolved : c.resolveString index.toUInt16 with
  | ok text =>
    refine accounted_of_ok ((Outcome.bind_of_ok read _).trans ?_) (.ldc index text operand resolved)
    rw [loadString, resolved]
    rfl
  | error e =>
    refine accounted_of_error ((Outcome.bind_of_ok read _).trans ?_)
      (.ldc index e operand resolved) rfl
    rw [loadString, resolved]
    rfl

private theorem iload1_accounted : Accounted c m .iload1 (execute c .iload1 m.pass) := by
  cases present : m.frame.locals[1]? with
  | some v =>
    have loaded : Frame.getLocal 1 m.pass.frame = .ok v m.pass.frame :=
      Frame.getLocal_of_some present
    exact accounted_of_ok (Outcome.bind_of_ok loaded _) (.iload1 v present)
  | none =>
    have failed : Frame.getLocal 1 m.pass.frame =
        .error (.badLocal 1 m.frame.locals.length) m.pass.frame := Frame.getLocal_of_none present
    exact accounted_of_error (Outcome.bind_of_error failed _)
      (.iload1 (List.getElem?_eq_none_iff.mp present)) rfl

private theorem istore1_accounted : Accounted c m .istore1 (execute c .istore1 m.pass) := by
  cases top : m.frame.stack with
  | nil =>
    have failed := Frame.pop_of_nil (f := m.pass.frame) top
    exact accounted_of_error (Outcome.bind_of_error failed _) (.istore1Underflow top) rfl
  | cons v rest =>
    have popped := Frame.pop_of_cons (f := m.pass.frame) top
    rcases Nat.lt_or_ge 1 m.frame.locals.length with fits | absent
    · have stored := Frame.setLocal_of_lt (f := { m.pass.frame with stack := rest }) v fits
      exact accounted_of_ok ((Outcome.bind_of_ok popped _).trans stored) (.istore1 v rest top fits)
    · have failed := Frame.setLocal_of_le (f := { m.pass.frame with stack := rest }) v absent
      exact accounted_of_error ((Outcome.bind_of_ok popped _).trans failed)
        (.istore1 v rest top absent) rfl

private theorem iinc_accounted (there : m.frame.HasOperands .iinc) :
    Accounted c m .iinc (execute c .iinc m.pass) := by
  obtain ⟨slot, first⟩ := there.byte (by decide)
  obtain ⟨delta, second⟩ := there (m.frame.pc + 2) (by omega)
    (by rw [show Opcode.iinc.width = 3 from rfl]; omega)
  have readSlot : Frame.readU8 m.pass.frame = .ok slot m.pass.pass.frame :=
    Frame.readU8_of_some first
  have readDelta : Frame.readI8 m.pass.pass.frame =
      .ok delta.toInt8 (m.behind .iinc m.frame.stack).frame := by
    have here : m.pass.pass.frame.byteAt? m.pass.pass.frame.pc = some delta := by
      rw [← second]
      change m.frame.byteAt? (m.frame.pc + 1 + 1) = _
      rw [Int.add_assoc]
      rfl
    have reached : m.frame.pc + 1 + 1 + 1 = m.frame.pc + Opcode.iinc.width := by
      rw [Int.add_assoc, Int.add_assoc]
      rfl
    rw [Frame.readI8, Outcome.bind_of_ok (Frame.readU8_of_some here), behind, moved, ← reached]
    rfl
  have operands (work : UInt8 -> Int8 -> FrameM Unit) :
      (do let slot <- Frame.readU8; let delta <- Frame.readI8; work slot delta) m.pass.frame =
        work slot delta.toInt8 (m.behind .iinc m.frame.stack).frame := by
    rw [Outcome.bind_of_ok readSlot, Outcome.bind_of_ok readDelta]
  cases present : m.frame.locals[slot.toNat]? with
  | none =>
    have failed := Frame.getLocalInt_of_none (f := (m.behind .iinc m.frame.stack).frame) present
    exact accounted_of_error ((operands _).trans (Outcome.bind_of_error failed _))
      (.iincAbsent slot first (List.getElem?_eq_none_iff.mp present)) rfl
  | some v =>
    by_cases kind : v.kind = .int
    · obtain ⟨n, rfl⟩ : ∃ n, v = .int n := by
        cases v with
        | int n => exact ⟨n, rfl⟩
        | void => cases kind
        | string s => cases kind
      have loaded := Frame.getLocalInt_of_int (f := (m.behind .iinc m.frame.stack).frame) present
      have fits : slot.toNat < m.frame.locals.length := (List.getElem?_eq_some_iff.mp present).1
      have stored := Frame.setLocal_of_lt (f := (m.behind .iinc m.frame.stack).frame)
        (.int (n + delta.toInt8.toInt32)) fits
      exact accounted_of_ok ((operands _).trans ((Outcome.bind_of_ok loaded _).trans stored))
        (.iinc slot delta n first second present)
    · have failed :=
        Frame.getLocalInt_of_other (f := (m.behind .iinc m.frame.stack).frame) present kind
      exact accounted_of_error ((operands _).trans (Outcome.bind_of_error failed _))
        (.iincKind slot v first present kind) rfl

private theorem irem_accounted : Accounted c m .irem (execute c .irem m.pass) := by
  rcases Frame.popInts_cases m.pass.frame with ⟨v2, v1, rest, top, popped⟩ | ⟨e, left, top, failed⟩
  · by_cases zero : v2 = 0
    · subst zero
      exact accounted_of_error ((popped _).trans (congrFun (if_pos rfl) _)) (.iremZero v1 rest top) rfl
    · exact accounted_of_ok ((popped _).trans (congrFun (if_neg zero) _))
        (.irem v2 v1 rest top zero)
  · exact accounted_of_error (failed _) (.irem e left top) rfl

private theorem ifne_accounted (there : m.frame.HasOperands .ifne) :
    Accounted c m .ifne (execute c .ifne m.pass) := by
  obtain ⟨distance, operand⟩ := there.word (by decide)
  have read := readTarget_pass .ifne operand rfl
  rcases Frame.popInt_takes (m.behind .ifne m.frame.stack).frame with
    ⟨v, rest, top, popped⟩ | ⟨e, left, top, failed⟩
  · by_cases zero : v = 0
    · refine accounted_of_ok ?_ (.ifneNotTaken v rest top zero)
      rw [Outcome.bind_of_ok read, Outcome.bind_of_ok popped, if_pos zero]
      rfl
    · refine accounted_of_ok ?_ (.ifneTaken distance v rest operand top zero)
      rw [Outcome.bind_of_ok read, Outcome.bind_of_ok popped, if_neg zero]
      rfl
  · exact accounted_of_error ((Outcome.bind_of_ok read _).trans (Outcome.bind_of_error failed _))
      (.ifne e left (top [])) rfl

private theorem ifIcmpgt_accounted (there : m.frame.HasOperands .ifIcmpgt) :
    Accounted c m .ifIcmpgt (execute c .ifIcmpgt m.pass) := by
  obtain ⟨distance, operand⟩ := there.word (by decide)
  have read := readTarget_pass .ifIcmpgt operand rfl
  rcases Frame.popInts_cases (m.behind .ifIcmpgt m.frame.stack).frame with
    ⟨v2, v1, rest, top, popped⟩ | ⟨e, left, top, failed⟩
  · by_cases greater : v1 > v2
    · refine accounted_of_ok ?_ (.ifIcmpgtTaken distance v2 v1 rest operand top greater)
      rw [Outcome.bind_of_ok read, popped, if_pos greater]
      rfl
    · refine accounted_of_ok ?_ (.ifIcmpgtNotTaken v2 v1 rest top greater)
      rw [Outcome.bind_of_ok read, popped, if_neg greater]
      rfl
  · exact accounted_of_error ((Outcome.bind_of_ok read _).trans (failed _))
      (.ifIcmpgt e left top) rfl

private theorem goto_accounted (there : m.frame.HasOperands .goto) :
    Accounted c m .goto (execute c .goto m.pass) := by
  obtain ⟨distance, operand⟩ := there.word (by decide)
  have read := readTarget_pass .goto operand rfl
  exact accounted_of_ok (Outcome.bind_of_ok read _) (.goto distance operand)

private theorem getstatic_accounted (there : m.frame.HasOperands .getstatic) :
    Accounted c m .getstatic (execute c .getstatic m.pass) := by
  obtain ⟨index, operand⟩ := there.word (by decide)
  have read := readU16_pass .getstatic operand rfl
  exact accounted_of_ok (Outcome.bind_of_ok read _) .getstatic

private theorem printing_cases {α : Type} {kind : Kind} {value : α -> Value} {take : FrameM α}
    (takes : Frame.Takes kind value take) (right : ∀ a, (value a).kind = kind)
    (print : α -> Sink -> Option Sink) (m : Machine) :
    let work : Exec Unit := do
      let a <- onFrame take
      let _ <- onFrame Frame.popInt
      emit (print a)
    (∃ a receiver rest, m.frame.stack = value a :: .int receiver :: rest ∧
      work m = emit (print a) (m.moved m.frame.pc rest)) ∨
      ∃ e left, Frame.Unpoppable [kind, .int] m.frame.stack e left ∧
        work m = .error e (m.moved m.frame.pc left) := by
  rcases takes m.frame with ⟨a, below, top, popped⟩ | ⟨e, left, top, failed⟩
  · have first := Outcome.bind_of_ok (onFrame_of_ok popped) fun a =>
      (do let _ <- onFrame Frame.popInt; emit (print a) : Exec Unit)
    rcases Frame.popInt_takes (m.moved m.frame.pc below).frame with
      ⟨receiver, rest, top', popped'⟩ | ⟨e, left, top', failed'⟩
    · have top' : below = .int receiver :: rest := top'
      refine .inl ⟨a, receiver, rest, ?_, ?_⟩
      · rw [top, top']
      · exact first.trans (Outcome.bind_of_ok (onFrame_of_ok popped') _)
    · refine .inr ⟨e, left, ?_, ?_⟩
      · rw [top]
        exact .later (right a) (top' [])
      · exact first.trans (Outcome.bind_of_error (onFrame_of_error failed') _)
  · exact .inr ⟨e, left, top [.int], Outcome.bind_of_error (onFrame_of_error failed) _⟩

theorem native_cases (n : Native) (m : Machine) :
    (∃ line rest, n.line? m.frame.stack = some (line, rest) ∧
      native n m = emit (·.println? line) (m.moved m.frame.pc rest)) ∨
      ∃ e left, Frame.Unpoppable n.pops m.frame.stack e left ∧
        native n m = .error e (m.moved m.frame.pc left) := by
  cases n with
  | printlnInt =>
    rcases printing_cases Frame.popInt_takes (fun _ => rfl) (fun k s => s.printlnInt? k) m with
      ⟨k, receiver, rest, top, run⟩ | failed
    · refine .inl ⟨Bytes.int k.toInt, rest, ?_, run⟩
      rw [top, Native.line?]
    · exact .inr failed
  | printlnString =>
    rcases printing_cases Frame.popString_takes (fun _ => rfl) (fun text s => s.println? text) m with
      ⟨text, receiver, rest, top, run⟩ | failed
    · refine .inl ⟨text, rest, ?_, run⟩
      rw [top, Native.line?]
    · exact .inr failed

private theorem invokevirtual_accounted (there : m.frame.HasOperands .invokevirtual) :
    Accounted c m .invokevirtual (execute c .invokevirtual m.pass) := by
  obtain ⟨index, operand⟩ := there.word (by decide)
  have read := onFrame_of_ok (readU16_pass .invokevirtual operand rfl)
  have called : execute c .invokevirtual m.pass =
      (do invoke c index; return false) (m.behind .invokevirtual m.frame.stack) :=
    Outcome.bind_of_ok read _
  rw [called]
  cases resolved : c.resolveMethodref index with
  | error e =>
    have failed : invoke c index (m.behind .invokevirtual m.frame.stack) =
        .error (.badConstant e) (m.behind .invokevirtual m.frame.stack) := by
      rw [invoke, resolved]
      rfl
    rw [Outcome.bind_of_error failed]
    exact ⟨_, rfl, .unresolved index e operand resolved⟩
  | ok method =>
    cases known : Native.ofId? method.id with
    | none =>
      have failed : invoke c index (m.behind .invokevirtual m.frame.stack) =
          .error (.unknownMethod method) (m.behind .invokevirtual m.frame.stack) := by
        rw [invoke, resolved]
        dsimp only
        rw [known]
        rfl
      rw [Outcome.bind_of_error failed]
      exact ⟨_, rfl, .unknown index method operand resolved known⟩
    | some n =>
      have entered : invoke c index = within method (native n) := by
        rw [invoke, resolved]
        dsimp only
        rw [known]
      rw [entered]
      rcases native_cases n (m.behind .invokevirtual m.frame.stack) with
        ⟨line, rest, top, prints⟩ | ⟨e, left, top, failed⟩
      · cases printed : m.sink.println? line with
        | some sink =>
          have run : within method (native n) (m.behind .invokevirtual m.frame.stack) =
              .ok () { m.behind .invokevirtual rest with sink := sink } := by
            rw [within, prints, emit]
            dsimp only [moved, behind]
            rw [printed]
          rw [Outcome.bind_of_ok run]
          exact .invokevirtual index method n line rest sink operand resolved known top printed
        | none =>
          have run : within method (native n) (m.behind .invokevirtual m.frame.stack) =
              .error (.inMethod method .sinkFull) (m.behind .invokevirtual rest) := by
            rw [within, prints, emit]
            dsimp only [moved, behind]
            rw [printed]
          rw [Outcome.bind_of_error run]
          exact ⟨rest, rfl, .refused index method n line rest operand resolved known top printed⟩
      · have run : within method (native n) (m.behind .invokevirtual m.frame.stack) =
            .error (.inMethod method e) (m.behind .invokevirtual left) := by
          rw [within, failed]
          rfl
        rw [Outcome.bind_of_error run]
        exact ⟨left, rfl, .unpopped index method n e left operand resolved known top⟩

/-- An instruction whose operands lie in the code does or faults as listed, and nothing else. -/
theorem execute_accounted (there : m.frame.HasOperands op) :
    Accounted c m op (execute c op m.pass) := by
  cases op with
  | iconst1 => exact .iconst1
  | iconst3 => exact .iconst3
  | iconst5 => exact .iconst5
  | bipush => exact bipush_accounted there
  | ldc => exact ldc_accounted there
  | iload1 => exact iload1_accounted
  | istore1 => exact istore1_accounted
  | irem => exact irem_accounted
  | iinc => exact iinc_accounted there
  | ifne => exact ifne_accounted there
  | ifIcmpgt => exact ifIcmpgt_accounted there
  | goto => exact goto_accounted there
  | return_ => exact .return_
  | getstatic => exact getstatic_accounted there
  | invokevirtual => exact invokevirtual_accounted there

end Machine

end Jvm
