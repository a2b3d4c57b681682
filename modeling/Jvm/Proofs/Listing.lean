import Jvm.Disassembly
import Jvm.Proofs.Execution
import Jvm.Proofs.Numerals
import Jvm.Proofs.Words
import Mathlib.Data.List.Basic
import Mathlib.Tactic.Common
import Mathlib.Tactic.FinCases

/-!
Listings and the machine agree on what the code means. A listing goes through the code once, from its
start to its end, and each of its lines shows what the code has there; the machine fetches at the
position of a line what the line shows. So the line of an instruction tells what the instruction does,
and a run whose branches all aim at lines never leaves the listing.
-/

set_option autoImplicit false
set_option relaxedAutoImplicit false

namespace Jvm

namespace Disassembly

/-! ## Lines one after the other -/

/-- A line shows what a payload has at the line's position: an instruction that ends where the listing
ends or before, or a byte that starts no such instruction. -/
inductive Line.Reads (payload : Bytes) (stop : Nat) : Line -> Prop
  | byte {pc : Nat} {b : UInt8} (here : payload[pc]? = some b)
    (misfits : ∀ op, Opcode.ofByte? b = some op → stop < pc + op.width) :
    Reads payload stop ⟨pc, .byte b⟩
  | instruction {pc : Nat} {op : Opcode} (here : payload[pc]? = some op.byte)
    (fits : pc + op.width ≤ stop) :
    Reads payload stop ⟨pc, .instruction op ((payload.drop (pc + 1)).take (op.width - 1))⟩

/-- The lines cover a payload from a position to the end of the listing, each from where the one
before it ends. -/
inductive Sweep (payload : Bytes) (stop : Nat) : Nat -> List Line -> Prop
  | done : Sweep payload stop stop []
  | line {l : Line} {rest : List Line} (reads : l.Reads payload stop)
    (later : Sweep payload stop (l.pc + l.width) rest) : Sweep payload stop l.pc (l :: rest)

theorem sweep_linesFrom {payload code : Bytes} {stop pc : Nat} (high : stop ≤ payload.length)
    (low : pc ≤ stop) (code_eq : code = (payload.take stop).drop pc) :
    Sweep payload stop pc (linesFrom pc code) := by
  -- What is known of the code in front of the sweep when there is a byte left.
  have ahead {pc : Nat} {b : UInt8} {rest : Bytes}
      (code_eq : b :: rest = (payload.take stop).drop pc) :
      pc < stop ∧ payload[pc]? = some b ∧ rest = (payload.take stop).drop (pc + 1) ∧
        rest.length + 1 = stop - pc := by
    have counted := congrArg List.length code_eq
    rw [List.length_cons, List.length_drop, List.length_take, Nat.min_eq_left high] at counted
    have inside : pc < (payload.take stop).length := by
      rw [List.length_take, Nat.min_eq_left high]
      omega
    rw [List.drop_eq_getElem_cons inside] at code_eq
    obtain ⟨rfl, rfl⟩ := List.cons.inj code_eq
    refine ⟨by omega, ?_, rfl, counted⟩
    rw [List.getElem_take]
    exact List.getElem?_eq_getElem _
  fun_induction linesFrom pc code with
  | case1 pc =>
    have covered : stop ≤ pc := by
      have none := List.drop_eq_nil_iff.mp code_eq.symm
      rw [List.length_take, Nat.min_eq_left high] at none
      exact none
    obtain rfl : pc = stop := by omega
    exact .done
  | case2 pc b rest unknown ih =>
    obtain ⟨inside, here, rest_eq, _⟩ := ahead code_eq
    exact .line (l := ⟨pc, .byte b⟩) (.byte here (by simp [unknown])) (ih (by omega) rest_eq)
  | case3 pc b rest op known short ih =>
    obtain ⟨inside, here, rest_eq, counted⟩ := ahead code_eq
    have misfits (op' : Opcode) (known' : Opcode.ofByte? b = some op') : stop < pc + op'.width := by
      rw [known] at known'
      cases known'
      omega
    exact .line (l := ⟨pc, .byte b⟩) (.byte here misfits) (ih (by omega) rest_eq)
  | case4 pc b rest op known wide ih =>
    obtain ⟨inside, here, rest_eq, counted⟩ := ahead code_eq
    have positive := op.width_pos
    have operands : rest.take (op.width - 1) = (payload.drop (pc + 1)).take (op.width - 1) := by
      rw [rest_eq, List.drop_take, List.take_take, Nat.min_eq_left (by omega)]
    have later : rest.drop (op.width - 1) = (payload.take stop).drop (pc + op.width) := by
      rw [rest_eq, List.drop_drop]
      congr 1
      omega
    rw [← Opcode.ofByte?_eq_some_iff.mp known] at here
    rw [operands]
    exact .line (l := ⟨pc, .instruction op _⟩) (.instruction here (by omega)) (ih (by omega) later)

theorem codeEnd_le (payload : Bytes) : codeEnd payload ≤ payload.length := Nat.min_le_left _ _

theorem sweep_lines {payload : Bytes} (header : codeStart ≤ payload.length) :
    Sweep payload (codeEnd payload) codeStart (lines payload) := by
  have low : codeStart ≤ codeEnd payload := by
    unfold codeEnd
    omega
  rw [lines, if_neg (Nat.not_lt.mpr header)]
  exact sweep_linesFrom (codeEnd_le payload) low rfl

theorem header_of_mem {payload : Bytes} {l : Line} (listed : l ∈ lines payload) :
    codeStart ≤ payload.length := by
  by_contra short
  rw [lines, if_pos (by omega)] at listed
  cases listed

namespace Sweep

variable {payload : Bytes} {stop pc k : Nat} {ls : List Line} {l : Line}

theorem first_pc (sweep : Sweep payload stop pc ls) : (ls.head?.map Line.pc).getD stop = pc := by
  cases sweep with
  | done => rfl
  | line reads later => rfl

theorem reads (sweep : Sweep payload stop pc ls) (listed : l ∈ ls) :
    l.Reads payload stop ∧ pc ≤ l.pc := by
  induction sweep with
  | done => cases listed
  | line reads later ih =>
    rcases List.mem_cons.mp listed with rfl | listed
    · exact ⟨reads, Nat.le_refl _⟩
    · obtain ⟨reads', behind⟩ := ih listed
      exact ⟨reads', by omega⟩

theorem next_pc (sweep : Sweep payload stop pc ls) (present : ls[k]? = some l) :
    (ls[k + 1]?.map Line.pc).getD stop = l.pc + l.width := by
  induction sweep generalizing k with
  | done => cases present
  | line reads later ih =>
    cases k with
    | zero =>
      cases present
      have first := later.first_pc
      rw [List.head?_eq_getElem?] at first
      exact first
    | succ k => exact ih present

end Sweep

/-! ## The texts of lines -/

def position (pc : Nat) : Bytes := Bytes.padLeft 4 32 (Bytes.nat pc) ++ utf8 ": "

def lead (pc : Nat) (op : Opcode) : Bytes :=
  position pc ++ (Bytes.padRight 13 op.name ++ utf8 " ")

variable {c : ClassFile} {payload : Bytes} {pc : Nat} {op : Opcode}

theorem text_instruction {operands : Bytes} (operated : op.layout ≠ .plain) :
    Line.text c ⟨pc, .instruction op operands⟩ =
      lead pc op ++ operandText c pc op.layout operands := by
  simp only [Line.text, if_neg operated, lead, position, List.append_assoc]

theorem text_plain {operands : Bytes} (plain : op.layout = .plain) :
    Line.text c ⟨pc, .instruction op operands⟩ = position pc ++ op.name := by
  simp only [Line.text, if_pos plain, position, List.append_assoc]

theorem text_byte (c : ClassFile) (pc : Nat) (b : UInt8) :
    Line.text c ⟨pc, .byte b⟩ = position pc ++ (utf8 ".byte 0x" ++ Bytes.hex 2 b.toNat) := by
  simp only [Line.text, position]

theorem text_named (c : ClassFile) (pc : Nat) (op : Opcode) (operands : Bytes) :
    ∃ rest, Line.text c ⟨pc, .instruction op operands⟩ = position pc ++ mnemonic op.byte ++ rest ∧
      (rest = [] ∨ rest.head? = some 32) := by
  have name_eq : mnemonic op.byte = op.name := by rw [mnemonic, Opcode.ofByte?_byte]
  rw [name_eq]
  by_cases plain : op.layout = .plain
  · exact ⟨[], by rw [text_plain plain, List.append_nil], .inl rfl⟩
  · refine ⟨List.replicate (13 - op.name.length) 32 ++
      (utf8 " " ++ operandText c pc op.layout operands), ?_, .inr ?_⟩
    · rw [text_instruction plain, lead, Bytes.padRight]
      simp only [List.append_assoc]
    · cases 13 - op.name.length with
      | zero => rfl
      | succ n => rfl

theorem operand_eq (fits : pc + 2 ≤ payload.length) :
    ∃ b, payload[pc + 1]? = some b ∧ (payload.drop (pc + 1)).take 1 = [b] := by
  have inside : pc + 1 < payload.length := by omega
  refine ⟨payload[pc + 1], List.getElem?_eq_getElem inside, ?_⟩
  rw [List.drop_eq_getElem_cons inside]
  rfl

theorem operands_eq (fits : pc + 3 ≤ payload.length) :
    ∃ x y, payload[pc + 1]? = some x ∧ payload[pc + 2]? = some y ∧
      (payload.drop (pc + 1)).take 2 = [x, y] := by
  have inside : pc + 1 < payload.length := by omega
  have inside' : pc + 2 < payload.length := by omega
  refine ⟨payload[pc + 1], payload[pc + 2], List.getElem?_eq_getElem inside,
    List.getElem?_eq_getElem inside', ?_⟩
  rw [List.drop_eq_getElem_cons inside, List.drop_eq_getElem_cons inside']
  rfl

end Disassembly

/-! ## The machine at a line -/

namespace Machine

def IsAt (code : Bytes) (pc : Nat) (m : Machine) : Prop := m.frame.code = code ∧ m.frame.pc = pc

def Branches (m : Machine) : Opcode -> Prop
  | .goto => True
  | .ifne => ∃ (v : Int32) (rest : List Value), m.frame.stack = .int v :: rest ∧ v ≠ 0
  | .ifIcmpgt => ∃ (v2 v1 : Int32) (rest : List Value),
      m.frame.stack = .int v2 :: .int v1 :: rest ∧ v1 > v2
  | _ => False

def dispatch (method : MemberRef) : Exec Unit :=
  match Native.ofId? method.id with
  | none => throw (.unknownMethod method)
  | some n => within method (native n)

variable {c : ClassFile} {code : Bytes} {pc : Nat} {op : Opcode} {m m' : Machine}

theorem execute_invokevirtual {index : UInt16} {method : MemberRef}
    (operand : m.frame.u16At? (m.frame.pc + 1) = some index)
    (resolved : c.resolveMethodref index = .ok method) :
    execute c .invokevirtual m.pass =
      (do dispatch method; return false) (m.behind .invokevirtual m.frame.stack) := by
  have read := onFrame_of_ok (readU16_pass .invokevirtual operand rfl)
  have dispatched : invoke c index = dispatch method := by
    rw [invoke, resolved]
    rfl
  rw [← dispatched]
  exact Outcome.bind_of_ok read _

theorem IsAt.byteAt? (here : m.IsAt code pc) (k : Nat) :
    m.frame.byteAt? (m.frame.pc + k) = code[pc + k]? := by
  rw [here.2, ← here.1]
  rfl

theorem IsAt.u16At? {x y : UInt8} (here : m.IsAt code pc) (high : code[pc + 1]? = some x)
    (low : code[pc + 2]? = some y) :
    m.frame.u16At? (m.frame.pc + 1) = some (Bytes.bigEndian [x, y]).toUInt16 := by
  have first : m.frame.byteAt? (m.frame.pc + 1) = some x := (here.byteAt? 1).trans high
  have second : m.frame.byteAt? (m.frame.pc + 1 + 1) = some y := by
    rw [Int.add_assoc]
    exact (here.byteAt? 2).trans low
  rw [Frame.u16At?, first, second]
  rfl

theorem IsAt.hasOperands (here : m.IsAt code pc) (wide : pc + op.width ≤ code.length) :
    m.frame.HasOperands op := by
  intro i low high
  rw [here.2] at low high
  obtain ⟨n, rfl⟩ : ∃ n : Nat, i = n := Int.eq_ofNat_of_zero_le (by omega)
  have inside : n < m.frame.code.length := by
    rw [here.1]
    omega
  exact ⟨_, List.getElem?_eq_getElem inside⟩

theorem Does.pc_of_not_branches {returned : Bool} (does : Does c m op returned m')
    (straight : ¬ m.Branches op) : m'.frame.pc = m.frame.pc + op.width := by
  cases does with
  | goto distance operand => exact (straight trivial).elim
  | ifneTaken distance v rest operand top taken => exact (straight ⟨v, rest, top, taken⟩).elim
  | ifIcmpgtTaken distance v2 v1 rest operand top taken =>
    exact (straight ⟨v2, v1, rest, top, taken⟩).elim
  | _ => rfl

theorem Branches.does {distance : UInt16} (branches : m.Branches op)
    (operand : m.frame.u16At? (m.frame.pc + 1) = some distance) :
    ∃ m', Does c m op false m' ∧ m'.frame.pc = m.frame.pc + distance.toInt16.toInt := by
  cases op with
  | goto => exact ⟨_, .goto distance operand, rfl⟩
  | ifne =>
    obtain ⟨v, rest, top, taken⟩ := branches
    exact ⟨_, .ifneTaken distance v rest operand top taken, rfl⟩
  | ifIcmpgt =>
    obtain ⟨v2, v1, rest, top, taken⟩ := branches
    exact ⟨_, .ifIcmpgtTaken distance v2 v1 rest operand top taken, rfl⟩
  | _ => exact branches.elim

end Machine

namespace Disassembly

open Machine

/-- The text writes something down, and whatever it can be read as has the property. -/
def Tells {α : Type} (text : Bytes) (write : α -> Bytes) (P : α -> Prop) : Prop :=
  (∃ a, text = write a) ∧ ∀ a, text = write a → P a

theorem Tells.of_eq {α : Type} {text : Bytes} {write : α -> Bytes} {P : α -> Prop} {a : α}
    (written : text = write a) (injective : ∀ b, write a = write b → a = b) (holds : P a) :
    Tells text write P := by
  refine ⟨⟨a, written⟩, ?_⟩
  intro b written'
  rw [← injective b (written.symm.trans written')]
  exact holds

def referring (pc : Nat) (op : Opcode) (index : Nat) (what : Bytes) : Bytes :=
  lead pc op ++ (utf8 "#" ++ Bytes.nat index ++ utf8 " // " ++ what)

theorem referring_of_some (pc : Nat) (op : Opcode) (index : UInt16) (what : Bytes) :
    lead pc op ++ reference index (some what) = referring pc op index.toNat what := by
  simp only [reference, referring, List.append_assoc]

/-- A branch shows its target, and leads there when it is taken. -/
def BranchTold (c : ClassFile) (payload : Bytes) (pc : Nat) (op : Opcode) (text : Bytes) : Prop :=
  Tells text (fun t : Int => lead pc op ++ Bytes.int t) fun t =>
    ∀ m : Machine, m.IsAt payload pc → m.Branches op →
      ∃ m', execute c op m.pass = .ok false m' ∧ m'.frame.pc = t

def ConstantTold (c : ClassFile) (payload : Bytes) (pc : Nat) (text : Bytes) : Prop :=
  Tells text (fun n : Int32 => lead pc .bipush ++ Bytes.int n.toInt) fun n =>
    ∀ m : Machine, m.IsAt payload pc →
      execute c .bipush m.pass = .ok false (m.behind .bipush (.int n :: m.frame.stack))

def IncrementTold (c : ClassFile) (payload : Bytes) (pc : Nat) (text : Bytes) : Prop :=
  Tells text
    (fun a : Nat × Int32 => lead pc .iinc ++ (Bytes.nat a.1 ++ utf8 ", " ++ Bytes.int a.2.toInt))
    fun a => ∀ m m' : Machine, m.IsAt payload pc →
      (execute c .iinc m.pass = .ok false m' ↔
        ∃ v : Int32, m.frame.locals[a.1]? = some (.int v) ∧
          m' = (m.behind .iinc m.frame.stack).stored a.1 (.int (v + a.2)))

/-- A load shows a text unless it faults for its constant, and that text is what it pushes. -/
def TextTold (c : ClassFile) (payload : Bytes) (pc : Nat) (text : Bytes) : Prop :=
  ∃ index : UInt8, payload[pc + 1]? = some index ∧ ∀ m : Machine, m.IsAt payload pc →
    ((∃ s, text = referring pc .ldc index.toNat (Quoted.quote s)) ↔
      ∀ e m', execute c .ldc m.pass ≠ .error (.badConstant e) m') ∧
    ∀ m', execute c .ldc m.pass = .ok false m' →
      ∃ s, text = referring pc .ldc index.toNat (Quoted.quote s) ∧
        m' = m.behind .ldc (.string s :: m.frame.stack)

def CalleeTold (c : ClassFile) (payload : Bytes) (pc : Nat) (text : Bytes) : Prop :=
  ∃ high low : UInt8, payload[pc + 1]? = some high ∧ payload[pc + 2]? = some low ∧
    ∀ method, c.resolveMethodref (Bytes.bigEndian [high, low]).toUInt16 = .ok method →
      text = referring pc .invokevirtual (Bytes.bigEndian [high, low]) method.id ∧
      ∀ m : Machine, m.IsAt payload pc → execute c .invokevirtual m.pass =
        (do dispatch method; return false) (m.behind .invokevirtual m.frame.stack)

def OperandsTold (c : ClassFile) (payload : Bytes) (pc : Nat) (text : Bytes) : Opcode -> Prop
  | .bipush => ConstantTold c payload pc text
  | .iinc => IncrementTold c payload pc text
  | .ldc => TextTold c payload pc text
  | .invokevirtual => CalleeTold c payload pc text
  | .ifne => BranchTold c payload pc .ifne text
  | .ifIcmpgt => BranchTold c payload pc .ifIcmpgt text
  | .goto => BranchTold c payload pc .goto text
  | _ => True

/-- The text of the line of an instruction agrees with what the machine does at the line's position. -/
structure Agrees (c : ClassFile) (payload : Bytes) (pc next : Nat) (op : Opcode) (text : Bytes) :
    Prop where
  fetched : ∀ q : Progress, q.machine.IsAt payload pc → q.fetched = .ok op
  named : ∃ rest, text = position pc ++ mnemonic op.byte ++ rest ∧
    (rest = [] ∨ rest.head? = some 32)
  straight : ∀ m m' : Machine, m.IsAt payload pc → execute c op m.pass = .ok false m' →
    ¬ m.Branches op → m'.frame.pc = next
  operands : OperandsTold c payload pc text op

section Instructions

variable {c : ClassFile} {payload : Bytes} {pc : Nat}

theorem branch_told {op : Opcode} (layout : op.layout = .branch) (wide : pc + 3 ≤ payload.length) :
    BranchTold c payload pc op
      (Line.text c ⟨pc, .instruction op ((payload.drop (pc + 1)).take 2)⟩) := by
  have three : op.width = 3 := by rw [Opcode.width, layout]
  obtain ⟨x, y, high, low, operands⟩ := operands_eq wide
  have text : Line.text c ⟨pc, .instruction op ((payload.drop (pc + 1)).take 2)⟩ =
      lead pc op ++ Bytes.int (pc + (Bytes.bigEndian [x, y]).toUInt16.toInt16.toInt) := by
    rw [text_instruction (by rw [layout]; decide), operands, layout]
    rfl
  refine .of_eq text (fun t same => Bytes.int_injective (List.append_cancel_left same)) ?_
  intro m here branches
  have there : m.frame.HasOperands op := here.hasOperands (by omega)
  obtain ⟨m', does, goes⟩ := branches.does (c := c) (here.u16At? high low)
  rw [here.2] at goes
  exact ⟨m', (execute_eq_ok_iff there).mpr does, goes⟩

theorem constant_told (wide : pc + 2 ≤ payload.length) :
    ConstantTold c payload pc
      (Line.text c ⟨pc, .instruction .bipush ((payload.drop (pc + 1)).take 1)⟩) := by
  obtain ⟨b, operand, operands⟩ := operand_eq wide
  have text : Line.text c ⟨pc, .instruction .bipush ((payload.drop (pc + 1)).take 1)⟩ =
      lead pc .bipush ++ Bytes.int b.toInt8.toInt32.toInt := by
    rw [text_instruction (by decide), operands, Int8.toInt_toInt32]
    rfl
  refine .of_eq text ?_ ?_
  · intro n same
    exact Int32.toInt_inj.mp (Bytes.int_injective (List.append_cancel_left same))
  · intro m here
    have there : m.frame.HasOperands .bipush := here.hasOperands wide
    exact (execute_eq_ok_iff there).mpr (.bipush b ((here.byteAt? 1).trans operand))

theorem increment_told (wide : pc + 3 ≤ payload.length) :
    IncrementTold c payload pc
      (Line.text c ⟨pc, .instruction .iinc ((payload.drop (pc + 1)).take 2)⟩) := by
  obtain ⟨x, y, first, second, operands⟩ := operands_eq wide
  have text : Line.text c ⟨pc, .instruction .iinc ((payload.drop (pc + 1)).take 2)⟩ =
      lead pc .iinc ++ (Bytes.nat x.toNat ++ utf8 ", " ++ Bytes.int y.toInt8.toInt32.toInt) := by
    rw [text_instruction (by decide), operands, Int8.toInt_toInt32]
    rfl
  refine .of_eq (a := (x.toNat, y.toInt8.toInt32)) text ?_ ?_
  · rintro ⟨slot, delta⟩ same
    obtain ⟨slot_eq, delta_eq⟩ := Bytes.nat_comma_int_injective (List.append_cancel_left same)
    exact Prod.ext slot_eq (Int32.toInt_inj.mp delta_eq)
  · intro m m' here
    have there : m.frame.HasOperands .iinc := here.hasOperands wide
    have operand := (here.byteAt? 1).trans first
    have operand' := (here.byteAt? 2).trans second
    rw [execute_eq_ok_iff there]
    constructor
    · intro does
      cases does with
      | iinc slot delta v first' second' present =>
        obtain rfl : x = slot := Option.some.inj (operand.symm.trans first')
        obtain rfl : y = delta := Option.some.inj (operand'.symm.trans second')
        exact ⟨v, present, rfl⟩
    · rintro ⟨v, present, rfl⟩
      exact .iinc x y v operand operand' present

theorem text_told (wide : pc + 2 ≤ payload.length) :
    TextTold c payload pc
      (Line.text c ⟨pc, .instruction .ldc ((payload.drop (pc + 1)).take 1)⟩) := by
  obtain ⟨b, operand, operands⟩ := operand_eq wide
  refine ⟨b, operand, ?_⟩
  intro m here
  have there : m.frame.HasOperands .ldc := here.hasOperands wide
  have index_eq : b.toUInt16.toNat = b.toNat := UInt8.toNat_toUInt16 b
  have text : Line.text c ⟨pc, .instruction .ldc ((payload.drop (pc + 1)).take 1)⟩ =
      lead pc .ldc ++
        reference b.toUInt16 ((c.resolveString b.toUInt16).toOption.map Quoted.quote) := by
    rw [text_instruction (by decide), operands]
    rfl
  rw [text]
  cases resolved : c.resolveString b.toUInt16 with
  | ok s =>
    have shown : lead pc .ldc ++ reference b.toUInt16 (some (Quoted.quote s)) =
        referring pc .ldc b.toNat (Quoted.quote s) := by
      rw [referring_of_some, index_eq]
    have loads := (execute_eq_ok_iff (c := c) there).mpr
      (.ldc b s ((here.byteAt? 1).trans operand) resolved)
    refine ⟨⟨fun _ e m' => by rw [loads]; simp, fun _ => ⟨s, shown⟩⟩, ?_⟩
    intro m' executed
    rw [loads] at executed
    cases executed
    exact ⟨s, shown, rfl⟩
  | error e =>
    have fails := (execute_eq_error_iff (c := c) there).mpr
      ⟨_, rfl, .ldc b e ((here.byteAt? 1).trans operand) resolved⟩
    have bare (s : Bytes) : lead pc .ldc ++ reference b.toUInt16 none ≠
        referring pc .ldc b.toNat (Quoted.quote s) := by
      intro same
      have shorter := congrArg List.length same
      simp [reference, referring, index_eq, utf8, Quoted.quote] at shorter
    refine ⟨⟨fun ⟨s, same⟩ => (bare s same).elim, fun silent => (silent e _ fails).elim⟩, ?_⟩
    intro m' executed
    rw [fails] at executed
    cases executed

theorem callee_told (wide : pc + 3 ≤ payload.length) :
    CalleeTold c payload pc
      (Line.text c ⟨pc, .instruction .invokevirtual ((payload.drop (pc + 1)).take 2)⟩) := by
  obtain ⟨x, y, high, low, operands⟩ := operands_eq wide
  refine ⟨x, y, high, low, ?_⟩
  intro method resolved
  refine ⟨?_, ?_⟩
  · have member : memberAt? c (Bytes.bigEndian [x, y]).toUInt16 = some method := by
      rw [memberAt?, resolved]
    have shown : operandText c pc Opcode.invokevirtual.layout [x, y] =
        reference (Bytes.bigEndian [x, y]).toUInt16 (some method.id) := by
      rw [← Option.map_some, ← member]
      rfl
    rw [text_instruction (by decide), operands, shown, referring_of_some,
      Bytes.toNat_toUInt16_bigEndian rfl]
  · intro m here
    exact execute_invokevirtual (here.u16At? high low) resolved

theorem operands_told {op : Opcode} (wide : pc + op.width ≤ payload.length) :
    OperandsTold c payload pc
      (Line.text c ⟨pc, .instruction op ((payload.drop (pc + 1)).take (op.width - 1))⟩) op := by
  cases op with
  | bipush => exact constant_told wide
  | iinc => exact increment_told wide
  | ldc => exact text_told wide
  | invokevirtual => exact callee_told wide
  | ifne => exact branch_told rfl wide
  | ifIcmpgt => exact branch_told rfl wide
  | goto => exact branch_told rfl wide
  | _ => trivial

end Instructions

/-! ### Line by line -/

section Lines

variable {c : ClassFile} {payload : Bytes} {k : Nat} {l : Line} {op : Opcode}

def nextPc (payload : Bytes) (k : Nat) : Nat :=
  ((lines payload)[k + 1]?.map Line.pc).getD (codeEnd payload)

theorem reads_of_mem (listed : l ∈ lines payload) :
    l.Reads payload (codeEnd payload) ∧ codeStart ≤ l.pc :=
  (sweep_lines (header_of_mem listed)).reads listed

theorem nextPc_eq (present : (lines payload)[k]? = some l) : nextPc payload k = l.pc + l.width :=
  (sweep_lines (header_of_mem (List.mem_of_getElem? present))).next_pc present

theorem agrees_of_line {operands : Bytes} (present : (lines payload)[k]? = some l)
    (content : l.content = .instruction op operands) :
    Agrees c payload l.pc (nextPc payload k) op (l.text c) := by
  obtain ⟨reads, started⟩ := reads_of_mem (List.mem_of_getElem? present)
  have next := nextPc_eq present
  have bound := codeEnd_le payload
  cases reads with
  | byte here misfits => cases content
  | @instruction pc op' here fits =>
    cases content
    have wide : pc + op.width ≤ payload.length := by omega
    refine ⟨?_, text_named c pc op _, ?_, operands_told wide⟩
    · intro q at_
      refine fetch_eq_ok_iff.mpr ⟨pc, at_.2, started, ?_, ?_⟩
      · rw [at_.1]
        exact here
      · rw [at_.1]
        exact wide
    · intro m m' at_ executed straight
      have does := (execute_eq_ok_iff (at_.hasOperands wide)).mp executed
      rw [does.pc_of_not_branches straight, at_.2, next]
      exact (Int.natCast_add _ _).symm

theorem Agrees.branch_told {pc next : Nat} {text : Bytes} {m : Machine}
    (agrees : Agrees c payload pc next op text) (branches : m.Branches op) :
    op.layout = .branch ∧ BranchTold c payload pc op text := by
  cases op with
  | ifne => exact ⟨rfl, agrees.operands⟩
  | ifIcmpgt => exact ⟨rfl, agrees.operands⟩
  | goto => exact ⟨rfl, agrees.operands⟩
  | _ => exact branches.elim

end Lines

/-! ## Runs along a listing -/

/-- Every branch of the listing shows the position of a line. -/
def Closed (c : ClassFile) (payload : Bytes) : Prop :=
  ∀ l ∈ lines payload, ∀ (op : Opcode) (operands : Bytes) (t : Int),
    l.content = .instruction op operands → op.layout = .branch →
      l.text c = lead l.pc op ++ Bytes.int t → ∃ l' ∈ lines payload, (l'.pc : Int) = t

/-- The position is that of a line, or the listing has ended there. -/
def Marked (payload : Bytes) (pc : Int) : Prop :=
  (∃ l ∈ lines payload, pc = l.pc) ∨ (codeEnd payload : Int) ≤ pc

def Listed (payload : Bytes) (e : TraceEntry) : Prop :=
  ∃ l ∈ lines payload, ∃ op operands,
    l.content = .instruction op operands ∧ e.frame.pc = l.pc ∧ e.opcode = op.byte

section Runs

variable {c : ClassFile} {payload : Bytes} {l : Line} {op : Opcode} {q q' : Progress}

theorem marked_behind (listed : l ∈ lines payload) : Marked payload (l.pc + l.width : Nat) := by
  obtain ⟨k, present⟩ := List.mem_iff_getElem?.mp listed
  have next := nextPc_eq present
  unfold nextPc at next
  rw [← next]
  cases later : (lines payload)[k + 1]? with
  | none => exact .inr (Int.le_refl _)
  | some l' => exact .inl ⟨l', List.mem_of_getElem? later, rfl⟩

theorem line_of_fetched (whole : codeEnd payload = payload.length)
    (code_eq : q.machine.frame.code = payload) (marked : Marked payload q.machine.frame.pc)
    (fetched : q.fetched = .ok op) :
    ∃ l ∈ lines payload, ∃ operands,
      l.content = .instruction op operands ∧ q.machine.frame.pc = l.pc := by
  obtain ⟨i, here, started, byte, wide⟩ := fetch_eq_ok_iff.mp fetched
  rw [code_eq] at byte wide
  have positive := op.width_pos
  rcases marked with ⟨l, listed, pc_eq⟩ | ended
  · obtain rfl : i = l.pc := by omega
    obtain ⟨reads, _⟩ := reads_of_mem listed
    refine ⟨l, listed, ?_⟩
    cases reads with
    | byte here' misfits =>
      rw [byte] at here'
      have short := misfits op (Opcode.ofByte?_eq_some_iff.mpr (Option.some.inj here'))
      rw [whole] at short
      exact (Nat.not_lt.mpr wide short).elim
    | instruction here' fits =>
      rw [byte] at here'
      obtain rfl := Opcode.byte_injective (Option.some.inj here')
      exact ⟨_, rfl, pc_eq⟩
  · omega

theorem does_marked {operands : Bytes} {m m' : Machine} {returned : Bool} (closed : Closed c payload)
    (listed : l ∈ lines payload) (content : l.content = .instruction op operands)
    (here : m.IsAt payload l.pc) (does : Does c m op returned m') : Marked payload m'.frame.pc := by
  obtain ⟨k, present⟩ := List.mem_iff_getElem?.mp listed
  have agrees := agrees_of_line (c := c) present content
  have width_eq : l.width = op.width := by rw [Line.width, content]
  by_cases branches : m.Branches op
  · obtain ⟨layout, ⟨t, text_eq⟩, goes⟩ := agrees.branch_told branches
    obtain ⟨m'', executed, pc_eq⟩ := goes t text_eq m here branches
    obtain ⟨l', listed', target_eq⟩ := closed l listed op operands t content layout text_eq
    have there : m.frame.HasOperands op :=
      Progress.fetched_operands (agrees.fetched (.start m) here)
    obtain ⟨_, rfl⟩ := does.unique ((execute_eq_ok_iff there).mp executed)
    exact .inl ⟨l', listed', pc_eq.trans target_eq.symm⟩
  · rw [does.pc_of_not_branches branches, here.2, ← width_eq, ← Int.natCast_add]
    exact marked_behind listed

structure OnListing (payload : Bytes) (q : Progress) : Prop where
  code_eq : q.machine.frame.code = payload
  marked : Marked payload q.machine.frame.pc
  listed : ∀ e ∈ q.trace, Listed payload e

theorem OnListing.executes (on : OnListing payload q) (whole : codeEnd payload = payload.length)
    (closed : Closed c payload) (executes : Progress.Executes c q q') : OnListing payload q' := by
  -- The observation that an executed instruction adds is the line that it was fetched at.
  have record {op : Opcode} {m : Machine} {l : Line} {operands : Bytes} (listed : l ∈ lines payload)
      (content : l.content = .instruction op operands) (here : q.machine.frame.pc = l.pc) :
      ∀ e ∈ (q.record op m).trace, Listed payload e := by
    intro e member
    rw [Progress.trace_record] at member
    rcases List.mem_append.mp member with before | last
    · exact on.listed e before
    · obtain rfl := List.mem_singleton.mp last
      exact ⟨l, listed, op, operands, content, here, rfl⟩
  cases executes with
  | does op returned m fetched does =>
    obtain ⟨l, listed, operands, content, here⟩ := line_of_fetched whole on.code_eq on.marked fetched
    exact ⟨does.code_eq.trans on.code_eq, does_marked closed listed content ⟨on.code_eq, here⟩ does,
      record listed content here⟩
  | faults op f left fetched faults =>
    obtain ⟨l, listed, operands, content, here⟩ := line_of_fetched whole on.code_eq on.marked fetched
    have behind : q.machine.frame.pc + op.width = (l.pc + l.width : Nat) := by
      rw [here, Line.width, content]
      exact (Int.natCast_add _ _).symm
    refine ⟨on.code_eq, ?_, record listed content here⟩
    change Marked payload (q.machine.frame.pc + op.width)
    rw [behind]
    exact marked_behind listed

end Runs

end Disassembly

end Jvm
