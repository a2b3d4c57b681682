import Jvm.Assembly.FizzBuzz
import Jvm.Proofs.Arithmetic
import Jvm.Proofs.Execution
import Jvm.Proofs.Grammar
import Jvm.Proofs.StepLimit
import Mathlib

/-!
The FizzBuzz program does what it says, from the bytes of its class file to the lines it prints. The
file parses to a class whose entry point is the program's code. The code is followed block by block:
the test of the loop, the three divisions, the four ways to print, the increment. One pass through the
loop prints one line, and the induction is on the number of passes that are left.
-/

set_option autoImplicit false
set_option relaxedAutoImplicit false

namespace Jvm

/-! ## Instructions one after the other -/

namespace Machine

def Steps (c : ClassFile) (m m' : Machine) : Prop :=
  ∃ op, fetch m.frame.code m.frame.pc = .ok op ∧ Does c m op false m'

abbrev Reaches (c : ClassFile) : Machine -> Machine -> Prop := Relation.ReflTransGen (Steps c)

end Machine

namespace Progress

variable {c : ClassFile} {maxSteps : Int} {p : Progress} {m : Machine}

theorem advances_of_reaches (unlimited : maxSteps ≤ 0) (reaches : Machine.Reaches c p.machine m) :
    ∃ n q, Advances c maxSteps p n q ∧ q.machine = m := by
  induction reaches with
  | refl => exact ⟨0, p, .zero, rfl⟩
  | tail _ step ih =>
    obtain ⟨n, q, run, rfl⟩ := ih
    obtain ⟨op, fetched, does⟩ := step
    have next := round_eq_next_iff.mpr
      ⟨op, _, fetched, limitReached_of_nonpos unlimited q.steps, does, rfl⟩
    exact ⟨n + 1, _, .succ run next, rfl⟩

theorem run_of_reaches_return (unlimited : maxSteps ≤ 0) (reaches : Machine.Reaches c p.machine m)
    (returns : fetch m.frame.code m.frame.pc = .ok .return_) :
    ∃ rounds e, p.run c maxSteps rounds = some e ∧ e.error = none ∧
      e.progress.machine = m.behind .return_ m.frame.stack := by
  obtain ⟨n, q, run, rfl⟩ := advances_of_reaches unlimited reaches
  have ended := round_eq_ended_iff (c := c) |>.mpr
    (.returned .return_ _ returns (limitReached_of_nonpos unlimited q.steps) .return_)
  exact ⟨n + 1, _, run_eq_some_iff.mpr ⟨n, q, Nat.lt_succ_self n, run, ended⟩, rfl, rfl⟩

end Progress

namespace FizzBuzz

/-! ## The class -/

def payload (limit : Int8) : Bytes :=
  [ 0, 2, 0, 2, 0, 0, 0, 74,
    -- 0: i = 1
    0x04,
    0x3C,
    -- 2: i > limit leads to 73
    0x1B,
    0x10, limit.toUInt8,
    0xA3, 0x00, 0x44,
    -- 8: a remainder of i by 15 leads to 26
    0x1B,
    0x10, 0x0F,
    0x70,
    0x9A, 0x00, 0x0E,
    -- 15: print FizzBuzz
    0xB2, 0x00, 0x06,
    0x12, 0x11,
    0xB6, 0x00, 0x0C,
    0xA7, 0x00, 0x2C,
    -- 26: a remainder of i by 3 leads to 43
    0x1B,
    0x06,
    0x70,
    0x9A, 0x00, 0x0E,
    -- 32: print Fizz
    0xB2, 0x00, 0x06,
    0x12, 0x13,
    0xB6, 0x00, 0x0C,
    0xA7, 0x00, 0x1B,
    -- 43: a remainder of i by 5 leads to 60
    0x1B,
    0x08,
    0x70,
    0x9A, 0x00, 0x0E,
    -- 49: print Buzz
    0xB2, 0x00, 0x06,
    0x12, 0x15,
    0xB6, 0x00, 0x0C,
    0xA7, 0x00, 0x0A,
    -- 60: print i
    0xB2, 0x00, 0x06,
    0x1B,
    0xB6, 0x00, 0x0F,
    -- 67: i = i + 1, back to 2
    0x84, 0x01, 0x01,
    0xA7, 0xFF, 0xBC,
    -- 73: the end
    0xB1,
    0, 0, 0, 0]

def classFile (limit : Int8) : ClassFile where
  minor := 0
  major := 52
  pool := [.unused, .utf8 (utf8 "java/lang/System"), .classInfo 1, .utf8 (utf8 "out"),
    .utf8 (utf8 "Ljava/io/PrintStream;"), .nameAndType 3 4, .fieldref 2 5,
    .utf8 (utf8 "java/io/PrintStream"), .classInfo 7, .utf8 (utf8 "println"),
    .utf8 (utf8 "(Ljava/lang/String;)V"), .nameAndType 9 10, .methodref 8 11, .utf8 (utf8 "(I)V"),
    .nameAndType 9 13, .methodref 8 14, .utf8 (utf8 "FizzBuzz"), .string 16, .utf8 (utf8 "Fizz"),
    .string 18, .utf8 (utf8 "Buzz"), .string 20, .utf8 (utf8 "java/lang/Object"), .classInfo 22,
    .utf8 (utf8 "<init>"), .utf8 (utf8 "()V"), .nameAndType 24 25, .methodref 23 26,
    .utf8 (utf8 "main"), .utf8 (utf8 "([Ljava/lang/String;)V"), .classInfo 16, .utf8 (utf8 "Code")]
  members := [
    ⟨9, 24, 25, some [⟨31, some (Builder.codeAttribute 2 2 [0x2A, 0xB7, 0, 27, 0xB1])⟩]⟩,
    ⟨9, 28, 29, some [⟨31, some (payload limit)⟩]⟩]

def surroundings : Surroundings where
  magic := [0xCA, 0xFE, 0xBA, 0xBE]
  count := 32
  header := [0x00, 0x21, 0, 30, 0, 23, 0, 0, 0, 0]
  tail := [0, 0]
  magic_length := rfl
  header_length := rfl

set_option maxRecDepth 20000 in
/-- The builder's work, evaluated. The limit is a single byte of the file and nothing depends on it. -/
theorem program_eq (limit : Int8) : program limit = (classFile limit).encoding surroundings := by
  cbv

theorem classFile_representable (limit : Int8) : (classFile limit).Representable where
  unused := rfl
  pool := by
    change 32 < 65536
    decide
  entries := by
    simp only [classFile, List.tail_cons, List.forall_mem_cons, Entry.Fits, List.not_mem_nil,
      false_implies, implies_true]
    decide
  table := by
    change 2 < 65536
    decide
  members := by
    simp [classFile, Member.Fits, Attribute.Fits, Member.attributeList, Attribute.bytes, payload,
      Builder.codeAttribute, Bytes.ofUInt16, Bytes.ofNat]

theorem parse_program (limit : Int8) : ClassFile.parse (program limit) = .ok (classFile limit) := by
  rw [program_eq]
  exact ClassFile.parse_encoding (classFile_representable limit) rfl

theorem entryPoint_classFile (limit : Int8) :
    (classFile limit).entryPoint = .ok (payload limit) := rfl

/-! ## The blocks of the code -/

/-- The machine at a place of the code, with the number `i` in slot 1 and a sink that takes every
line. -/
def place (limit : Int8) (slots : List Value) (w : List Bytes) (offset : Nat) (i : Int32)
    (stack : List Value) : Machine :=
  { frame :=
      { code := payload limit
        pc := (codeStart + offset : Nat)
        stack := stack
        locals := slots.set 1 (.int i) }
    sink := { writes := w, budget := none } }

section Blocks

variable {limit : Int8} {slots : List Value} {w : List Bytes} {i : Int32}

theorem steps_iload1 {offset : Nat} {stack : List Value} (two : 2 ≤ slots.length)
    (here : fetch (payload limit) (codeStart + offset : Nat) = .ok .iload1) :
    Machine.Steps (classFile limit) (place limit slots w offset i stack)
      (place limit slots w (offset + 1) i (.int i :: stack)) :=
  ⟨.iload1, here, .iload1 (.int i) (List.getElem?_set_self two)⟩

/-- A number is loaded, divided by a constant, and the remainder is tested: the code goes on behind
the test when there is none, and else at the next test. -/
theorem reaches_test {offset : Nat} (divides : Nat) {d : Int32} (two : 2 ≤ slots.length)
    (nonzero : d ≠ 0)
    (load : fetch (payload limit) (codeStart + offset : Nat) = .ok .iload1)
    (push : Machine.Steps (classFile limit) (place limit slots w (offset + 1) i [.int i])
      (place limit slots w divides i [.int d, .int i]))
    (divide : fetch (payload limit) (codeStart + divides : Nat) = .ok .irem)
    (test : fetch (payload limit) (codeStart + (divides + 1) : Nat) = .ok .ifne)
    (distance : (place limit slots w (divides + 1) i []).frame.u16At?
      ((codeStart + (divides + 1) : Nat) + 1) = some 14) :
    Machine.Reaches (classFile limit) (place limit slots w offset i [])
      (place limit slots w (if i.toInt % d.toInt = 0 then divides + 4 else divides + 15) i []) := by
  have load' : Machine.Steps (classFile limit) (place limit slots w offset i [])
      (place limit slots w (offset + 1) i [.int i]) := steps_iload1 two load
  have divide' : Machine.Steps (classFile limit) (place limit slots w divides i [.int d, .int i])
      (place limit slots w (divides + 1) i [.int (Machine.remainder i d)]) :=
    ⟨.irem, divide, .irem d i [] rfl nonzero⟩
  refine .tail (.tail (.tail (.single load') push) divide') ⟨.ifne, test, ?_⟩
  by_cases zero : i.toInt % d.toInt = 0
  · rw [if_pos zero]
    exact .ifneNotTaken _ [] rfl (Machine.remainder_eq_zero_iff.mpr zero)
  · rw [if_neg zero]
    exact .ifneTaken 14 _ [] distance rfl fun none => zero (Machine.remainder_eq_zero_iff.mp none)

theorem reaches_text {offset : Nat} {index : UInt8} {text : Bytes} (distance : UInt16)
    (out : fetch (payload limit) (codeStart + offset : Nat) = .ok .getstatic)
    (load : fetch (payload limit) (codeStart + (offset + 3) : Nat) = .ok .ldc)
    (operand : (payload limit)[codeStart + (offset + 4)]? = some index)
    (resolved : (classFile limit).resolveString index.toUInt16 = .ok text)
    (call : fetch (payload limit) (codeStart + (offset + 5) : Nat) = .ok .invokevirtual)
    (method : (place limit slots w (offset + 5) i []).frame.u16At?
      ((codeStart + (offset + 5) : Nat) + 1) = some 12)
    (branch : fetch (payload limit) (codeStart + (offset + 8) : Nat) = .ok .goto)
    (target : (place limit slots w (offset + 8) i []).frame.u16At?
      ((codeStart + (offset + 8) : Nat) + 1) = some distance)
    (joins : (codeStart + (offset + 8) : Nat) + distance.toInt16.toInt = (codeStart + 67 : Nat)) :
    Machine.Reaches (classFile limit) (place limit slots w offset i [])
      (place limit slots ((text ++ utf8 "\n") :: w) 67 i []) := by
  have out' : Machine.Steps (classFile limit) (place limit slots w offset i [])
      (place limit slots w (offset + 3) i [.int 0]) := ⟨.getstatic, out, .getstatic⟩
  have load' : Machine.Steps (classFile limit) (place limit slots w (offset + 3) i [.int 0])
      (place limit slots w (offset + 5) i [.string text, .int 0]) :=
    ⟨.ldc, load, .ldc index text operand resolved⟩
  have call' : Machine.Steps (classFile limit)
      (place limit slots w (offset + 5) i [.string text, .int 0])
      (place limit slots ((text ++ utf8 "\n") :: w) (offset + 8) i []) :=
    ⟨.invokevirtual, call, .invokevirtual 12
      ⟨utf8 "java/io/PrintStream", utf8 "println", utf8 "(Ljava/lang/String;)V"⟩ .printlnString text []
      _ method rfl (by decide) rfl rfl⟩
  have branch' : Machine.Steps (classFile limit)
      (place limit slots ((text ++ utf8 "\n") :: w) (offset + 8) i [])
      (place limit slots ((text ++ utf8 "\n") :: w) 67 i []) := by
    have goes := Machine.Does.goto (c := classFile limit)
      (m := place limit slots ((text ++ utf8 "\n") :: w) (offset + 8) i []) distance target
    have arrives : (place limit slots ((text ++ utf8 "\n") :: w) (offset + 8) i []).frame.pc +
        distance.toInt16.toInt = (codeStart + 67 : Nat) := joins
    rw [arrives] at goes
    exact ⟨.goto, branch, goes⟩
  exact .tail (.tail (.tail (.single out') load') call') branch'

theorem reaches_number (two : 2 ≤ slots.length) :
    Machine.Reaches (classFile limit) (place limit slots w 60 i [])
      (place limit slots ((Bytes.int i.toInt ++ utf8 "\n") :: w) 67 i []) := by
  have out : Machine.Steps (classFile limit) (place limit slots w 60 i [])
      (place limit slots w 63 i [.int 0]) := ⟨.getstatic, rfl, .getstatic⟩
  have load : Machine.Steps (classFile limit) (place limit slots w 63 i [.int 0])
      (place limit slots w 64 i [.int i, .int 0]) := steps_iload1 two rfl
  have call : Machine.Steps (classFile limit) (place limit slots w 64 i [.int i, .int 0])
      (place limit slots ((Bytes.int i.toInt ++ utf8 "\n") :: w) 67 i []) :=
    ⟨.invokevirtual, rfl, .invokevirtual 15
      ⟨utf8 "java/io/PrintStream", utf8 "println", utf8 "(I)V"⟩ .printlnInt (Bytes.int i.toInt) []
      _ rfl rfl (by decide) rfl rfl⟩
  exact .tail (.tail (.single out) load) call

theorem reaches_test15 (two : 2 ≤ slots.length) :
    Machine.Reaches (classFile limit) (place limit slots w 8 i [])
      (place limit slots w (if i.toInt % 15 = 0 then 15 else 26) i []) :=
  reaches_test (d := 15) 11 two (by decide) rfl ⟨.bipush, rfl, .bipush 15 rfl⟩ rfl rfl rfl

theorem reaches_test3 (two : 2 ≤ slots.length) :
    Machine.Reaches (classFile limit) (place limit slots w 26 i [])
      (place limit slots w (if i.toInt % 3 = 0 then 32 else 43) i []) :=
  reaches_test (d := 3) 28 two (by decide) rfl ⟨.iconst3, rfl, .iconst3⟩ rfl rfl rfl

theorem reaches_test5 (two : 2 ≤ slots.length) :
    Machine.Reaches (classFile limit) (place limit slots w 43 i [])
      (place limit slots w (if i.toInt % 5 = 0 then 49 else 60) i []) :=
  reaches_test (d := 5) 45 two (by decide) rfl ⟨.iconst5, rfl, .iconst5⟩ rfl rfl rfl

theorem reaches_line (two : 2 ≤ slots.length) :
    Machine.Reaches (classFile limit) (place limit slots w 8 i [])
      (place limit slots (line i.toInt :: w) 67 i []) := by
  have first : Machine.Reaches (classFile limit) (place limit slots w 8 i []) _ := reaches_test15 two
  by_cases fifteen : i.toInt % 15 = 0
  · rw [if_pos fifteen] at first
    rw [line, if_pos fifteen]
    exact first.trans (reaches_text 44 rfl rfl rfl rfl rfl rfl rfl rfl (by decide))
  rw [if_neg fifteen] at first
  have second := first.trans (reaches_test3 two)
  by_cases three : i.toInt % 3 = 0
  · rw [if_pos three] at second
    rw [line, if_neg fifteen, if_pos three]
    exact second.trans (reaches_text 27 rfl rfl rfl rfl rfl rfl rfl rfl (by decide))
  rw [if_neg three] at second
  have third := second.trans (reaches_test5 two)
  by_cases five : i.toInt % 5 = 0
  · rw [if_pos five] at third
    rw [line, if_neg fifteen, if_neg three, if_pos five]
    exact third.trans (reaches_text 10 rfl rfl rfl rfl rfl rfl rfl rfl (by decide))
  rw [if_neg five] at third
  rw [line, if_neg fifteen, if_neg three, if_neg five]
  exact third.trans (reaches_number two)

theorem reaches_head (two : 2 ≤ slots.length) :
    Machine.Reaches (classFile limit) (place limit slots w 2 i [])
      (place limit slots w (if limit.toInt < i.toInt then 73 else 8) i []) := by
  have load : Machine.Steps (classFile limit) (place limit slots w 2 i [])
      (place limit slots w 3 i [.int i]) := steps_iload1 two rfl
  have push : Machine.Steps (classFile limit) (place limit slots w 3 i [.int i])
      (place limit slots w 5 i [.int limit.toUInt8.toInt8.toInt32, .int i]) :=
    ⟨.bipush, rfl, .bipush limit.toUInt8 rfl⟩
  have greater : i > limit.toUInt8.toInt8.toInt32 ↔ limit.toInt < i.toInt := by
    rw [gt_iff_lt, Int32.lt_iff_toInt_lt, Int8.toInt8_toUInt8, Int8.toInt_toInt32]
  refine .tail (.tail (.single load) push) ⟨.ifIcmpgt, rfl, ?_⟩
  by_cases above : limit.toInt < i.toInt
  · rw [if_pos above]
    exact .ifIcmpgtTaken 68 _ i [] rfl rfl (greater.mpr above)
  · rw [if_neg above]
    exact .ifIcmpgtNotTaken _ i [] rfl fun taken => above (greater.mp taken)

theorem reaches_next (two : 2 ≤ slots.length) :
    Machine.Reaches (classFile limit) (place limit slots w 67 i [])
      (place limit slots w 2 (i + 1) []) := by
  have stored : (place limit slots w 70 i []).stored 1 (.int (i + 1)) =
      place limit slots w 70 (i + 1) [] := by
    simp only [Machine.stored, place, List.set_set]
  have increment : Machine.Steps (classFile limit) (place limit slots w 67 i [])
      ((place limit slots w 70 i []).stored 1 (.int (i + 1))) :=
    ⟨.iinc, rfl, .iinc 1 1 i rfl rfl (List.getElem?_set_self two)⟩
  rw [stored] at increment
  exact .tail (.single increment) ⟨.goto, rfl, .goto 0xFFBC rfl⟩

end Blocks

/-! ## The loop -/

def lines (i : Int) (n : Nat) : List Bytes := (List.range n).map fun (k : Nat) => line (i + k)

theorem lines_succ (i : Int) (n : Nat) : lines i (n + 1) = line i :: lines (i + 1) n := by
  have later (k : Nat) : i + (k + 1 : Nat) = i + 1 + k := by omega
  simp only [lines, List.range_succ_eq_map, List.map_cons, List.map_map, Function.comp_def,
    Nat.succ_eq_add_one, later]
  rw [Int.natCast_zero, Int.add_zero]

theorem flatten_lines_one (limit : Int8) :
    (lines 1 (limit.toInt - 1 + 1).toNat).flatten = output limit.toInt := by
  have count : limit.toInt - 1 + 1 = limit.toInt := by omega
  rw [output, lines, count, List.flatMap_def]
  simp only [Int.add_comm]

/-- From the test of the loop on, the numbers up to the limit are gone through, and each prints its
line. -/
theorem reaches_end (limit : Int8) {slots : List Value} (two : 2 ≤ slots.length) (i : Int32)
    (w : List Bytes) :
    ∃ i', Machine.Reaches (classFile limit) (place limit slots w 2 i [])
      (place limit slots ((lines i.toInt (limit.toInt - i.toInt + 1).toNat).reverse ++ w) 73 i' []) := by
  have head (i : Int32) (w : List Bytes) : Machine.Reaches (classFile limit)
      (place limit slots w 2 i []) _ := reaches_head two
  -- The number of passes that are left goes down with each pass.
  generalize passes : (limit.toInt - i.toInt + 1).toNat = n
  induction n generalizing i w with
  | zero =>
    have first := head i w
    rw [if_pos (by omega)] at first
    exact ⟨i, first⟩
  | succ n ih =>
    have first := head i w
    rw [if_neg (by omega)] at first
    have below := limit.toInt_lt
    have above := i.le_toInt
    have next : (i + 1).toInt = i.toInt + 1 := by
      rw [Int32.toInt_add, Int32.toInt_one]
      exact Int.bmod_eq_of_le (by omega) (by omega)
    obtain ⟨i', rest⟩ := ih (i + 1) (line i.toInt :: w) (by omega)
    refine ⟨i', ((first.trans (reaches_line two)).trans (reaches_next two)).trans ?_⟩
    rw [next] at rest
    rw [lines_succ, List.reverse_cons, List.append_assoc]
    exact rest

theorem run_of_reaches_loop {limit : Int8} {slots : List Value} (two : 2 ≤ slots.length) {i : Int32}
    {w : List Bytes} {p : Progress} {maxSteps : Int} (unlimited : maxSteps ≤ 0)
    (reaches : Machine.Reaches (classFile limit) p.machine (place limit slots w 2 i [])) :
    ∃ rounds e, p.run (classFile limit) maxSteps rounds = some e ∧ e.error = none ∧
      e.progress.machine.frame.stack = [] ∧
      e.progress.machine.sink.writes =
        (lines i.toInt (limit.toInt - i.toInt + 1).toNat).reverse ++ w := by
  obtain ⟨i', rest⟩ := reaches_end limit two i w
  obtain ⟨rounds, e, ends, returned, machine⟩ :=
    Progress.run_of_reaches_return unlimited (reaches.trans rest) rfl
  exact ⟨rounds, e, ends, returned, by rw [machine]; rfl, by rw [machine]; rfl⟩

theorem reaches_loop (limit : Int8) {slots : List Value} (two : 2 ≤ slots.length) (w : List Bytes) :
    Machine.Reaches (classFile limit) ⟨⟨payload limit, codeStart, [], slots⟩, ⟨w, none⟩⟩
      (place limit slots w 2 1 []) :=
  .tail (.single ⟨.iconst1, rfl, .iconst1⟩) ⟨.istore1, rfl, .istore1 (.int 1) [] rfl two⟩

/-- The class file of the program is correct for every limit. It parses, it has an entry point, and the
code of the entry point, started at the test of its loop with any number in slot 1, ends with a return
on an empty stack when it has printed one line for each number from there to the limit. So an
execution of the class returns when it has printed the output for the limit. -/
theorem program_prints_lines (limit : Int8) :
    ∃ (c : ClassFile) (code : Bytes), ClassFile.parse (program limit) = .ok c ∧
      c.entryPoint = .ok code ∧
      (∀ (i : Int32) (slots : List Value) (sink : Sink) (maxSteps : Int), 2 ≤ slots.length →
        slots[1]? = some (.int i) → sink.budget = none → maxSteps ≤ 0 →
        ∃ rounds e,
          (Progress.start ⟨⟨code, 10, [], slots⟩, sink⟩).run c maxSteps rounds = some e ∧
          e.error = none ∧ e.progress.machine.frame.stack = [] ∧
          e.progress.machine.sink.writes.reverse =
            sink.writes.reverse ++ lines i.toInt (limit.toInt - i.toInt + 1).toNat) ∧
      (∀ vm : Vm, vm.classFile = c → (vm.slots ≤ 0 ∨ 2 ≤ vm.slots) → vm.sink.budget = none →
        vm.maxSteps ≤ 0 →
        ∃ rounds vm' trace, vm.execute rounds = some (vm', trace) ∧ vm'.state = .returned ∧
          vm'.error = none ∧ vm'.sink.output = vm.sink.output ++ output limit.toInt) := by
  refine ⟨classFile limit, payload limit, parse_program limit, entryPoint_classFile limit, ?_, ?_⟩
  · rintro i slots ⟨w, budget⟩ maxSteps two present rfl unlimited
    have same : slots.set 1 (.int i) = slots := by
      obtain ⟨fits, value⟩ := List.getElem?_eq_some_iff.mp present
      rw [← value, List.set_getElem_self]
    have reaches : Machine.Reaches (classFile limit) ⟨⟨payload limit, 10, [], slots⟩, ⟨w, none⟩⟩
        (place limit slots w 2 i []) := by
      rw [place, same]
      exact .refl
    obtain ⟨rounds, e, ends, returned, empty, written⟩ := run_of_reaches_loop
      (p := .start ⟨⟨payload limit, 10, [], slots⟩, ⟨w, none⟩⟩) two unlimited reaches
    refine ⟨rounds, e, ends, returned, empty, ?_⟩
    rw [written, List.reverse_append, List.reverse_reverse]
  · intro vm class_eq enough endless unlimited
    have entry : vm.classFile.entryPoint = .ok (payload limit) := class_eq ▸ entryPoint_classFile limit
    have two : 2 ≤ (List.replicate vm.slotCount Value.void).length := by
      rw [List.length_replicate]
      exact Vm.two_le_slotCount enough
    have reaches := reaches_loop limit two vm.sink.writes
    rw [← endless] at reaches
    obtain ⟨rounds, e, ends, returned, _, written⟩ :=
      run_of_reaches_loop (p := vm.entered (payload limit)) two unlimited reaches
    refine ⟨rounds, vm.finished e, e.progress.trace, ?_, ?_, ?_, ?_⟩
    · rw [Vm.execute_of_entry vm entry, class_eq, ends]
      rfl
    · simp [Vm.finished, returned]
    · simp [Vm.finished, returned]
    · change e.progress.machine.sink.output = _
      rw [Sink.output, written, List.reverse_append, List.reverse_reverse, List.flatten_append,
        Int32.toInt_one, flatten_lines_one]
      rfl

/-- With the limit 5 and the number -1 in slot 1 the loop goes through zero. -/
theorem program_prints_lines_through_zero :
    ∃ (c : ClassFile) (code : Bytes) (rounds : Nat) (e : Ended),
      ClassFile.parse (program 5) = .ok c ∧ c.entryPoint = .ok code ∧
      (Progress.start ⟨⟨code, 10, [], [.void, .int (-1)]⟩, .unlimited⟩).run c 0 rounds = some e ∧
      e.error = none ∧
      e.progress.machine.sink.output = utf8 "-1\nFizzBuzz\n1\n2\nFizz\n4\nBuzz\n" := by
  obtain ⟨c, code, parsed, entry, runs, _⟩ := program_prints_lines 5
  obtain ⟨rounds, e, ends, returned, _, written⟩ :=
    runs (-1) [.void, .int (-1)] .unlimited 0 (by decide) rfl rfl (by decide)
  refine ⟨c, code, rounds, e, parsed, entry, ends, returned, ?_⟩
  rw [Sink.output, written]
  decide

end FizzBuzz

end Jvm
