import Jvm.CommandLine.Program
import Jvm.Proofs.Numerals
import Mathlib.Algebra.Group.Int.Defs
import Mathlib.Algebra.Group.Nat.Defs
import Mathlib.Data.List.Induction
import Mathlib.Data.List.TakeWhile
import Mathlib.Tactic.Common

/-!
The command line of a run is read as it was written. A decimal numeral gives back its integer if that
fits into 64 bits and is refused otherwise. Flags may be spelled in several ways, repeated and put on
either side of the operand; of a flag given more than once the last value counts. Behind an operand that
follows flags nothing is read as a flag.
-/

set_option autoImplicit false
set_option relaxedAutoImplicit false

namespace Jvm.Numeral

open Bytes

/-! ## Numerals -/

theorem digit?_of_digit {x : UInt8} (range : 48 ≤ x.toNat ∧ x.toNat ≤ 57) :
    digit? x = some (x.toNat - 48) := by
  have low : 48 ≤ x := UInt8.le_iff_toNat_le.mpr range.1
  have high : x ≤ 57 := UInt8.le_iff_toNat_le.mpr range.2
  have kept : lowerByte x = x := by
    have capital : ¬ 65 ≤ x := by
      rw [UInt8.le_iff_toNat_le]
      have : (65 : UInt8).toNat = 65 := rfl
      omega
    simp [lowerByte, capital]
  simp [digit?, kept, low, high]

theorem le_foldl_digits (l : Bytes) (n : Nat) :
    n ≤ l.foldl (fun k x => 10 * k + (x.toNat - 48)) n := by
  induction l generalizing n with
  | nil => exact Nat.le_refl n
  | cons x l ih =>
    have rest := ih (10 * n + (x.toNat - 48))
    simp only [List.foldl_cons]
    omega

/-- Digits are added up until they leave the range, and a number that left it does not come back. -/
theorem magnitude_of_digits {l : Bytes} {n : Nat} (small : n < 2 ^ 64)
    (digits : ∀ x ∈ l, 48 ≤ x.toNat ∧ x.toNat ≤ 57) :
    magnitude 10 n l =
      if l.foldl (fun k x => 10 * k + (x.toNat - 48)) n < 2 ^ 64
      then .ok (l.foldl (fun k x => 10 * k + (x.toNat - 48)) n) else .error .outOfRange := by
  induction l generalizing n with
  | nil => rw [magnitude, List.foldl_nil, if_pos small]
  | cons x l ih =>
    obtain ⟨range, digits⟩ := List.forall_mem_cons.mp digits
    have noBar : x ≠ 95 := by
      rintro rfl
      exact absurd range.2 (by decide)
    have decimal : ¬ 10 ≤ x.toNat - 48 := by omega
    have next : n * 10 + (x.toNat - 48) = 10 * n + (x.toNat - 48) := by omega
    rw [magnitude.eq_3 _ _ _ _ noBar, digit?_of_digit range, List.foldl_cons]
    simp only [decimal, if_false, next, Nat.pow_eq]
    by_cases large : 2 ^ 64 ≤ 10 * n + (x.toNat - 48)
    · have grown := le_foldl_digits l (10 * n + (x.toNat - 48))
      rw [if_pos large, if_neg (by omega)]
    · rw [if_neg large]
      exact ih (by omega) digits

theorem isSeparated_of_digits {l : Bytes} (digits : ∀ x ∈ l, 48 ≤ x.toNat ∧ x.toNat ≤ 57)
    {digit : Bool} (some : digit = true ∨ l ≠ []) : isSeparated digit l = true := by
  induction l generalizing digit with
  | nil => simpa [isSeparated] using some
  | cons x l ih =>
    obtain ⟨range, digits⟩ := List.forall_mem_cons.mp digits
    have noBar : x ≠ 95 := by
      rintro rfl
      exact absurd range.2 (by decide)
    rw [isSeparated.eq_3 _ _ _ noBar]
    exact ih digits (.inl rfl)

theorem nat_ne_nil (n : Nat) : nat n ≠ [] := by
  simp [nat, digits, Nat.toDigits_ne_nil]

theorem head_nat {n : Nat} (positive : 0 < n) {x : UInt8} {l : Bytes} (starts : nat n = x :: l) :
    x ≠ 48 := by
  induction n using Nat.strongRecOn generalizing l with
  | ind n ih =>
    rcases Nat.lt_or_ge n 10 with small | large
    · have table : ∀ d < 10, 0 < d → nat d ≠ [] ∧ (nat d).head? ≠ some 48 := by decide
      have first := (table n small positive).2
      rw [starts] at first
      rintro rfl
      exact first rfl
    · have split : nat n = nat (n / 10) ++ nat (n % 10) := by
        have small : n % 10 < 10 := Nat.mod_lt n (by decide)
        simp only [nat, digits]
        rw [Nat.toDigits_of_base_le (by decide) large, Nat.toDigits_of_lt_base small]
        simp
      obtain ⟨y, l', front⟩ := List.exists_cons_of_ne_nil (nat_ne_nil (n / 10))
      have same : y = x := by
        rw [split, front] at starts
        exact (List.cons.inj starts).1
      exact ih (n / 10) (by omega) (by omega) (same ▸ front)

theorem unsigned_nat (n : Nat) :
    unsigned (nat n) = if n < 2 ^ 64 then .ok n else .error .outOfRange := by
  rcases Nat.eq_zero_or_pos n with rfl | positive
  · rfl
  · obtain ⟨x, l, starts⟩ := List.exists_cons_of_ne_nil (nat_ne_nil n)
    have decimal : radixOf (nat n) = (10, false, nat n) := by
      rw [starts]
      have first := head_nat positive starts
      unfold radixOf
      split <;> simp_all
    have separated : isSeparated false (nat n) = true :=
      isSeparated_of_digits (fun _ => mem_nat) (.inr (nat_ne_nil n))
    have number := magnitude_of_digits (n := 0) (by decide) (fun _ => mem_nat (n := n))
    rw [foldl_nat] at number
    rw [unsigned, decimal]
    simp only [number, separated]
    split_ifs <;> rfl

theorem int64_int (n : Int) :
    int64 (int n) = if -2 ^ 63 ≤ n ∧ n < 2 ^ 63 then .ok n else .error .outOfRange := by
  cases n with
  | negSucc m =>
    have value : -((m + 1 : Nat) : Int) = .negSucc m := rfl
    rw [int, int64, unsigned_nat]
    by_cases deep : 2 ^ 63 < m + 1
    · rw [if_neg (by omega : ¬ (-2 ^ 63 ≤ Int.negSucc m ∧ Int.negSucc m < 2 ^ 63))]
      split_ifs
      · exact if_pos deep
      · rfl
    · rw [if_pos (by omega : m + 1 < 2 ^ 64),
        if_pos (by omega : -2 ^ 63 ≤ Int.negSucc m ∧ Int.negSucc m < 2 ^ 63), ← value]
      exact if_neg deep
  | ofNat m =>
    -- A digit is no sign.
    have signless {b : Bytes} {c : UInt8} (sign : c = 45 ∨ c = 43) : nat m ≠ c :: b := by
      intro same
      have range := mem_nat (n := m) (same ▸ List.mem_cons_self)
      rcases sign with rfl | rfl <;> exact absurd range.1 (by decide)
    have read : int64 (nat m) = (unsigned (nat m)).bind fun k =>
        if Nat.pow 2 63 ≤ k then .error .outOfRange else .ok (k : Int) := by
      unfold int64
      split
      · rename_i b same
        exact (signless (.inl rfl) same).elim
      · split
        · rename_i b same
          exact (signless (.inr rfl) same).elim
        · rfl
    rw [int, read, unsigned_nat, Int.ofNat_eq_natCast]
    by_cases high : 2 ^ 63 ≤ m
    · rw [if_neg (by omega : ¬ (-2 ^ 63 ≤ (m : Int) ∧ (m : Int) < 2 ^ 63))]
      split_ifs
      · exact if_pos high
      · rfl
    · rw [if_pos (by omega : m < 2 ^ 64),
        if_pos (by omega : -2 ^ 63 ≤ (m : Int) ∧ (m : Int) < 2 ^ 63)]
      exact if_neg high

end Jvm.Numeral

namespace Jvm.CommandLine

/-! ## Flags -/

inductive RunFlag where
  | trace (on : Bool)
  | maxSteps (n : Int)
  | locals (n : Int)
  deriving DecidableEq

namespace RunFlag

/-- The ways to write a flag: with an equals sign in front of the value, or the value as the next
word; a switch that is on needs no value. -/
def spellings : RunFlag -> List (List Bytes)
  | trace true => [[utf8 "--trace"], [utf8 "--trace=true"]]
  | trace false => [[utf8 "--trace=false"]]
  | maxSteps n => [[utf8 "--max-steps", Bytes.int n], [utf8 "--max-steps=" ++ Bytes.int n]]
  | locals n => [[utf8 "--locals", Bytes.int n], [utf8 "--locals=" ++ Bytes.int n]]

def Fits : RunFlag -> Prop
  | trace _ => True
  | maxSteps n => -2 ^ 63 ≤ n ∧ n < 2 ^ 63
  | locals n => -2 ^ 63 ≤ n ∧ n < 2 ^ 63

def trace? : RunFlag -> Option Bool
  | trace on => some on
  | _ => none

def maxSteps? : RunFlag -> Option Int
  | maxSteps n => some n
  | _ => none

def locals? : RunFlag -> Option Int
  | locals n => some n
  | _ => none

/-- The options that flags give: of a flag given more than once the last value counts. -/
def options (given : List RunFlag) : RunOptions where
  trace := (given.filterMap trace?).getLast?
  maxSteps := (given.filterMap maxSteps?).getLast?
  locals := (given.filterMap locals?).getLast?

inductive Spelled : List RunFlag -> List Bytes -> Prop
  | nil : Spelled [] []
  | cons {f : RunFlag} {given : List RunFlag} {first words : List Bytes}
    (spelling : first ∈ f.spellings) (rest : Spelled given words) :
    Spelled (f :: given) (first ++ words)

def entry : RunFlag -> String × FlagValue
  | trace on => ("trace", .switch on)
  | maxSteps n => ("max-steps", .number n)
  | locals n => ("locals", .number n)

def taken : List Flag := Command.run.flags ++ [helpFlag]

variable {f : RunFlag} {given : List RunFlag} {first words rest : List Bytes} {target : Bytes}
  {before : List (String × FlagValue)}

/-! ## Reading -/

theorem readFlags_joined {arg name value : Bytes} {longName : String} {kind : FlagKind}
    (form : argumentForm arg = .flag name (some value))
    (named : flagNamed? taken name = some (longName, kind)) :
    readFlags taken before (arg :: rest) =
      (kind.read longName value).bind fun v => readFlags taken ((longName, v) :: before) rest := by
  rw [readFlags, form]
  simp only [named]
  cases kind.read longName value <;> rfl

theorem readFlags_apart {arg name value : Bytes} {longName : String}
    (form : argumentForm arg = .flag name none)
    (named : flagNamed? taken name = some (longName, .number)) :
    readFlags taken before (arg :: value :: rest) =
      (FlagKind.number.read longName value).bind fun v =>
        readFlags taken ((longName, v) :: before) rest := by
  rw [readFlags, form]
  simp only [named]
  cases FlagKind.number.read longName value <;> rfl

theorem read_number (longName : String) (n : Int) :
    FlagKind.number.read longName (Bytes.int n) =
      if -2 ^ 63 ≤ n ∧ n < 2 ^ 63 then .ok (.number n)
      else .error (.notNumber (Bytes.int n) longName .outOfRange) := by
  rw [FlagKind.read, Numeral.int64_int]
  split_ifs <;> rfl

theorem readFlags_number (name : String) {n : Int} {apart joined : Bytes}
    (apartForm : argumentForm apart = .flag (utf8 name) none)
    (joinedForm : argumentForm joined = .flag (utf8 name) (some (Bytes.int n)))
    (named : flagNamed? taken (utf8 name) = some (name, .number))
    (spelling : first ∈ [[apart, Bytes.int n], [joined]]) :
    readFlags taken before (first ++ rest) =
      if -2 ^ 63 ≤ n ∧ n < 2 ^ 63 then readFlags taken ((name, .number n) :: before) rest
      else .error (.notNumber (Bytes.int n) name .outOfRange) := by
  have read : readFlags taken before (first ++ rest) =
      (FlagKind.number.read name (Bytes.int n)).bind fun v =>
        readFlags taken ((name, v) :: before) rest := by
    rcases List.mem_pair.mp spelling with rfl | rfl
    · exact readFlags_apart apartForm named
    · exact readFlags_joined joinedForm named
  rw [read, read_number]
  split_ifs <;> rfl

theorem readFlags_of_fits (fits : f.Fits) (spelling : first ∈ f.spellings) :
    readFlags taken before (first ++ rest) = readFlags taken (f.entry :: before) rest := by
  cases f with
  | trace on =>
    cases on with
    | true => rcases List.mem_pair.mp spelling with rfl | rfl <;> rfl
    | false =>
      obtain rfl := List.mem_singleton.mp spelling
      rfl
  | maxSteps n => exact (readFlags_number "max-steps" rfl rfl rfl spelling).trans (if_pos fits)
  | locals n => exact (readFlags_number "locals" rfl rfl rfl spelling).trans (if_pos fits)

theorem readFlags_of_not_fits (unfit : ¬ f.Fits) (spelling : first ∈ f.spellings) :
    ∃ e, readFlags taken before (first ++ rest) = .error e := by
  cases f with
  | trace on => exact (unfit trivial).elim
  | maxSteps n => exact ⟨_, (readFlags_number "max-steps" rfl rfl rfl spelling).trans (if_neg unfit)⟩
  | locals n => exact ⟨_, (readFlags_number "locals" rfl rfl rfl spelling).trans (if_neg unfit)⟩

theorem Spelled.readFlags_eq (spelled : Spelled given words) (fit : ∀ f ∈ given, f.Fits) :
    readFlags taken before (words ++ rest) =
      readFlags taken ((given.map entry).reverse ++ before) rest := by
  induction spelled generalizing before with
  | nil => rfl
  | cons spelling _ ih =>
    obtain ⟨fits, fit⟩ := List.forall_mem_cons.mp fit
    rw [List.append_assoc, readFlags_of_fits fits spelling, ih fit]
    simp

theorem Spelled.readFlags_error (spelled : Spelled given words) (unfit : ∃ f ∈ given, ¬ f.Fits) :
    ∃ e, readFlags taken before (words ++ rest) = .error e := by
  induction spelled generalizing before with
  | nil =>
    obtain ⟨f, member, _⟩ := unfit
    cases member
  | @cons f given first words spelling _ ih =>
    rw [List.append_assoc]
    by_cases fits : f.Fits
    · rw [readFlags_of_fits fits spelling]
      refine ih ?_
      obtain ⟨g, member, unfit⟩ := unfit
      rcases List.mem_cons.mp member with rfl | member
      · exact (unfit fits).elim
      · exact ⟨g, member, unfit⟩
    · exact readFlags_of_not_fits fits spelling

/-! ## Order of the words -/

theorem int_ne_dashes (n : Int) : Bytes.int n ≠ [45, 45] := by
  intro same
  cases n with
  | ofNat n =>
    have digit := Bytes.mem_nat (n := n) (x := 45) (by rw [show Bytes.nat n = _ from same]; simp)
    exact absurd digit.1 (by decide)
  | negSucc n =>
    have tail := (List.cons.inj same).2
    have digit := Bytes.mem_nat (n := n + 1) (x := 45) (by rw [tail]; simp)
    exact absurd digit.1 (by decide)

theorem looksLikeFlag_iff (word : Bytes) :
    looksLikeFlag word = true ↔ argumentForm word ≠ .positional := by
  have flagForm_ne (b : Bytes) : flagForm b ≠ .positional := by
    unfold flagForm
    split <;> try split
    all_goals exact nofun
  unfold looksLikeFlag argumentForm
  split <;> split <;> simp_all

theorem spelling_words (spelling : first ∈ f.spellings) :
    ∃ word others name value, first = word :: others ∧ argumentForm word = .flag name value ∧
      ∀ word ∈ others, word ≠ [45, 45] := by
  have last (n : Int) : ∀ word ∈ [Bytes.int n], word ≠ [45, 45] := by
    simp [int_ne_dashes]
  cases f with
  | trace on =>
    cases on with
    | true => rcases List.mem_pair.mp spelling with rfl | rfl <;> exact ⟨_, _, _, _, rfl, rfl, nofun⟩
    | false =>
      obtain rfl := List.mem_singleton.mp spelling
      exact ⟨_, _, _, _, rfl, rfl, nofun⟩
  | maxSteps n =>
    rcases List.mem_pair.mp spelling with rfl | rfl
    · exact ⟨_, _, _, _, rfl, rfl, last n⟩
    · exact ⟨_, _, _, _, rfl, rfl, nofun⟩
  | locals n =>
    rcases List.mem_pair.mp spelling with rfl | rfl
    · exact ⟨_, _, _, _, rfl, rfl, last n⟩
    · exact ⟨_, _, _, _, rfl, rfl, nofun⟩

theorem Spelled.ne_dashes (spelled : Spelled given words) : ∀ word ∈ words, word ≠ [45, 45] := by
  induction spelled with
  | nil => exact nofun
  | @cons f given first words spelling _ ih =>
    obtain ⟨word, others, name, value, rfl, form, clean⟩ := spelling_words spelling
    have first : word ≠ [45, 45] := by
      rintro rfl
      cases form
    intro x member
    rcases List.mem_append.mp member with front | back
    · rcases List.mem_cons.mp front with rfl | other
      · exact first
      · exact clean x other
    · exact ih x back

theorem Spelled.first_looksLikeFlag (spelled : Spelled given words) :
    words = [] ∨ ∃ word others, words = word :: others ∧ looksLikeFlag word = true := by
  cases spelled with
  | nil => exact .inl rfl
  | cons spelling _ =>
    obtain ⟨word, others, name, value, rfl, form, _⟩ := spelling_words spelling
    refine .inr ⟨word, _, rfl, (looksLikeFlag_iff word).mpr ?_⟩
    rw [form]
    exact nofun

/-- Without two dashes all that stands in front of the first flag is moved behind. -/
theorem flagsFirst_of_free {args : List Bytes} (free : ∀ word ∈ args, word ≠ [45, 45]) :
    flagsFirst args = args.dropWhile (fun word => !looksLikeFlag word)
      ++ args.takeWhile (fun word => !looksLikeFlag word) := by
  have clean : ∀ word ∈ args, (!decide (word = [45, 45])) = true := by
    simpa using free
  have whole := List.takeWhile_eq_self_iff.mpr clean
  have nothing := List.dropWhile_eq_nil_iff.mpr clean
  simp only [flagsFirst, whole, nothing, List.append_nil]

theorem flagsFirst_of_flag {word : Bytes} {rest : List Bytes} (free : word ≠ [45, 45])
    (flag : looksLikeFlag word = true) : flagsFirst (word :: rest) = word :: rest := by
  simp [flagsFirst, free, flag]

/-- Where flags stand to an operand: in front of it, and then nothing behind it is read as a flag, or all
behind it. What else stands there is returned. -/
inductive Ordered (words : List Bytes) (target : Bytes) : List Bytes -> List Bytes -> Prop
  | front {others : List Bytes} (some : words ≠ [] ∨ others = []) :
    Ordered words target (words ++ target :: others) others
  | behind : Ordered words target (target :: words) []

theorem Spelled.flagsFirst_eq (spelled : Spelled given words)
    (operand : argumentForm target = .positional) {args others : List Bytes}
    (order : Ordered words target args others) : flagsFirst args = words ++ target :: others := by
  have plain : looksLikeFlag target = false := by
    simpa using (looksLikeFlag_iff target).not.mpr (not_not.mpr operand)
  have single : target ≠ [45, 45] := by
    rintro rfl
    cases operand
  have alone : flagsFirst [target] = [target] := by
    rw [flagsFirst_of_free (by simpa using single)]
    simp [plain]
  rcases spelled.first_looksLikeFlag with rfl | ⟨word, rest, rfl, flag⟩
  · cases order with
    | front some =>
      obtain rfl := some.resolve_left (fun nonempty => nonempty rfl)
      exact alone
    | behind => exact alone
  · have free := spelled.ne_dashes
    cases order with
    | front _ => exact flagsFirst_of_flag (free word List.mem_cons_self) flag
    | behind =>
      have clean : ∀ x ∈ target :: word :: rest, x ≠ [45, 45] :=
        List.forall_mem_cons.mpr ⟨single, free⟩
      rw [flagsFirst_of_free clean]
      simp [plain, flag]

/-! ## Arguments -/

theorem value?_eq {α : Type} (flag : Flag) (pick : RunFlag -> Option α) (wrap : α -> FlagValue)
    (picked : ∀ f, (pick f).map wrap = if flag.names.contains f.entry.1 then some f.entry.2 else none)
    (given : List RunFlag) (rest : List Bytes) :
    (⟨(given.map entry).reverse, rest⟩ : Arguments).value? flag =
      (given.filterMap pick).getLast?.map wrap := by
  induction given using List.reverseRecOn with
  | nil => rfl
  | append_singleton given f ih =>
    have own := picked f
    simp only [Arguments.value?] at ih ⊢
    rw [List.map_append, List.reverse_append, List.filterMap_append, List.map_singleton,
      List.reverse_singleton, List.singleton_append]
    cases named : flag.names.contains f.entry.1 with
    | true =>
      rw [named, if_pos rfl, Option.map_eq_some_iff] at own
      obtain ⟨a, chosen, value⟩ := own
      rw [List.find?_cons_of_pos (by exact named)]
      simp [chosen, value]
    | false =>
      rw [named, if_neg (by decide), Option.map_eq_none_iff] at own
      rw [List.find?_cons_of_neg (by simp only [named, Bool.false_eq_true, not_false_eq_true]), ih]
      simp [own]

theorem runOptions_eq (given : List RunFlag) (rest : List Bytes) :
    runOptions ⟨(given.map entry).reverse, rest⟩ = options given := by
  have switch := value?_eq traceFlag trace? .switch (by rintro (_ | _ | _) <;> rfl) given rest
  have steps := value?_eq maxStepsFlag maxSteps? .number (by rintro (_ | _ | _) <;> rfl) given rest
  have slots := value?_eq localsFlag locals? .number (by rintro (_ | _ | _) <;> rfl) given rest
  simp only [runOptions, options, Arguments.switch?, Arguments.number?, switch, steps, slots]
  cases (given.filterMap trace?).getLast? <;> cases (given.filterMap maxSteps?).getLast? <;>
    cases (given.filterMap locals?).getLast? <;> rfl

theorem value?_eq_none (flag : Flag) (other : ∀ f : RunFlag, flag.names.contains f.entry.1 = false)
    (given : List RunFlag) (rest : List Bytes) :
    (⟨(given.map entry).reverse, rest⟩ : Arguments).value? flag = none := by
  have none := value?_eq flag (fun _ => none) FlagValue.switch (fun f => by rw [other f]; rfl) given rest
  simpa using none

theorem usedNames_length (given : List RunFlag) :
    ∀ flag ∈ taken, (usedNames (given.map entry).reverse flag).length ≤ 1 := by
  have unused (flag : Flag) (other : ∀ f : RunFlag, f.entry.1 ∉ flag.names) :
      usedNames (given.map entry).reverse flag = [] := by
    rw [usedNames, List.filter_eq_nil_iff]
    intro name member used
    obtain ⟨g, listed, same⟩ := List.any_eq_true.mp used
    obtain ⟨f, _, rfl⟩ := List.mem_map.mp (List.mem_reverse.mp listed)
    exact other f (of_decide_eq_true same ▸ member)
  intro flag member
  simp only [taken, Command.flags, List.cons_append, List.nil_append, List.mem_cons, List.not_mem_nil,
    or_false] at member
  rcases member with rfl | rfl | rfl | rfl | rfl
  · exact List.length_filter_le _ _
  · exact List.length_filter_le _ _
  · exact List.length_filter_le _ _
  · rw [unused classPathFlag (by rintro (_ | _ | _) <;> simp [entry, classPathFlag])]
    exact Nat.zero_le 1
  · rw [unused helpFlag (by rintro (_ | _ | _) <;> simp [entry, helpFlag])]
    exact Nat.zero_le 1

end RunFlag

theorem readArguments_of_single {flags : List Flag} {args : List Bytes} {a : Arguments}
    (read : readFlags flags [] args = .ok a) (single : ∀ f ∈ flags, (usedNames a.given f).length ≤ 1) :
    readArguments flags args = .ok a := by
  have none : ((flags.map (usedNames a.given)).find? fun names => 1 < names.length) = none := by
    simpa using single
  rw [readArguments, read]
  simp only [bind, Except.bind, none]
  rfl

theorem readArguments_of_error {flags : List Flag} {args : List Bytes} {e : UsageError}
    (refused : readFlags flags [] args = .error e) : readArguments flags args = .error e := by
  rw [readArguments, refused]
  rfl

variable {given : List RunFlag} {words args others : List Bytes} {target : Bytes}

theorem RunFlag.Spelled.commandArguments_eq (spelled : RunFlag.Spelled given words)
    (operand : argumentForm target = .positional) (order : RunFlag.Ordered words target args others)
    (fit : ∀ f ∈ given, f.Fits) :
    commandArguments .run args = .ok ⟨(given.map RunFlag.entry).reverse, target :: others⟩ := by
  rw [commandArguments, spelled.flagsFirst_eq operand order]
  refine readArguments_of_single ?_ (RunFlag.usedNames_length given)
  refine (spelled.readFlags_eq fit).trans ?_
  rw [List.append_nil, readFlags, operand]

theorem RunFlag.Spelled.commandArguments_error (spelled : RunFlag.Spelled given words)
    (operand : argumentForm target = .positional) (order : RunFlag.Ordered words target args others)
    (unfit : ∃ f ∈ given, ¬ f.Fits) : ∃ e, commandArguments .run args = .error e := by
  rw [commandArguments, spelled.flagsFirst_eq operand order]
  obtain ⟨e, refused⟩ := spelled.readFlags_error unfit
  exact ⟨e, readArguments_of_error refused⟩

/-! ## The whole line -/

def configSpellings : Option Bytes -> List (List Bytes)
  | none => [[]]
  | some path => [[utf8 "--config", path], [utf8 "--config=" ++ path]]

/-- A line that runs a target: the configuration file, the command, and its flags in front of the target
or all behind it. -/
inductive RunLine (config : Option Bytes) (given : List RunFlag) (target : Bytes) :
    List Bytes -> Prop
  | intro {front words args others : List Bytes} (file : front ∈ configSpellings config)
    (spelled : RunFlag.Spelled given words) (order : RunFlag.Ordered words target args others) :
    RunLine config given target (front ++ utf8 "run" :: args)

theorem readArguments_run {config : Option Bytes} {front : List Bytes}
    (file : front ∈ configSpellings config) (args : List Bytes) :
    ∃ a, readArguments globalFlags (front ++ utf8 "run" :: args) = .ok a ∧
      a.switch? helpFlag = none ∧ a.text configFlag = config.getD [] ∧ a.rest = utf8 "run" :: args := by
  cases config with
  | none =>
    obtain rfl := List.mem_singleton.mp file
    exact ⟨⟨[], utf8 "run" :: args⟩, rfl, rfl, rfl, rfl⟩
  | some path =>
    rcases List.mem_pair.mp file with rfl | rfl
    · exact ⟨⟨[("config", .text path)], utf8 "run" :: args⟩, rfl, rfl, rfl, rfl⟩
    · exact ⟨⟨[("config", .text path)], utf8 "run" :: args⟩, rfl, rfl, rfl, rfl⟩

end Jvm.CommandLine
