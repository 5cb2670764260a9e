import SealedLua.CommandLine.Request
import Mathlib.Data.List.TakeWhile
import Mathlib.Tactic.Common

/-!
# Lines that ask for something

A line of arguments is read from left to right.  Each option on it stands for
itself: whatever its value is, it is recorded, and nothing else changes.  So the
line that is written for a request is read as that request.
-/

namespace SealedLua

namespace Integer

variable {isNegative : Bool} {m n : Nat}

theorem readDigits_append (l l' : List Char) :
    readDigits isNegative m (l ++ l') = readDigits isNegative m l >>= fun n =>
      readDigits isNegative n l' := by
  induction l generalizing m with
  | nil => rfl
  | cons c l ih =>
    rw [List.cons_append, readDigits, readDigits]
    by_cases digit : (!c.isDigit) = true
    · rw [if_pos digit, if_pos digit]
      rfl
    · rw [if_neg digit, if_neg digit]
      by_cases large : limit isNegative < m * 10 + (c.toNat - 48)
      · rw [if_pos large, if_pos large]
        rfl
      · rw [if_neg large, if_neg large]
        exact ih

theorem readDigits_digit {v : Nat} (digit : v < 10) (small : m * 10 + v ≤ limit isNegative) :
    readDigits isNegative m [Nat.digitChar v] = .ok (m * 10 + v) := by
  rw [readDigits, Nat.toNat_digitChar_sub_48_of_lt_ten digit,
    Nat.isDigit_digitChar, decide_eq_true digit, if_neg (by decide), if_neg (Nat.not_lt.2 small)]
  rfl

theorem readDigits_toDigits (small : n ≤ limit isNegative) :
    readDigits isNegative 0 (Nat.toDigits 10 n) = .ok n := by
  induction n using Nat.strongRecOn with
  | ind n ih =>
    by_cases short : n < 10
    · rw [Nat.toDigits_of_lt_base short, readDigits_digit short (by omega),
        Nat.zero_mul, Nat.zero_add]
    · have last : readDigits isNegative (n / 10) [Nat.digitChar (n % 10)] =
          .ok (n / 10 * 10 + n % 10) :=
        readDigits_digit (Nat.mod_lt n (by decide)) (by omega)
      rw [Nat.toDigits_of_base_le (by decide) (Nat.le_of_not_lt short), readDigits_append,
        ih (n / 10) (by omega) (by omega)]
      refine last.trans ?_
      rw [Nat.div_add_mod']

theorem readMagnitude_toDigits (small : n ≤ limit isNegative) :
    readMagnitude isNegative (Nat.toDigits 10 n) =
      .ok (Int64.ofInt (if isNegative then -n else n)) := by
  obtain ⟨c, rest, digits⟩ := List.exists_cons_of_ne_nil (Nat.toDigits_ne_nil (n := n) (b := 10))
  have read := readDigits_toDigits small
  rw [digits] at read ⊢
  rw [readMagnitude, read]
  · rfl
  · nofun

theorem read_of_digit {text : String} {c : Char} {rest : List Char}
    (digits : text.toList = c :: rest)
    (digit : c.isDigit = true) : read text = readMagnitude false (c :: rest) := by
  unfold read
  rw [digits]
  split
  · next nil => cases nil
  · next sign =>
    cases sign
    exact absurd digit (by decide)
  · next sign =>
    cases sign
    exact absurd digit (by decide)
  · rfl

theorem isDigit_of_readDigits {l : List Char} (read : readDigits isNegative m l = .ok n) :
    ∀ c ∈ l, c.isDigit = true := by
  induction l generalizing m with
  | nil => nofun
  | cons c l ih =>
    rw [readDigits] at read
    split_ifs at read with other large
    · intro d member
      rcases List.mem_cons.1 member with rfl | member
      · simpa using other
      · exact ih read d member

theorem isDigit_of_read_negative {text : String} {value : Int64} {c : Char} {rest : List Char}
    (read : Integer.read text = .ok value) (characters : text.toList = '-' :: c :: rest) :
    ∀ d ∈ c :: rest, d.isDigit = true := by
  unfold Integer.read at read
  rw [characters] at read
  change (readDigits true 0 (c :: rest) >>= fun n => .ok (Int64.ofInt (if true then -n else n))) =
    .ok value at read
  cases digits : readDigits true 0 (c :: rest) with
  | error fault =>
    rw [digits] at read
    cases read
  | ok n => exact isDigit_of_readDigits digits

theorem read_toString (n : Int64) : read (toString n.toInt) = .ok n := by
  have low := n.le_toInt
  have high := n.toInt_lt
  rw [Int.toString_eq_repr, Int.repr_eq_if]
  split_ifs with sign
  · obtain ⟨c, rest, digits⟩ :=
      List.exists_cons_of_ne_nil (Nat.toDigits_ne_nil (n := n.toInt.toNat) (b := 10))
    have digit : c.isDigit = true :=
      Nat.isDigit_of_mem_toDigits (by decide) (by decide)
        (digits ▸ List.mem_cons_self : c ∈ Nat.toDigits 10 n.toInt.toNat)
    have small : n.toInt.toNat ≤ limit false := by
      rw [limit, if_neg (by decide)]
      omega
    rw [read_of_digit (by rw [Nat.toList_repr, digits]) digit, ← digits,
      readMagnitude_toDigits small, if_neg (by decide), Int.toNat_of_nonneg sign, Int64.ofInt_toInt]
  · have small : (-n.toInt).toNat ≤ limit true := by
      rw [limit, if_pos rfl]
      omega
    have text : ("-" ++ (-n.toInt).toNat.repr).toList =
      '-' :: Nat.toDigits 10 (-n.toInt).toNat := by simp
    unfold read
    rw [text]
    have value : -(((-n.toInt).toNat : Nat) : Int) = n.toInt := by omega
    refine (readMagnitude_toDigits small).trans ?_
    rw [if_pos rfl, value, Int64.ofInt_toInt]

end Integer

namespace CommandLine

/-- Whether an argument can be the value of an option whose name was the argument before it. -/
def Flag.Admits (f : Flag) (argument : String) : Prop :=
  (∀ c rest, argument.toList ≠ '-' :: c :: rest) ∨
    f.takesNegative = true ∧ ∃ c rest, argument.toList = '-' :: c :: rest ∧
      isNumber (c :: rest) = true

/-- The ways to write an option with its value. -/
inductive Spells (f : Flag) (value : String) : List String → Prop
  | joined : Spells f value ["--" ++ f.long ++ "=" ++ value]
  | apart (admits : f.Admits value) : Spells f value ["--" ++ f.long, value]

theorem Spells.of_joined {f : Flag} {value argument : String}
    (h : argument = "--" ++ f.long ++ "=" ++ value) :
    Spells f value [argument] := h ▸ .joined

theorem Spells.of_apart {f : Flag} {value name : String} (h : name = "--" ++ f.long)
    (admits : f.Admits value) :
    Spells f value [name, value] := h ▸ .apart admits

theorem isNumber_digits {c : Char} {l : List Char} (digits : ∀ d ∈ c :: l, d.isDigit = true) :
    isNumber (c :: l) = true := by
  have unmarked : ∀ d ∈ c :: l, (!(d == 'e' || d == 'E')) = true := by
    intro d member
    by_cases mark : d = 'e' ∨ d = 'E'
    · have digit := digits d member
      rcases mark with rfl | rfl <;> exact absurd digit (by decide)
    · simpa [not_or] using mark
  have pointless : '.' ∉ c :: l := fun member => absurd (digits '.' member) (by decide)
  have mantissa := List.takeWhile_eq_self_iff.2 unmarked
  have exponent := List.dropWhile_eq_nil_iff.2 unmarked
  have fits : (c :: l).all (fun d => d.isDigit || d == '.') = true :=
    List.all_eq_true.2 fun d member => by rw [digits d member, Bool.true_or]
  unfold isNumber
  dsimp only
  rw [mantissa, exponent, fits, List.count_eq_zero.2 pointless, List.head?_cons, Option.any_some,
    digits c List.mem_cons_self]
  rfl

/-- An option that takes negative numbers can have any numeral after it. -/
theorem Flag.admits_numeral {f : Flag} (negative : f.takesNegative = true)
    {text : String} {n : Int64} (read : Integer.read text = .ok n) : f.Admits text := by
  by_cases dash : ∃ c rest, text.toList = '-' :: c :: rest
  · obtain ⟨c, rest, characters⟩ := dash
    refine .inr ⟨negative, c, rest, characters,
      isNumber_digits (Integer.isDigit_of_read_negative read characters)⟩
  · exact .inl fun c rest characters => dash ⟨c, rest, characters⟩

namespace Grammar

variable {g : Grammar} {p : Progress} {f : Flag} {argument value : String} {rest : List String}

theorem read_value (waits : p.waiting? = some f) (admits : f.Admits argument) :
    g.read p (argument :: rest) = g.read { p with pending := some (f, some argument) } rest := by
  rw [Grammar.read.eq_def]
  simp only [waits, Option.isNone_some, Bool.false_and, Bool.false_eq_true, if_false]
  rcases admits with plain | ⟨negative, c, digits, text, number⟩
  · generalize argument.toList = text at plain
    split
    · exact absurd rfl (plain _ _)
    · exact absurd rfl (plain _ _)
    · exact absurd rfl (plain _ _)
    · rfl
  · have digit : c ≠ '-' := by
      rintro rfl
      simp [isNumber] at number
    rw [text]
    split
    · next dashes =>
      cases dashes
      exact absurd rfl digit
    · next dashes =>
      cases dashes
      exact absurd rfl digit
    · next same =>
      cases same
      simp [negative, number]
    · rfl

/-- An argument that begins with two dashes holds the name of an option. -/
theorem read_name {text : List Char} (dashes : argument.toList = '-' :: '-' :: text)
    (named : text ≠ []) (other : g.subcommands.contains argument = false) :
    g.read p (argument :: rest) = g.readLong p text >>= fun p => g.read p rest := by
  rw [Grammar.read.eq_def]
  simp only [other, Bool.and_false, Bool.false_eq_true, if_false, dashes]

/-- An option of a grammar, found by a name in which no value can begin.  No
subcommand looks like an option. -/
structure Knows (g : Grammar) (f : Flag) : Prop where
  found : g.flags.find? (fun h => h.long == f.long) = some f
  plain : '=' ∉ f.long.toList
  named : f.long.toList ≠ []
  dashed : (g.subcommands.any fun name => name.toList.head? == some '-') = false

/-- What has been read, when all of it is or can be recorded.  The next argument is no value. -/
structure Stands (p : Progress) (given : List (Flag × String)) : Prop where
  settled : p.settle = .ok ⟨given, none⟩
  waits : p.waiting? = none

/-- Some arguments of a line only add to what is recorded. -/
def Adds (g : Grammar) (p : Progress) (args : List String) (given : List (Flag × String)) : Prop :=
  ∃ q, Stands q given ∧ ∀ rest, g.read p (args ++ rest) = g.read q rest

variable {given : List (Flag × String)}

theorem Stands.empty : Stands {} [] := ⟨rfl, rfl⟩

theorem Knows.contains_dashed (known : Knows g f) {text : List Char}
    (dashes : argument.toList = '-' :: text) :
    g.subcommands.contains argument = false := by
  rw [← Bool.not_eq_true, List.contains_iff_mem]
  intro subcommand
  have dashed := known.dashed
  rw [List.any_eq_false] at dashed
  refine dashed argument subcommand ?_
  rw [dashes]
  rfl

theorem Knows.takeWhile_long (known : Knows g f) (text : List Char) :
    (f.long.toList ++ '=' :: text).takeWhile (· ≠ '=') = f.long.toList ∧
      (f.long.toList ++ '=' :: text).dropWhile (· ≠ '=') = '=' :: text := by
  have before : ∀ c ∈ f.long.toList, decide (c ≠ '=') = true := fun c member =>
    decide_eq_true fun same => known.plain (same ▸ member)
  rw [List.takeWhile_append_of_pos before, List.dropWhile_append_of_pos before]
  simp

theorem Knows.takeWhile_name (known : Knows g f) :
    f.long.toList.takeWhile (· ≠ '=') = f.long.toList ∧ f.long.toList.dropWhile (· ≠ '=') = [] := by
  have before : ∀ c ∈ f.long.toList, decide (c ≠ '=') = true := fun c member =>
    decide_eq_true fun same => known.plain (same ▸ member)
  exact ⟨List.takeWhile_eq_self_iff.2 before, List.dropWhile_eq_nil_iff.2 before⟩

theorem Knows.readLong_joined (known : Knows g f) (takes : f.value.isSome = true) :
    g.readLong p (f.long.toList ++ '=' :: value.toList) = p.take f (some value) := by
  obtain ⟨name, rest⟩ := known.takeWhile_long value.toList
  obtain ⟨shown, takes⟩ := Option.isSome_iff_exists.1 takes
  unfold readLong
  rw [name, rest]
  simp only [String.ofList_toList, known.found, takes]

theorem Knows.readLong_alone (known : Knows g f) : g.readLong p f.long.toList = p.take f none := by
  obtain ⟨name, rest⟩ := known.takeWhile_name
  unfold readLong
  rw [name, rest]
  simp only [String.ofList_toList, known.found]
  cases f.value <;> rfl

section Fresh

variable (fresh : (given.any fun h => h.1.long == f.long) = false)

include fresh

theorem record_fresh (value : String) :
    Progress.record ⟨given, none⟩ f value = .ok ⟨given ++ [(f, value)], none⟩ := by
  rw [Progress.record, if_neg (ne_true_of_eq_false fresh)]

variable (stands : Stands p given) (known : Knows g f)

include stands known

theorem adds_spelled {args : List String} (takes : f.value.isSome = true)
    (spells : Spells f value args) :
    Adds g p args (given ++ [(f, value)]) := by
  obtain ⟨shown, valued⟩ := Option.isSome_iff_exists.1 takes
  cases spells with
  | joined =>
    have dashes : ("--" ++ f.long ++ "=" ++ value).toList = '-' :: '-' ::
        (f.long.toList ++ '=' :: value.toList) := by
      simp
    refine ⟨⟨given ++ [(f, value)], none⟩, ⟨rfl, rfl⟩, fun rest => ?_⟩
    rw [List.singleton_append, read_name dashes (by simp) (known.contains_dashed dashes),
      known.readLong_joined takes, Progress.take, stands.settled]
    simp only [valued]
    exact congrArg (fun x => (x.mapError Stop.usage) >>= fun p => g.read p rest)
      (record_fresh fresh value)
  | apart admits =>
    have dashes : ("--" ++ f.long).toList = '-' :: '-' :: f.long.toList := by simp
    refine ⟨⟨given, some (f, some value)⟩, ⟨record_fresh fresh value, rfl⟩, fun rest => ?_⟩
    rw [List.cons_append, List.singleton_append,
      read_name dashes known.named (known.contains_dashed dashes), known.readLong_alone,
      Progress.take, stands.settled]
    simp only [valued]
    exact read_value (p := ⟨given, some (f, none)⟩) rfl admits

theorem adds_flag (plain : f.value = none) (recorded : f.effect = .record) :
    Adds g p ["--" ++ f.long] (given ++ [(f, "")]) := by
  have dashes : ("--" ++ f.long).toList = '-' :: '-' :: f.long.toList := by simp
  refine ⟨⟨given ++ [(f, "")], none⟩, ⟨rfl, rfl⟩, fun rest => ?_⟩
  rw [List.singleton_append, read_name dashes known.named (known.contains_dashed dashes),
    known.readLong_alone, Progress.take, stands.settled]
  simp only [plain, recorded]
  exact congrArg (fun x => (x.mapError Stop.usage) >>= fun p => g.read p rest)
    (record_fresh fresh "")

end Fresh

/-- Arguments that are options, each with its value if it takes one. -/
inductive Written : List String → List (Flag × String) → Prop
  | nil : Written [] []
  | value {f : Flag} {value : String} {args rest : List String} {options : List (Flag × String)}
      (takes : f.value.isSome = true) (spells : Spells f value args)
      (later : Written rest options) :
      Written (args ++ rest) ((f, value) :: options)
  | flag {f : Flag} {rest : List String} {options : List (Flag × String)} (plain : f.value = none)
      (recorded : f.effect = .record) (later : Written rest options) :
      Written (["--" ++ f.long] ++ rest) ((f, "") :: options)

theorem Adds.append {args args' : List String} {given' : List (Flag × String)}
    (first : Adds g p args given)
    (second : ∀ q, Stands q given → Adds g q args' given') : Adds g p (args ++ args') given' := by
  obtain ⟨q, stands, read⟩ := first
  obtain ⟨r, stands', read'⟩ := second q stands
  refine ⟨r, stands', fun rest => ?_⟩
  rw [List.append_assoc, read, read']

theorem fresh_of_nodup {options : List (Flag × String)}
    (distinct : ((given ++ (f, value) :: options).map (·.1.long)).Nodup) :
    (given.any fun h => h.1.long == f.long) = false := by
  rw [List.map_append, List.nodup_append] at distinct
  refine List.any_eq_false.2 fun h member same => ?_
  exact distinct.2.2 _ (List.mem_map_of_mem member) _ List.mem_cons_self (eq_of_beq same)

/-- Options add themselves, whatever their values are, if none of them comes twice. -/
theorem Written.adds {args : List String} {options : List (Flag × String)}
    (written : Written args options)
    (stands : Stands p given) (known : ∀ f ∈ options.map Prod.fst, Knows g f)
    (distinct : ((given ++ options).map (·.1.long)).Nodup) : Adds g p args (given ++ options) := by
  induction written generalizing p given with
  | nil =>
    rw [List.append_nil]
    exact ⟨p, stands, fun rest => rfl⟩
  | @value f value args rest options takes spells later ih =>
    have fresh := fresh_of_nodup distinct
    have split : given ++ (f, value) :: options = given ++ [(f, value)] ++ options :=
      List.append_cons _ _ _
    rw [split] at distinct ⊢
    refine (adds_spelled fresh stands (known f List.mem_cons_self) takes spells).append
      fun q stands => ?_
    exact ih stands (fun h member => known h (List.mem_cons_of_mem _ member)) distinct
  | @flag f rest options plain recorded later ih =>
    have fresh := fresh_of_nodup distinct
    have split : given ++ (f, "") :: options = given ++ [(f, "")] ++ options :=
      List.append_cons _ _ _
    rw [split] at distinct ⊢
    refine (adds_flag fresh stands (known f List.mem_cons_self) plain recorded).append
      fun q stands => ?_
    exact ih stands (fun h member => known h (List.mem_cons_of_mem _ member)) distinct

end Grammar

namespace Request

open Grammar (Knows Written)

def numberFlag : Flag :=
  { long := "number", short := some 'n', value := some "INTEGER", takesNegative :=
    true, conflicts := ["text", "code"] }

def textFlag : Flag :=
  { long := "text", short := some 't', value := some "STRING", conflicts := ["code"] }

def codeFlag : Flag := { long := "code", value := some "SOURCE" }

def inputFlag : Flag :=
  { long := "input", short := some 'i', value := some "FILE", required := true }

def outputFlag : Flag :=
  { long := "output", short := some 'o', value := some "FILE", required := true }

def sealing (isSealed : Bool) : List (Flag × String) := if isSealed then [(sealedFlag, "")] else []

/-- The options that give an argument. -/
inductive Gives : List (Flag × String) → Parcel → Prop
  | none : Gives [] (.number 0)
  | number {text : String} {n : Int64} (read : Integer.read text = .ok n) :
    Gives [(numberFlag, text)] (.number n)
  | text (text : String) : Gives [(textFlag, text)] (.text text)
  | code (source : String) : Gives [(codeFlag, source)] (.code source)

/-- The options with which a subcommand is asked for an action. -/
inductive Means : Subcommand → List (Flag × String) → Action → Prop
  | sealFile (input output : String) :
      Means .sealFile [(inputFlag, input), (outputFlag, output)] (.sealFile input output)
  | run (script : String) (isSealed : Bool) {options : List (Flag × String)} {argument : Parcel}
      (gives : Gives options argument) :
      Means .run ((scriptFlag, script) :: (sealing isSealed ++ options))
      (.run script isSealed argument)
  | save (name script : String) (isSealed : Bool) :
      Means .save ((nameFlag, name) :: (scriptFlag, script) :: sealing isSealed)
      (.save name script isSealed)
  | runSaved (name : String) {options : List (Flag × String)} {argument : Parcel}
      (gives : Gives options argument) :
      Means .runSaved ((nameFlag, name) :: options) (.runSaved name argument)

/-- The lines that are written for a request. -/
inductive Writes : List String → Request → Prop
  | line {first args : List String} {path : String} {c : Subcommand}
    {options : List (Flag × String)} {action : Action}
      (configured : Spells configurationFlag path first) (means : Means c options action)
      (written : Written args options) :
      Writes (first ++ c.name :: args) ⟨path, action⟩

/-- A line that is read as a request. -/
def Asks (arguments : List String) (request : Request) : Prop :=
  ∃ line, readLine arguments = .ok line ∧ ofLine line = .ok request

theorem knows_configuration : Knows grammar configurationFlag := by
  refine ⟨?_, ?_, ?_, ?_⟩ <;> decide

theorem knows_flags (c : Subcommand) {f : Flag} (member : f ∈ c.grammar.flags) :
    Knows c.grammar f := by
  have found : ∀ f ∈ c.grammar.flags,
      c.grammar.flags.find? (fun h => h.long == f.long) = some f := by
    cases c <;> decide
  have plain : ∀ f ∈ c.grammar.flags, '=' ∉ f.long.toList ∧ f.long.toList ≠ [] := by
    cases c <;> decide
  exact ⟨found f member, (plain f member).1, (plain f member).2, rfl⟩

theorem readLine_written {first args : List String} {path : String} {c : Subcommand}
    {options : List (Flag × String)}
    (configured : Spells configurationFlag path first) (written : Written args options)
    (known : ∀ f ∈ options.map Prod.fst, f ∈ c.grammar.flags)
    (distinct : (options.map (·.1.long)).Nodup) (whole : c.grammar.check options = .ok options) :
    readLine (first ++ c.name :: args) = .ok ⟨[(configurationFlag, path)], c, options⟩ := by
  obtain ⟨p, stands, front⟩ :=
    Grammar.adds_spelled (g := grammar) rfl .empty knows_configuration rfl configured
  obtain ⟨q, ended, back⟩ :=
    written.adds (g := c.grammar) .empty (fun f member => knows_flags c (known f member)) distinct
  have named : grammar.read p (c.name :: args) = .ok (p, some (c.name, args)) := by
    have subcommand : grammar.subcommands.contains c.name = true := by cases c <;> decide
    rw [Grammar.read.eq_def]
    simp only [stands.waits, subcommand]
    rfl
  have found : (Subcommand.all.find? fun d => d.name == c.name) = some c := by cases c <;> decide
  have rest := back []
  rw [List.append_nil] at rest
  have finished : c.grammar.finish q = .ok options := by
    rw [Grammar.finish, ended.settled]
    exact whole
  have given : grammar.finish p = .ok [(configurationFlag, path)] := by
    rw [Grammar.finish, stands.settled]
    rfl
  unfold readLine
  rw [front, named]
  simp only [bind, Except.bind, found, rest, Grammar.read.eq_1, finished, given]
  rfl

/-- The options of a subcommand are known to it, differ and get along. -/
theorem Means.fits {c : Subcommand} {options : List (Flag × String)} {action : Action}
    (means : Means c options action) :
    (∀ f ∈ options.map Prod.fst, f ∈ c.grammar.flags) ∧ (options.map (·.1.long)).Nodup ∧
      c.grammar.check options = .ok options := by
  have listed : decide ((∀ f ∈ options.map Prod.fst, f ∈ c.grammar.flags) ∧
      (options.map (·.1.long)).Nodup) = true ∧
      c.grammar.check options = .ok options := by
    cases means with
    | sealFile input output => exact ⟨rfl, rfl⟩
    | save name script isSealed => cases isSealed <;> exact ⟨rfl, rfl⟩
    | run script isSealed gives => cases isSealed <;> cases gives <;> exact ⟨rfl, rfl⟩
    | runSaved name gives => cases gives <;> exact ⟨rfl, rfl⟩
  obtain ⟨known, distinct⟩ := of_decide_eq_true listed.1
  exact ⟨known, distinct, listed.2⟩

theorem argument_number {options : List (Flag × String)} {text : String} {n : Int64}
    (given : option? options "number" = some text) (read : Integer.read text = .ok n) :
    argument options = .ok (.number n) := by
  rw [argument, given]
  dsimp only
  rw [read]
  rfl

theorem ofLine_run {path : String} {options : List (Flag × String)} {given : Parcel}
    (read : argument options = .ok given) :
    ofLine ⟨[(configurationFlag, path)], .run, options⟩ =
      .ok ⟨path,
        .run (option options "script") (option? options sealedFlag.long).isSome given⟩ := by
  unfold ofLine
  dsimp only
  rw [read]
  rfl

theorem ofLine_runSaved {path : String} {options : List (Flag × String)} {given : Parcel}
    (read : argument options = .ok given) :
    ofLine ⟨[(configurationFlag, path)], .runSaved, options⟩ =
      .ok ⟨path, .runSaved (option options "name") given⟩ := by
  unfold ofLine
  dsimp only
  rw [read]
  rfl

theorem option?_append {front options : List (Flag × String)} {long : String}
    (absent : option? front long = none) :
    option? (front ++ options) long = option? options long := by
  rw [option?, List.find?_append, Option.map_eq_none_iff.1 absent, Option.none_or]
  rfl

theorem Gives.argument_eq {options : List (Flag × String)} {given : Parcel}
    (gives : Gives options given) (front : List (Flag × String))
    (others : ∀ long ∈ ["number", "text", "code"], option? front long = Option.none) :
    argument (front ++ options) = .ok given := by
  have same : argument (front ++ options) = argument options := by
    unfold argument
    rw [option?_append (others "number" (by decide)), option?_append (others "text" (by decide)),
      option?_append (others "code" (by decide))]
  rw [same]
  cases gives with
  | none => rfl
  | number read => exact argument_number rfl read
  | text _ => rfl
  | code _ => rfl

theorem Means.ofLine_eq {c : Subcommand} {options : List (Flag × String)} {action : Action}
    (means : Means c options action)
    (path : String) : ofLine ⟨[(configurationFlag, path)], c, options⟩ = .ok ⟨path, action⟩ := by
  cases means with
  | sealFile input output => rfl
  | save name script isSealed => cases isSealed <;> rfl
  | @run script isSealed options given gives =>
    have read : argument ((scriptFlag, script) :: (sealing isSealed ++ options)) = .ok given := by
      refine gives.argument_eq ((scriptFlag, script) :: sealing isSealed) ?_
      cases isSealed <;> simp [option?, sealing, scriptFlag, sealedFlag]
    rw [ofLine_run read]
    cases isSealed <;> cases gives <;> rfl
  | @runSaved name options given gives =>
    have read : argument ((nameFlag, name) :: options) = .ok given := by
      refine gives.argument_eq [(nameFlag, name)] ?_
      simp [option?, nameFlag]
    rw [ofLine_runSaved read]
    rfl

theorem Writes.asks {arguments : List String} {request : Request}
    (writes : Writes arguments request) :
    Asks arguments request := by
  cases writes with
  | line configured means written =>
    obtain ⟨known, distinct, whole⟩ := means.fits
    exact ⟨_, readLine_written configured written known distinct whole, means.ofLine_eq _⟩

end Request
end CommandLine
end SealedLua
