/-!
# Options

A line of arguments holds options and, if there are subcommands, the name of
one of them, which ends the line: what follows belongs to the subcommand.  An
option has a long and perhaps a short name and takes one value or none.  A value
stands in the argument of the name or in the next one.

An option whose value was the next argument is recorded only when another
option is or when the line is over.  This decides which of two faults is
reported.
-/

namespace SealedLua.CommandLine

/-- What an option is for. -/
inductive Effect where
  | record
  /-- To show a text instead of doing anything. -/
  | help
  | version
deriving DecidableEq, Repr

structure Flag where
  long : String
  short : Option Char := none
  /-- What stands for the value in messages, if the option takes one. -/
  value : Option String := none
  required : Bool := false
  /-- Whether a negative number after the name is its value. -/
  takesNegative : Bool := false
  /-- The long names of options that cannot be used together with this one. -/
  conflicts : List String := []
  effect : Effect := .record
deriving DecidableEq, Repr

namespace Flag

def shown (f : Flag) : String :=
  "--" ++ f.long ++
    match f.value with
    | some value => " <" ++ value ++ ">"
    | none => ""

/-- Whether two options cannot be used together. -/
def excludes (f g : Flag) : Bool := f.conflicts.contains g.long || g.conflicts.contains f.long

end Flag

inductive UsageError where
  | valueMissing (f : Flag)
  | repeated (f : Flag)
  | conflict (f : Flag) (others : List Flag)
  | unexpectedArgument (argument : String)
  | unexpectedValue (value : String) (f : Flag)
  | unknownSubcommand (argument : String)
  | subcommandMissing (program : String)
  | requiredMissing (flags : List Flag)
deriving DecidableEq, Repr

namespace UsageError

def listed (flags : List Flag) : String := String.join (flags.map fun f => "\n  " ++ f.shown)

def message : UsageError → String
  | .valueMissing f => "a value is required for '" ++ f.shown ++ "' but none was supplied"
  | .repeated f => "the argument '" ++ f.shown ++ "' cannot be used multiple times"
  | .conflict f others =>
    "the argument '" ++ f.shown ++ "' cannot be used with" ++
      match others with
      | [other] => " '" ++ other.shown ++ "'"
      | others => ":" ++ listed others
  | .unexpectedArgument argument => "unexpected argument '" ++ argument ++ "' found"
  | .unexpectedValue value f =>
    "unexpected value '" ++ value ++ "' for '" ++ f.shown ++ "' found; no more were expected"
  | .unknownSubcommand argument => "unrecognized subcommand '" ++ argument ++ "'"
  | .subcommandMissing program =>
    "'" ++ program ++ "' requires a subcommand but one was not provided"
  | .requiredMissing flags => "the following required arguments were not provided:" ++ listed flags

end UsageError

/-- Why a line is not carried out. -/
inductive Stop where
  | usage (e : UsageError)
  | help
  | version
deriving DecidableEq, Repr

/-- What a line may hold. -/
structure Grammar where
  flags : List Flag
  subcommands : List String := []

/-- What has been read of a line: the options that are recorded, and one that
waits for its value or for being recorded. -/
structure Progress where
  given : List (Flag × String) := []
  pending : Option (Flag × Option String) := none

namespace Progress

/-- Records an option, which must be the first of its name. -/
def record (p : Progress) (f : Flag) (value : String) : Except UsageError Progress :=
  if p.given.any fun g => g.1.long == f.long then .error (.repeated f)
  else .ok { p with given := p.given ++ [(f, value)] }

def settle (p : Progress) : Except UsageError Progress :=
  match p.pending with
  | none => .ok p
  | some (f, none) => .error (.valueMissing f)
  | some (f, some value) => { p with pending := none }.record f value

def waiting? (p : Progress) : Option Flag :=
  match p.pending with
  | some (f, none) => some f
  | _ => none

/-- An option with or without its value in the same argument. -/
def take (p : Progress) (f : Flag) (value : Option String) : Except Stop Progress := do
  let p ← p.settle.mapError .usage
  match f.value, value with
  | some _, none => return { p with pending := some (f, none) }
  | some _, some value => (p.record f value).mapError .usage
  | none, some value => throw (.usage (.unexpectedValue value f))
  | none, none =>
    match f.effect with
    | .record => (p.record f "").mapError .usage
    | .help => throw .help
    | .version => throw .version

end Progress

/-- Whether a text is a number: digits with at most one point after the first
of them, and an exponent without a sign. -/
def isNumber (s : List Char) : Bool :=
  let isMark := fun c => c == 'e' || c == 'E'
  let mantissa := s.takeWhile fun c => !isMark c
  mantissa.head?.any Char.isDigit && mantissa.all (fun c => c.isDigit || c == '.') &&
    mantissa.count '.' ≤ 1 &&
    match s.dropWhile fun c => !isMark c with
    | [] => true
    | _ :: exponent => !exponent.isEmpty && exponent.all Char.isDigit

namespace Grammar

def stray (g : Grammar) (argument : String) : Stop :=
  .usage (if g.subcommands.isEmpty then .unexpectedArgument argument
    else .unknownSubcommand argument)

def readLong (g : Grammar) (p : Progress) (text : List Char) : Except Stop Progress :=
  let name := String.ofList (text.takeWhile (· ≠ '='))
  let value := match text.dropWhile (· ≠ '=') with
    | [] => none
    | _ :: value => some (String.ofList value)
  match g.flags.find? fun f => f.long == name with
  | none => .error (.usage (.unexpectedArgument ("--" ++ name)))
  | some f =>
    match f.value, value with
    | none, some value => .error (.usage (.unexpectedValue value f))
    | _, _ => p.take f value

/-- Reads short names; the value of an option may follow its name. -/
def readShort (g : Grammar) (p : Progress) : List Char → Except Stop Progress
  | [] => .ok p
  | c :: rest =>
    match g.flags.find? fun f => f.short == some c with
    | none => .error (.usage (.unexpectedArgument (String.ofList ['-', c])))
    | some f =>
      if f.value.isNone then do
        let p ← p.take f none
        g.readShort p rest
      else
        match rest with
        | [] => p.take f none
        | '=' :: value => p.take f (some (String.ofList value))
        | value => p.take f (some (String.ofList value))

/-- Reads arguments up to the name of a subcommand.  After two dashes alone
there are no more options. -/
def read (g : Grammar) (p : Progress) :
    List String → Except Stop (Progress × Option (String × List String))
  | [] => .ok (p, none)
  | argument :: rest => do
    let waiting := p.waiting?
    let plain := fun (_ : Unit) => match waiting with
      | some f => g.read { p with pending := some (f, some argument) } rest
      | none => .error (g.stray argument)
    if waiting.isNone && g.subcommands.contains argument then return (p, some (argument, rest))
    match argument.toList with
    | ['-', '-'] =>
      match rest with
      | [] => return (p, none)
      | argument :: _ =>
        if g.subcommands.contains argument then throw (.usage (.unexpectedArgument argument))
        else throw (g.stray argument)
    | '-' :: '-' :: text => g.read (← g.readLong p text) rest
    | '-' :: c :: text =>
      if waiting.any (·.takesNegative) && isNumber (c :: text) then plain ()
      else g.read (← g.readShort p (c :: text)) rest
    | _ => plain ()

/-- The recorded options, if none is missing and none is too many. -/
def check (g : Grammar) (given : List (Flag × String)) : Except UsageError (List (Flag × String)) :=
  let rivals := fun (f : Flag) => (given.map (·.1)).filter fun h => h.long != f.long && f.excludes h
  match given.find? fun f => !(rivals f.1).isEmpty with
  | some (f, _) => .error (.conflict f (rivals f))
  | none =>
    match g.flags.filter fun f => f.required && !given.any fun h => h.1.long == f.long with
    | [] => .ok given
    | missing => .error (.requiredMissing missing)

def finish (g : Grammar) (p : Progress) : Except UsageError (List (Flag × String)) := do
  g.check (← p.settle).given

end Grammar

end SealedLua.CommandLine
