import SealedLua.CommandLine.Options
import SealedLua.Engine.Parcel
import SealedLua.Number.Integer
import SealedLua.Text.Quoted

/-!
# Requests

What the program can be asked to do, and how it is asked: an option for the
configuration and a subcommand with options of its own.
-/

namespace SealedLua.CommandLine

def programName : String := "freestanding-gateway"

def programVersion : String := "pre-alpha"

/-- What the program is asked to do. -/
inductive Action where
  /-- Seals a file. -/
  | sealFile (input output : String)
  | run (script : String) (isSealed : Bool) (argument : Parcel)
  | save (name script : String) (isSealed : Bool)
  | runSaved (name : String) (argument : Parcel)
deriving DecidableEq

structure Request where
  configuration : String
  action : Action
deriving DecidableEq

/-- Why an argument of the line is of no use, and what is wrong with it. -/
structure ArgumentError where
  text : String
  fault : IntegerFault
deriving DecidableEq

namespace Request

def helpFlag : Flag := { long := "help", short := some 'h', effect := .help }

def configurationFlag : Flag :=
  { long := "config", short := some 'c', value := some "FILE", required := true }

def sealedFlag : Flag := { long := "encrypted", short := some 'e' }

def nameFlag : Flag := { long := "name", value := some "NAME", required := true }

def scriptFlag : Flag :=
  { long := "script", short := some 's', value := some "FILE", required := true }

/-- The three ways to give a script its argument, of which one can be used at a time. -/
def argumentFlags : List Flag := [
  { long := "number", short := some 'n', value := some "INTEGER", takesNegative :=
    true, conflicts := ["text", "code"] },
  { long := "text", short := some 't', value := some "STRING", conflicts := ["code"] },
  { long := "code", value := some "SOURCE" }]

inductive Subcommand where
  | sealFile | run | save | runSaved
deriving DecidableEq

namespace Subcommand

def name : Subcommand → String
  | .sealFile => "seal"
  | .run => "run"
  | .save => "save"
  | .runSaved => "run-saved"

def all : List Subcommand := [.sealFile, .run, .save, .runSaved]

def grammar (c : Subcommand) : Grammar :=
  let flags := match c with
    | .sealFile => [
        { long := "input", short := some 'i', value := some "FILE", required := true },
        { long := "output", short := some 'o', value := some "FILE", required := true }]
    | .run => [scriptFlag, sealedFlag] ++ argumentFlags
    | .save => [nameFlag, scriptFlag, sealedFlag]
    | .runSaved => nameFlag :: argumentFlags
  { flags := flags ++ [helpFlag] }

end Subcommand

def helpName : String := "help"

def grammar : Grammar where
  flags :=
    [configurationFlag, helpFlag, { long := "version", short := some 'V', effect := .version }]
  subcommands := Subcommand.all.map Subcommand.name ++ [helpName]

def checkHelp : List String → Stop
  | [] => .help
  | name :: rest =>
    if !grammar.subcommands.contains name then .usage (.unknownSubcommand name)
    else
      match rest with
      | [] => .help
      | argument :: _ => .usage (.unknownSubcommand argument)

/-- The options of a line. -/
structure Line where
  given : List (Flag × String)
  subcommand : Subcommand
  options : List (Flag × String)

/-- Reads a line.  A fault of the subcommand comes before those of what was in
front of it. -/
def readLine (arguments : List String) : Except Stop Line := do
  let (p, rest) ← grammar.read {} arguments
  match rest with
  | none =>
    let _ ← p.settle.mapError .usage
    throw (.usage (.subcommandMissing programName))
  | some (name, rest) =>
    match Subcommand.all.find? fun c => c.name == name with
    | none => throw (checkHelp rest)
    | some c =>
      let (q, _) ← c.grammar.read {} rest
      let options ← (c.grammar.finish q).mapError .usage
      let given ← (grammar.finish p).mapError .usage
      return ⟨given, c, options⟩

def option? (options : List (Flag × String)) (long : String) : Option String :=
  (options.find? fun f => f.1.long == long).map (·.2)

def option (options : List (Flag × String)) (long : String) : String :=
  (option? options long).getD ""

/-- The argument for a script; zero if none is given. -/
def argument (options : List (Flag × String)) : Except ArgumentError Parcel :=
  match option? options "number", option? options "text", option? options "code" with
  | some text, _, _ => (Integer.read text).map Parcel.number |>.mapError (⟨text, ·⟩)
  | none, some text, _ => .ok (.text text)
  | none, none, some code => .ok (.code code)
  | none, none, none => .ok (.number 0)

def ofLine (line : Line) : Except ArgumentError Request := do
  let value := option line.options
  let isSealed := (option? line.options sealedFlag.long).isSome
  let action ← match line.subcommand with
    | .sealFile => pure (.sealFile (value "input") (value "output"))
    | .run => do pure (.run (value "script") isSealed (← argument line.options))
    | .save => pure (.save (value "name") (value "script") isSealed)
    | .runSaved => do pure (.runSaved (value "name") (← argument line.options))
  return ⟨option line.given configurationFlag.long, action⟩

end Request
end SealedLua.CommandLine
