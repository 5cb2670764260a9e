import SealedLua.CommandLine.Request
import SealedLua.Files.Tree
import SealedLua.Gateway.Command

/-!
# Failures of the program

Why a request was not carried out.  A failure is told in a sentence, some with
their cause below it.
-/

namespace SealedLua.CommandLine

/-- Why a file is of no use as text. -/
inductive TextFault where
  | files (failure : FileFailure)
  | notUtf8
deriving DecidableEq, Repr

namespace TextFault

def text : TextFault → String
  | .files failure => failure.text
  | .notUtf8 => "stream did not contain valid UTF-8"

end TextFault

inductive Failure where
  | argument (e : ArgumentError)
  | configuration (path : String) (fault : TextFault)
  | read (path : String) (failure : FileFailure)
  | write (path : String) (failure : FileFailure)
  | crypto (e : CryptoError)
  | gateway (e : GatewayError)
  /-- An argument for a script that does not go into slots. -/
  | unfit (e : EngineError)
  | opening (code : ErrorCode)
  | closing (code : ErrorCode)
  | command (c : Command) (code : ErrorCode)
  /-- Slots that hold no parcel after a command. -/
  | malformed (e : EngineError)
deriving DecidableEq

namespace Failure

def message : Failure → String
  | .argument e => "invalid number argument " ++ Quoted.text e.text
  | .configuration path _ => "failed to read configuration " ++ Quoted.path path
  | .read path _ => "failed to read " ++ Quoted.path path
  | .write path _ => "failed to write " ++ Quoted.path path
  | .crypto e => e.message
  | .gateway e => e.message
  | .unfit e => "argument does not fit the boundary: " ++ e.message
  | .opening code => "failed to open session: " ++ code.display
  | .closing code => "failed to close session: " ++ code.display
  | .command c code => c.name ++ " failed: " ++ code.display
  | .malformed e => "malformed result slots: " ++ e.message

def cause : Failure → Option String
  | .argument e => some e.fault.message
  | .configuration _ fault => some fault.text
  | .read _ failure | .write _ failure => some failure.text
  | _ => none

def report (f : Failure) : String :=
  "Error: " ++ f.message ++
    match f.cause with
    | some cause => "\n\nCaused by:\n    " ++ cause
    | none => ""

end Failure
end SealedLua.CommandLine
