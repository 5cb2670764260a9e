import SealedLua.Crypto.Payload
import SealedLua.Engine.Error
import SealedLua.Storage.Object

/-!
# Failures of the gateway

Everything that can go wrong with a command, the words for it, and the code
under which a caller hears of it.  Callers hear the code and its origin only.
-/

namespace SealedLua

inductive GatewayError where
  | format (size header : Nat)
  | authentication
  | crypto (operation : String)
  | badParameters (reason : String)
  | notFound (name : String)
  | storage (reason : String)
  | capacity (size limit : Nat)
  | interpreter (reason : String)
  | recursionLimit (limit : Nat)
  | badState (reason : String)
  | configuration (reason : String)
deriving DecidableEq, Repr

namespace Code

def generic : UInt32 := 0xFFFF0000
def badFormat : UInt32 := 0xFFFF0005
def badParameters : UInt32 := 0xFFFF0006
def badState : UInt32 := 0xFFFF0007
def itemNotFound : UInt32 := 0xFFFF0008
def shortBuffer : UInt32 := 0xFFFF0010
def overflow : UInt32 := 0xFFFF300F
def macInvalid : UInt32 := 0xFFFF3071
def storageNotAvailable : UInt32 := 0xF0100003
def scriptFailed : UInt32 := 0x80000001
def badConfiguration : UInt32 := 0x80000002

end Code

/-- Where a failure was noticed. -/
inductive Origin where
  | api | communication | tee | trustedApp
deriving DecidableEq, Repr

namespace Origin

def number : Origin → Nat
  | .api => 1
  | .communication => 2
  | .tee => 3
  | .trustedApp => 4

def name : Origin → String
  | .api => "Api"
  | .communication => "Communication"
  | .tee => "Tee"
  | .trustedApp => "TrustedApp"

end Origin

/-- What a caller hears of a failure. -/
structure ErrorCode where
  code : UInt32
  origin : Origin
deriving DecidableEq, Repr

namespace ErrorCode

def hexadecimal (code : UInt32) : String :=
  let digits := Ascii.numeral 16 code.toNat
  "0x" ++ Ascii.text (List.replicate (8 - digits.length) 48 ++ digits.map Ascii.toUpper)

def display (e : ErrorCode) : String := hexadecimal e.code ++ " (origin " ++ e.origin.name ++ ")"

end ErrorCode

namespace GatewayError

def message : GatewayError → String
  | .format size header =>
    "RuntimeManager: payload of " ++ toString size ++ " bytes is shorter than the " ++
      toString header ++
      "-byte header."
  | .authentication => "RuntimeManager: payload authentication failed."
  | .crypto operation => "RuntimeManager: crypto backend failure: " ++ operation ++ "."
  | .badParameters reason => "RuntimeManager: bad parameters: " ++ reason ++ "."
  | .notFound name => "RuntimeManager: no script named " ++ Quoted.text name ++ "."
  | .storage reason => "RuntimeManager: storage failure: " ++ reason ++ "."
  | .capacity size limit =>
    "RuntimeManager: text payload of " ++ toString size ++ " bytes exceeds buffer capacity " ++
      toString limit ++ "."
  | .interpreter reason => "RuntimeManager: interpreter failure: " ++ reason ++ "."
  | .recursionLimit limit => "RuntimeManager: nested call depth exceeds the limit of " ++
    toString limit ++ "."
  | .badState reason => "RuntimeManager: bad state: " ++ reason ++ "."
  | .configuration reason => "RuntimeManager: configuration error: " ++ reason ++ "."

def code : GatewayError → UInt32
  | .format _ _ => Code.badFormat
  | .authentication => Code.macInvalid
  | .crypto _ => Code.generic
  | .badParameters _ => Code.badParameters
  | .notFound _ => Code.itemNotFound
  | .storage _ => Code.storageNotAvailable
  | .capacity _ _ => Code.shortBuffer
  | .interpreter _ => Code.scriptFailed
  | .recursionLimit _ => Code.overflow
  | .badState _ => Code.badState
  | .configuration _ => Code.badConfiguration

def withOrigin (e : GatewayError) (origin : Origin) : ErrorCode := ⟨e.code, origin⟩

def ofCrypto (e : CryptoError) : GatewayError :=
  match e with
  | .format size header => .format size header
  | .authentication => .authentication
  | .backend operation => .crypto operation
  | .keyLength _ _ => .configuration e.message

def ofStore (e : StoreError) : GatewayError :=
  match e with
  | .notFound name => .notFound name
  | .invalidName reason => .badParameters reason
  | .files _ | .lock _ | .backend _ => .storage e.message

def ofEngine (e : EngineError) : GatewayError :=
  match e with
  | .capacity size limit => .capacity size limit
  | .unknownTag _ | .invalidText => .badParameters e.message
  | _ => .interpreter e.message

end GatewayError
end SealedLua
