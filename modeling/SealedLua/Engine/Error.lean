/-!
# Failures of an evaluation stack

What can go wrong when an evaluation stack is driven, and the words for it.
-/

namespace SealedLua

inductive EngineError where
  /-- No interpreter could be made. -/
  | creation (reason : String)
  /-- A chunk could not be read, or raised an error. -/
  | script (reason : String)
  | underflow (operation : String) (needed found : Nat)
  | wrongKind (expected : String)
  | capacity (size capacity : Nat)
  | unknownTag (tag : UInt64)
  | invalidText
  /-- A function of the host failed. -/
  | hostCall (name reason : String)
deriving DecidableEq, Repr

namespace EngineError

def message : EngineError → String
  | .creation reason => "EngineError: failed to create interpreter: " ++ reason ++ "."
  | .script reason => "EngineError: script error: " ++ reason ++ "."
  | .underflow operation needed found =>
    "EngineError: stack underflow in " ++ operation ++ ": needed " ++
      toString needed ++ " values, found " ++
      toString found ++ "."
  | .wrongKind expected => "EngineError: expected " ++ expected ++ " on top of the stack."
  | .capacity size limit =>
    "EngineError: text payload of " ++ toString size ++ " bytes exceeds buffer capacity " ++
      toString limit ++ "."
  | .unknownTag tag => "EngineError: unknown value tag " ++ toString tag ++ "."
  | .invalidText => "EngineError: text payload is not valid UTF-8."
  | .hostCall name reason => "EngineError: host call " ++ name ++ " failed: " ++ reason ++ "."

end EngineError
end SealedLua
