import SealedLua.Bytes.Ascii
import SealedLua.Text.Unicode

/-!
# Quoted text

The form in which messages quote a text: between double quotes, with a
backslash in front of quotes and backslashes, short escapes for some controls,
and the code in braces of all else that has no printed form of its own.  A path
is quoted in the same way but for single quotes, which are escaped as well, and
a character stands between single quotes, so that these alone are escaped.
-/

namespace SealedLua.Quoted

def byCode (c : Char) : List Char :=
  ['\\', 'u', '\x7b'] ++ (Ascii.numeral 16 c.val.toNat).map
    (fun d => Char.ofNat d.toNat) ++ ['\x7d']

/-- Which quotes are escaped. -/
structure Escaped where
  single : Bool
  double : Bool

def escape (quotes : Escaped) (c : Char) : List Char :=
  match c with
  | '\x00' => ['\\', '0']
  | '\t' => ['\\', 't']
  | '\r' => ['\\', 'r']
  | '\n' => ['\\', 'n']
  | '\\' => ['\\', '\\']
  | '"' => if quotes.double then ['\\', '"'] else ['"']
  | '\'' => if quotes.single then ['\\', '\''] else ['\'']
  | c => if Unicode.extendsGrapheme c || !Unicode.isPrintable c then byCode c else [c]

def quote (quotes : Escaped) (s : String) : String :=
  String.ofList ('"' :: (s.toList.flatMap (escape quotes)) ++ ['"'])

/-- A text as messages quote it. -/
def text (s : String) : String := quote ⟨false, true⟩ s

/-- A path as messages quote it. -/
def path (s : String) : String := quote ⟨true, true⟩ s

def char (c : Char) : String := String.ofList ('\'' :: escape ⟨true, false⟩ c ++ ['\''])

end SealedLua.Quoted
