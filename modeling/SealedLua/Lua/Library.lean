import SealedLua.Lua.Library.Base
import SealedLua.Lua.Library.Layout
import SealedLua.Lua.Library.Math
import SealedLua.Lua.Library.Tables
import SealedLua.Lua.Library.Text
import SealedLua.Lua.Library.Utf8

/-!
# The built-in functions and the state they start in

What each built-in function does, under which name each library holds it, and
the heap of an interpreter before any script has run: the globals, the
libraries, and the metatable of strings, whose operators convert strings that
spell numbers.
-/

namespace SealedLua.Lua

open Native

namespace Builtin

/-- What a built-in function does with its arguments.  There are no files, and
a function cannot be turned back into text. -/
def run : Builtin → List Value → Native (List Value)
  | .errorText => Base.errorText
  | .assert => Base.assert
  | .collectgarbage => Base.collectgarbage
  | .dofile | .loadfile => fun _ => failText "cannot open file"
  | .error => Base.error
  | .getmetatable => Base.getmetatable
  | .ipairs => Base.ipairs
  | .ipairsNext => Base.ipairsNext
  | .load => Base.load
  | .next => Base.next
  | .pairs => Base.pairs
  | .pcall => Base.pcall
  | .print => Base.print
  | .rawequal => Base.rawequal
  | .rawget => Base.rawget
  | .rawlen => Base.rawlen
  | .rawset => Base.rawset
  | .select => Base.select
  | .setmetatable => Base.setmetatable
  | .tonumber => Base.tonumber
  | .tostring => Base.tostring
  | .type => Base.type
  | .warn => Base.warn
  | .xpcall => Base.xpcall
  | .stringByte => Text.byte
  | .stringChar => Text.char
  | .stringDump => fun _ => failText "unable to dump given function"
  | .stringFind => Text.search true
  | .stringFormat => Format.format
  | .stringGmatch => Text.gmatch
  | .stringGsub => Text.gsub
  | .stringLen => Text.len
  | .stringLower => Text.mapped Ascii.toLower
  | .stringMatch => Text.search false
  | .stringPack => Layout.pack
  | .stringPacksize => Layout.packsize
  | .stringRep => Text.rep
  | .stringReverse => Text.reverse
  | .stringSub => Text.sub
  | .stringUnpack => Layout.unpack
  | .stringUpper => Text.mapped Ascii.toUpper
  | .stringArith op => Text.arithmetic op
  | .stringNegate => Text.negation
  | .tableConcat => Tables.concat
  | .tableInsert => Tables.insert
  | .tableMove => Tables.move
  | .tablePack => Tables.pack
  | .tableRemove => Tables.remove
  | .tableSort => Tables.sort
  | .tableUnpack => Tables.unpack
  | .mathAbs => Math.abs
  | .mathAcos => Math.unary (Double.viaFloat Float.acos)
  | .mathAsin => Math.unary (Double.viaFloat Float.asin)
  | .mathAtan => Math.atan
  | .mathCeil => Math.rounded Double.ceil
  | .mathCos => Math.unary (Double.viaFloat Float.cos)
  | .mathCosh => Math.unary (Double.viaFloat Float.cosh)
  | .mathDeg => Math.unary fun x => x.mul ((Double.ofInt 180).div Math.pi)
  | .mathExp => Math.unary (Double.viaFloat Float.exp)
  | .mathFloor => Math.rounded Double.floor
  | .mathFmod => Math.fmod
  | .mathFrexp => Math.frexp
  | .mathLdexp => Math.ldexp
  | .mathLog => Math.log
  | .mathLog10 => Math.unary (Double.viaFloat Float.log10)
  | .mathMax => Math.extremum fun best v => lessThan none best v
  | .mathMin => Math.extremum fun best v => lessThan none v best
  | .mathModf => Math.modf
  | .mathPow => Math.pow
  | .mathRad => Math.unary fun x => x.mul (Math.pi.div (Double.ofInt 180))
  | .mathRandom => Math.random
  | .mathRandomseed => Math.randomseed
  | .mathSin => Math.unary (Double.viaFloat Float.sin)
  | .mathSinh => Math.unary (Double.viaFloat Float.sinh)
  | .mathSqrt => Math.unary (Double.viaFloat Float.sqrt)
  | .mathTan => Math.unary (Double.viaFloat Float.tan)
  | .mathTanh => Math.unary (Double.viaFloat Float.tanh)
  | .mathTointeger => Math.tointeger
  | .mathType => Math.type
  | .mathUlt => Math.ult
  | .utf8Char => Utf8.char
  | .utf8Codepoint => Utf8.codepoint
  | .utf8Codes => Utf8.codepoints
  | .utf8CodesNext lax => Utf8.codesNext lax
  | .utf8Len => Utf8.len
  | .utf8Offset => Utf8.offset

end Builtin

namespace Library

def tableOf (entries : List (String × Value)) : Table :=
  entries.foldl (fun t (name, v) => t.set (.ofAscii name) v) .empty

def functions (entries : List (String × Builtin)) : List (String × Value) :=
  entries.map fun (name, b) => (name, .builtin b)

def basic : List (String × Value) :=
  functions [("assert", .assert), ("collectgarbage", .collectgarbage),
    ("dofile", .dofile), ("error", .error),
    ("getmetatable", .getmetatable), ("ipairs", .ipairs), ("loadfile", .loadfile),
    ("load", .load), ("next", .next),
    ("pairs", .pairs), ("pcall", .pcall), ("print", .print), ("warn", .warn),
    ("rawequal", .rawequal),
    ("rawlen", .rawlen), ("rawget", .rawget), ("rawset", .rawset), ("select", .select),
    ("setmetatable", .setmetatable), ("tonumber", .tonumber), ("tostring", .tostring),
    ("type", .type), ("xpcall", .xpcall)] ++
  [("_G", .table Heap.globals), ("_VERSION", .ofAscii "Lua 5.4"),
    ("string", .table Heap.stringLibrary),
    ("table", .table Heap.tableLibrary), ("math", .table Heap.mathLibrary),
    ("utf8", .table Heap.utf8Library)]

def strings : List (String × Value) :=
  functions [("byte", .stringByte), ("char", .stringChar),
    ("dump", .stringDump), ("find", .stringFind),
    ("format", .stringFormat), ("gmatch", .stringGmatch),
    ("gsub", .stringGsub), ("len", .stringLen),
    ("lower", .stringLower), ("match", .stringMatch), ("rep", .stringRep),
    ("reverse", .stringReverse),
    ("sub", .stringSub), ("upper", .stringUpper), ("pack", .stringPack),
    ("packsize", .stringPacksize), ("unpack", .stringUnpack)]

def tables : List (String × Value) :=
  functions [("concat", .tableConcat), ("insert", .tableInsert), ("pack", .tablePack),
    ("unpack", .tableUnpack),
    ("remove", .tableRemove), ("move", .tableMove), ("sort", .tableSort)]

def mathematics : List (String × Value) :=
  functions [("abs", .mathAbs), ("ceil", .mathCeil), ("floor", .mathFloor),
    ("max", .mathMax), ("min", .mathMin),
    ("fmod", .mathFmod), ("modf", .mathModf), ("tointeger", .mathTointeger),
    ("type", .mathType), ("ult", .mathUlt),
    ("log", .mathLog), ("exp", .mathExp), ("sqrt", .mathSqrt), ("sin", .mathSin), ("cos", .mathCos),
    ("tan", .mathTan), ("asin", .mathAsin), ("acos", .mathAcos),
    ("atan", .mathAtan), ("deg", .mathDeg),
    ("rad", .mathRad), ("cosh", .mathCosh), ("sinh", .mathSinh),
    ("tanh", .mathTanh), ("pow", .mathPow),
    ("frexp", .mathFrexp), ("ldexp", .mathLdexp), ("log10", .mathLog10), ("random", .mathRandom),
    ("randomseed", .mathRandomseed)] ++
  [("pi", .double Math.pi), ("huge", .double (.infinity false)),
    ("maxinteger", .integer Int64.maxValue),
    ("mininteger", .integer Int64.minValue)]

def charPattern : Value :=
  .string
    (bytes (ascii "[" ++ [0] ++ ascii "-" ++ [0x7F, 0xC2] ++ ascii "-" ++
    [0xFD] ++ ascii "][" ++ [0x80] ++
    ascii "-" ++ [0xBF] ++ ascii "]*"))

def utf8 : List (String × Value) :=
  functions [("offset", .utf8Offset), ("codepoint", .utf8Codepoint),
    ("char", .utf8Char), ("len", .utf8Len),
    ("codes", .utf8Codes)] ++ [("charpattern", charPattern)]

def stringMetatable : List (String × Value) :=
  functions ([ArithOp.add, .sub, .mul, .mod, .pow, .div, .idiv].map fun op =>
    ("__" ++ op.event, .stringArith op)) ++
  [("__unm", .builtin .stringNegate), ("__index", .table Heap.stringLibrary)]

def initialHeap : Heap :=
  { tables := #[tableOf basic, tableOf strings, tableOf tables, tableOf mathematics, tableOf utf8,
      tableOf stringMetatable] }

end Library
end SealedLua.Lua
