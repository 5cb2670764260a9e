import SealedLua.Lua.Native
import SealedLua.Lua.Parser

/-!
# The basic functions

Functions of the globals.
-/

namespace SealedLua.Lua

/-- Makes a function of a chunk whose name is shown as `name` in messages; its
outer variable holds an environment. -/
def Heap.loadChunk (h : Heap) (source name : ByteArray) (environment : Value) :
    Except ChunkError Value × Heap :=
  match Chunk.read source with
  | .error e => (.error e, h)
  | .ok f =>
    let (cell, h) := h.newCell environment
    let (id, h) := h.newClosure ⟨f, [cell], name⟩
    (.ok (.closure id), h)

namespace Base

open Native

/-- Raises a value; a string gets the place of the caller at a level in front of it. -/
def raiseAt {α : Type} (v : Value) (level : Int64) : Native α := do
  match v with
  | .string s =>
    if 0 < level then
      let p ← place level.toInt.toNat
      Action.raise (.string (p ++ s))
    else Action.raise v
  | _ => Action.raise v

def assert (args : List Value) : Native (List Value) := do
  if (← anyArg args 1).truthy then return args
  else raiseAt ((given args 2).getD (.ofAscii "assertion failed!")) 1

def error (args : List Value) : Native (List Value) := do
  let level ← integerArgOr args 2 1
  raiseAt (arg args 1) level

def wordArg (args : List Value) (number : Nat) : Native Int := do
  return (← integerArgOr args number 0).toInt32.toInt

/-- Changes the collector and gives something of how it was. -/
def ofCollector (f : Collector → Value × Collector) : Native Value :=
  Action.modifyGet fun h => let (v, c) := f h.collector; (v, { h with collector := c })

/-- A parameter of the collector as scripts set it and as it is kept. -/
def quarters (n : Int) : UInt8 := UInt8.ofNat ((n.tdiv 4) % 256).toNat

def ofQuarters (n : UInt8) : Value := .ofNat (4 * n.toNat)

def modeName (c : Collector) : Value :=
  .ofAscii (if c.generational then "generational" else "incremental")

/-- What a function for the collector may be asked for. -/
inductive CollectorOption where
  | stop | restart | collect | count | step | setPause | setStepMultiplier | isRunning
  | generational | incremental
deriving DecidableEq

namespace CollectorOption

def names : List (String × CollectorOption) :=
  [("stop", .stop), ("restart", .restart), ("collect", .collect),
    ("count", .count), ("step", .step),
    ("setpause", .setPause), ("setstepmul", .setStepMultiplier), ("isrunning", .isRunning),
    ("generational", .generational), ("incremental", .incremental)]

def parameters : CollectorOption → Nat
  | .stop | .restart | .collect | .count | .isRunning => 0
  | .step | .setPause | .setStepMultiplier => 1
  | .generational => 2
  | .incremental => 3

/-- A step ends a cycle or does not, as the circumstances have it. -/
def performStep : Native Value := do
  let h ← Action.get
  if h.circumstances.completes h.collector then
    Collector.collect []
    return .boolean true
  else ofCollector fun c => (.boolean false, { c with moment := c.moment + 1 })

/-- Enters the mode for generations, which begins with a cycle. -/
def enterGenerations : Native Value := do
  let mode ← ofCollector fun c => (modeName c, { c with generational := true })
  if mode == Value.ofAscii "incremental" then Collector.collect []
  return mode

def perform (first second third : Int) : CollectorOption → Native Value
  | .stop => ofCollector fun c => (.integer 0, { c with running := false })
  | .restart => ofCollector fun c => (.integer 0, { c with running := true, due := true })
  | .collect => do
    Collector.collect []
    return .integer 0
  | .count => do
    let h ← Action.get
    ofCollector fun c =>
      (.double (h.circumstances.memory c.moment), { c with moment := c.moment + 1 })
  | .step => performStep
  | .setPause => ofCollector fun c => (ofQuarters c.pause, { c with pause := quarters first })
  | .setStepMultiplier => ofCollector fun c =>
    (ofQuarters c.stepMultiplier, { c with stepMultiplier := quarters first })
  | .isRunning => ofCollector fun c => (.boolean c.running, c)
  | .generational => enterGenerations
  | .incremental => ofCollector fun c => (modeName c,
      { c with
        generational := false
        pause := if first = 0 then c.pause else quarters first
        stepMultiplier := if second = 0 then c.stepMultiplier else quarters second
        stepSize := if third = 0 then c.stepSize else UInt8.ofNat (third % 256).toNat })

end CollectorOption

/-- Controls the collector.  While a finalizer runs there is no answer. -/
def collectgarbage (args : List Value) : Native (List Value) := do
  let name ← stringArgOr args 1 (bytes (ascii "collect"))
  match CollectorOption.names.find? fun o => bytes (ascii o.1) == name with
  | some (_, option) =>
    let word := fun number =>
      if number ≤ option.parameters then wordArg args (number + 1) else pure 0
    let first ← word 1
    let second ← word 2
    let third ← word 3
    if (← Action.gets (·.collector.finalizing)) then return [.nil]
    else return [← option.perform first second third]
  | none => badArgument 1 (bytes (ascii "invalid option '") ++ name ++ bytes (ascii "'"))

def protectedField (h : Heap) (v : Value) : Value := h.metamethod v (eventKey "metatable")

def getmetatable (args : List Value) : Native (List Value) := do
  let v ← anyArg args 1
  let h ← Action.get
  match v with
  | .failure _ => return [.boolean false]
  | _ =>
    match h.metatableOf v with
    | none => return [.nil]
    | some id =>
      let shown := protectedField h v
      return [if shown.isNil then .table id else shown]

/-- Gives a table a metatable, or takes it away, unless the one that it has protects it. -/
def changeMetatable (id : TableId) (metatable : Option TableId) : Native (List Value) := do
  let shown ← Action.gets (protectedField · (.table id))
  if !shown.isNil then failText "cannot change a protected metatable"
  Action.modify (·.setMetatable id metatable)
  Action.modify (·.mark id metatable)
  return [.table id]

def setmetatable (args : List Value) : Native (List Value) := do
  let id ← tableArg args 1
  match given args 2 with
  | some .nil => changeMetatable id none
  | some (.table m) => changeMetatable id (some m)
  | _ => wrongType args 2 "nil or table"

def ipairs (args : List Value) : Native (List Value) := do
  let v ← anyArg args 1
  return [.builtin .ipairsNext, v, .integer 0]

def ipairsNext (args : List Value) : Native (List Value) := do
  let n := (← integerArg args 2) + 1
  let v ← lookup (arg args 1) (.integer n)
  return if v.isNil then [.nil] else [.integer n, v]

def next (args : List Value) : Native (List Value) := do
  let id ← tableArg args 1
  match ← Action.gets (·.entryAfter? id (arg args 2)) with
  | none => Action.raise (.ofAscii "invalid key to 'next'")
  | some (some (k, v)) => return [k, v]
  | some none => return [.nil]

def pairs (args : List Value) : Native (List Value) := do
  let v ← anyArg args 1
  let f ← Action.gets (·.metamethod v (eventKey "pairs"))
  if f.isNil then return [.builtin .next, v, .nil]
  else return adjust 3 (← call f [v])

/-- What a protected call returns. -/
def outcome : Except Value (List Value) → List Value
  | .ok values => .boolean true :: values
  | .error e => [.boolean false, e]

def pcall (args : List Value) : Native (List Value) := do
  let f ← anyArg args 1
  return outcome (← Action.protect f (args.drop 1) Site.native none)

/-- A protected call with a handler, which must be a function. -/
def xpcall (args : List Value) : Native (List Value) := do
  let handler := arg args 2
  if !handler.isFunction then wrongType args 2 "function"
  return outcome (← Action.protect (arg args 1) (args.drop 2) Site.native (some handler))

def printEach (before : ByteArray) : List Value → Native Unit
  | [] => pure ()
  | v :: rest => do
    let text ← display v
    Action.modify (·.print (before ++ text))
    printEach (bytes [9]) rest

def print (args : List Value) : Native (List Value) := do
  printEach (bytes []) args
  Action.modify (·.print (bytes [10]))
  return []

def warn (args : List Value) : Native (List Value) := do
  let _ ← stringArg args 1
  (List.range args.length).forM fun i => do
    let _ ← stringArg args (i + 1)
  return []

def rawequal (args : List Value) : Native (List Value) := do
  let a ← anyArg args 1
  let b ← anyArg args 2
  return [.boolean (a.rawEq b)]

def rawlen (args : List Value) : Native (List Value) := do
  let h ← Action.get
  match given args 1 with
  | some (.table id) => return [.integer (Int64.ofNat (h.table id).length)]
  | some (.string s) => return [.integer (Int64.ofNat s.size)]
  | _ => wrongType args 1 "table or string"

def rawget (args : List Value) : Native (List Value) := do
  let id ← tableArg args 1
  let k ← anyArg args 2
  let h ← Action.get
  return [h.get id k]

def rawset (args : List Value) : Native (List Value) := do
  let id ← tableArg args 1
  let k ← anyArg args 2
  let v ← anyArg args 3
  store none id k v
  return [.table id]

def select (args : List Value) : Native (List Value) := do
  let rest := args.drop 1
  let counted := match arg args 1 with
    | .string s => s.data[0]? == some 35
    | _ => false
  if counted then return [.integer (Int64.ofNat rest.length)]
  else
    let n := (← integerArg args 1).toInt
    let total : Int := args.length
    let i := if n < 0 then total + n else if n > total then total else n
    if i < 1 then badArgumentText 1 "index out of range" else return args.drop i.toNat

/-- Reads an integer of a base that fills a text up to white space; it wraps. -/
def readInBase (base : Nat) (text : List UInt8) : Option Int64 :=
  let (negative, body) := match text.dropWhile Ascii.isSpace with
    | 45 :: rest => (true, rest)
    | 43 :: rest => (false, rest)
    | rest => (false, rest)
  let digits := body.takeWhile Ascii.isAlnum
  let values := digits.map fun c => if Ascii.isDigit c then c.toNat - 48
    else (Ascii.toLower c).toNat - 87
  let rest := body.dropWhile Ascii.isAlnum
  if digits.isEmpty || values.any (base ≤ ·) || !rest.all Ascii.isSpace then none
  else
    let n : Int := Ascii.value base values
    some (Int64.ofInt (if negative then -n else n))

def tonumber (args : List Value) : Native (List Value) := do
  if absent args 2 then
    match arg args 1 with
    | .integer n => return [.integer n]
    | .double x => return [.double x]
    | .string s => return [((Number.read? (codes s)).map Value.ofNumber).getD .nil]
    | _ =>
      let _ ← anyArg args 1
      return [.nil]
  else
    let base ← integerArg args 2
    match given args 1 with
    | some (.string s) =>
      if base < 2 || 36 < base then badArgumentText 2 "base out of range"
      else return [((readInBase base.toInt.toNat (codes s)).map Value.integer).getD .nil]
    | _ => wrongType args 1 "string"

def tostring (args : List Value) : Native (List Value) := do
  let v ← anyArg args 1
  return [.string (← display v)]

/-- What is shown of an error that nothing caught: a failure of the host as it
is, and the text of all other values. -/
def errorText (args : List Value) : Native (List Value) := do
  match arg args 1 with
  | .failure f => return [.failure f]
  | v => return [.string (← display v)]

def type (args : List Value) : Native (List Value) := do
  let v ← anyArg args 1
  return [.ofAscii v.typeName]

def untilZero (s : ByteArray) : ByteArray := bytes ((codes s).takeWhile (· != 0))

/-- Makes a function of a chunk's text, with the globals or another value as
its outer variable; an unreadable text gives `nil` and a message. -/
def compile (source name mode : ByteArray) (environment : Option Value) : Native (List Value) := do
  let shown := Chunk.shownName (untilZero name)
  let refused := fun (message : ByteArray) => ([.nil, .string message] : List Value)
  let binary := source.data[0]? == some 27
  let allowed := (codes mode).contains (if binary then 98 else 116)
  if !allowed then
    return refused
      (bytes (ascii ("attempt to load a " ++ (if binary then "binary" else "text") ++
      " chunk (mode is '")) ++
      mode ++ bytes (ascii "')"))
  else
    let made ← Action.modifyGet (·.loadChunk source shown (environment.getD (.table Heap.globals)))
    match made with
    | .error e => return refused (e.message shown)
    | .ok f => return [f]

def pieceLimit : Nat := 2 ^ 40

/-- Calls a function for the pieces of a chunk until it gives none. -/
def gather (f : Value) : Nat → ByteArray → Native (Except Value ByteArray)
  | 0, text => return .ok text
  | n + 1, text => do
    match ← Action.protect f [] Site.native none with
    | .error e => return .error e
    | .ok values =>
      match values.headD .nil with
      | .nil => return .ok text
      | v =>
        match v.text? with
        | none => return .error (.ofAscii "reader function must return a string")
        | some piece => if piece.size = 0 then return .ok text else gather f n (text ++ piece)

def load (args : List Value) : Native (List Value) := do
  let environment := given args 4
  let mode ← stringArgOr args 3 (bytes (ascii "bt"))
  match (arg args 1).text? with
  | some source =>
    let name ← stringArgOr args 2 source
    compile source name mode environment
  | none =>
    let name ← stringArgOr args 2 (bytes (ascii "=(load)"))
    let f := arg args 1
    if !f.isFunction then wrongType args 1 "function"
    match ← gather f pieceLimit (bytes []) with
    | .error e => return [.nil, e]
    | .ok source => compile source name mode environment

end Base
end SealedLua.Lua
