import SealedLua.Lua.Evaluate
import SealedLua.Lua.Library

/-!
# The machine

The machine answers what running functions wait for.  Its state is a stack of
frames, each the rest of a computation, and what is being done on top of them;
`Machine.next` makes one move, and no move calls a function of the machine
again, so the stack of the machine is the only stack that grows with a script.

A function of the host is not run here.  The machine stops, and goes on when it
is told how the call ended.

An error looks for the nearest guard.  If the guard has a handler, the handler
is called where the error happened; then frames are taken off, and values that
have to be closed are closed, until the guard is on top.
-/

namespace SealedLua.Lua

inductive Frame where
  /-- A call whose results are waited for. -/
  | call (site : Site) (k : List Value → Heap → Step Flow)
  /-- A protected call. -/
  | guard (site : Site) (handler : Option Value) (k : Except Value (List Value) → Heap → Step Flow)
  /-- A task, and the value that is closed when it ends. -/
  | task (closing : Option (Value × Position)) (k : Flow → Heap → Step Flow)
  /-- A value is being closed because of an error. -/
  | closing (error : Value)
  /-- A handler is running; its answer takes the place of the error. -/
  | handler

namespace Site

/-- Whether a call is made by a built-in function or an operator. -/
def nested (site : Site) : Bool :=
  match site.position, site.naming with
  | some _, some ⟨.metamethod, _⟩ | some _, some ⟨.iterator, _⟩ => true
  | some _, _ => false
  | none, _ => true

end Site

/-- How deep calls are: calls between functions of scripts, of which the stack
holds `limit`, and calls that built-in functions and operators make. -/
structure Depth where
  limit : Nat
  calls : Nat
  nested : Nat

namespace Depth

/-- Where nothing has been called. -/
def outermost (limit : Nat) : Depth := ⟨limit, 0, 0⟩

def nestedLimit : Nat := 200

def enter (d : Depth) (site : Site) : Depth :=
  if site.nested then { d with nested := d.nested + 1 } else { d with calls := d.calls + 1 }

def leave (d : Depth) (site : Site) : Depth :=
  if site.nested then { d with nested := d.nested - 1 } else { d with calls := d.calls - 1 }

def excess? (d : Depth) : Option String :=
  if nestedLimit ≤ d.nested then some "C stack overflow"
  else if d.limit ≤ d.calls then some "stack overflow"
  else none

end Depth

/-- What is being done on top of the frames. -/
inductive Control where
  | step (step : Step Flow)
  | invoke (request : Call) (heap : Heap)
  | unwind (error : Value) (heap : Heap)

structure Machine where
  frames : List Frame
  depth : Depth
  control : Control

/-- A call of a function of the host that the machine waits for. -/
structure HostCall where
  host : HostId
  args : List Value
  heap : Heap
  frames : List Frame
  depth : Depth

/-- What comes of a move. -/
inductive Progress where
  | more (machine : Machine)
  | finished (values : List Value) (heap : Heap)
  | raised (error : Value) (heap : Heap)
  | waits (call : HostCall)

/-- How many handlers may run because of errors in handlers. -/
def handlerLimit : Nat := 100

namespace Machine

/-- The place of the caller at a level. -/
def caller : List Frame → Nat → Option Position
  | [], _ => none
  | .task _ _ :: rest, level => caller rest level
  | .call site _ :: rest, level | .guard site _ _ :: rest, level =>
    if level ≤ 1 then site.position else caller rest (level - 1)
  | .closing _ :: rest, level | .handler :: rest, level =>
    if level ≤ 1 then none else caller rest (level - 1)

/-- The handler of the nearest guard, and how many handlers are running under that guard. -/
def handler? : List Frame → Nat → Option (Value × Nat)
  | [], _ => none
  | .guard _ handler _ :: _, running => handler.map (·, running)
  | .handler :: rest, running => handler? rest (running + 1)
  | _ :: rest, running => handler? rest running

/-- Waits for a call on top of some frames, unless they are too deep. -/
def wait (frames : List Frame) (depth : Depth) (frame : Frame) (request : Call)
    (heap : Heap) : Machine :=
  let inner := depth.enter request.site
  match inner.excess? with
  | some message =>
    ⟨frames, depth, .step (Action.fail request.site.position (bytes (ascii message)) heap)⟩
  | none => ⟨frame :: frames, inner, .invoke request heap⟩

def close (frames : List Frame) (depth : Depth) (frame : Frame) (value error : Value)
    (position : Option Position) (heap : Heap) : Machine :=
  let site : Site := ⟨position, some ⟨.metamethod, bytes (ascii "close")⟩⟩
  wait frames depth frame ⟨heap.metamethod value (eventKey "close"), [value, error], site⟩ heap

def results : Flow → List Value
  | .ret values => values
  | _ => []

def deliver (frames : List Frame) (depth : Depth) (flow : Flow) (heap : Heap) : Progress :=
  match flow, frames with
  | .again t, .task _ _ :: _ => .more ⟨frames, depth, .step (t.step heap)⟩
  | flow, .task none k :: rest => .more ⟨rest, depth, .step (k flow heap)⟩
  | flow, .task (some (v, position)) k :: rest =>
    let site : Site := ⟨some position, some ⟨.metamethod, bytes (ascii "close")⟩⟩
    .more (close rest depth (.call site fun _ h => k flow h) v .nil (some position) heap)
  | .tail request, frames =>
    match request.callee with
    | .closure _ => .more ⟨frames, depth, .invoke request heap⟩
    | _ => .more (wait frames depth (.call request.site fun vs h => .done (.ret vs) h) request heap)
  | flow, .call site k :: rest => .more ⟨rest, depth.leave site, .step (k (results flow) heap)⟩
  | flow, .guard site _ k :: rest =>
    .more ⟨rest, depth.leave site, .step (k (.ok (results flow)) heap)⟩
  | _, .closing error :: rest => .more ⟨rest, depth.leave Site.native, .unwind error heap⟩
  | flow, .handler :: rest =>
    .more ⟨rest, depth.leave Site.native, .unwind ((results flow).headD .nil) heap⟩
  | flow, [] => .finished (results flow) heap

/-- Starts on an error: calls the handler of the nearest guard, if it has one. -/
def raise (frames : List Frame) (depth : Depth) (error : Value) (heap : Heap) : Machine :=
  match handler? frames 0 with
  | none => ⟨frames, depth, .unwind error heap⟩
  | some (f, running) =>
    if handlerLimit ≤ running then
      ⟨frames, depth, .unwind (.ofAscii "error in error handling") heap⟩
    else ⟨.handler :: frames, depth.enter Site.native, .invoke ⟨f, [error], Site.native⟩ heap⟩

/-- Takes one frame off because of an error. -/
def unwind (frames : List Frame) (depth : Depth) (error : Value) (heap : Heap) : Progress :=
  match frames with
  | [] => .raised error heap
  | .call site _ :: rest => .more ⟨rest, depth.leave site, .unwind error heap⟩
  | .guard site _ k :: rest => .more ⟨rest, depth.leave site, .step (k (.error error) heap)⟩
  | .task none _ :: rest => .more ⟨rest, depth, .unwind error heap⟩
  | .task (some (v, _)) _ :: rest => .more (close rest depth (.closing error) v error none heap)
  | .closing _ :: rest | .handler :: rest =>
    .more ⟨rest, depth.leave Site.native, .unwind error heap⟩

/-- Runs a built-in function up to where it waits. -/
def native (frames : List Frame) (request : Call) (f : Native (List Value))
    (heap : Heap) : Step Flow :=
  (f ⟨request.site.naming, request.callee, caller frames⟩ heap).bind fun vs h => .done (.ret vs) h

/-- Enters a function.  A value that is no function is called through its metamethod. -/
def invoke (frames : List Frame) (depth : Depth) (request : Call) (heap : Heap) : Progress :=
  match request.callee with
  | .closure id => .more ⟨frames, depth, .step ((heap.closure id).enter request.args heap)⟩
  | .builtin b => .more ⟨frames, depth, .step (native frames request (b.run request.args) heap)⟩
  | .matcher id => .more ⟨frames, depth, .step (native frames request (Text.iterate id) heap)⟩
  | .host id => .waits ⟨id, request.args, heap, frames, depth⟩
  | callee =>
    let f := heap.metamethod callee (eventKey "call")
    if f.isNil then
      .more ⟨frames, depth,
        .step (typeError request.site.position "call" callee request.site.naming heap)⟩
    else .more ⟨frames, depth, .invoke ⟨f, callee :: request.args, request.site⟩ heap⟩

def next (m : Machine) : Progress :=
  match m with
  | ⟨frames, depth, .step (.done flow heap)⟩ => deliver frames depth flow heap
  | ⟨frames, depth, .step (.raise error heap)⟩ => .more (raise frames depth error heap)
  | ⟨frames, depth, .step (.call request heap k)⟩ =>
    .more (wait frames depth (.call request.site k) request heap)
  | ⟨frames, depth, .step (.protect request handler heap k)⟩ =>
    .more (wait frames depth (.guard request.site handler k) request heap)
  | ⟨frames, depth, .step (.run task heap k)⟩ =>
    .more ⟨.task task.closing? k :: frames, depth, .step (task.step heap)⟩
  | ⟨frames, depth, .invoke request heap⟩ => invoke frames depth request heap
  | ⟨frames, depth, .unwind error heap⟩ => unwind frames depth error heap

/-- A machine that the host starts at a depth.  An error that nothing catches
becomes its text. -/
def start (outer : Depth) (step : Step Flow) : Machine :=
  let outcome := fun
    | .ok values, heap => Step.done (.ret values) heap
    | .error e, heap => Step.raise e heap
  ⟨[.guard Site.native (some (.builtin .errorText)) outcome], outer.enter Site.native, .step step⟩

/-- A machine that calls a function. -/
def ofCall (outer : Depth) (callee : Value) (args : List Value) (heap : Heap) : Machine :=
  start outer (.done (.tail ⟨callee, args, Site.native⟩) heap)

def ofAction (outer : Depth) (action : Action Unit) (heap : Heap) : Machine :=
  start outer ((action heap).bind fun _ h => .done (.ret []) h)

end Machine

namespace HostCall

/-- The machine goes on with the results of the function, or with its error. -/
def resume (c : HostCall) : Except Value (List Value) → Heap → Machine
  | .ok values, heap => ⟨c.frames, c.depth, .step (.done (.ret values) heap)⟩
  | .error e, heap => ⟨c.frames, c.depth, .step (.raise e heap)⟩

end HostCall
end SealedLua.Lua
