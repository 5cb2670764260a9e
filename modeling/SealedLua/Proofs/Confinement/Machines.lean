import SealedLua.Lua.Machine
import SealedLua.Proofs.Confinement.BasicFunctions
import SealedLua.Proofs.Confinement.Evaluation
import SealedLua.Proofs.Confinement.FormatFunctions
import SealedLua.Proofs.Confinement.NumberFunctions
import SealedLua.Proofs.Confinement.StringFunctions
import SealedLua.Proofs.Confinement.TableFunctions

/-!
# Machines under a confinement

A machine keeps to a confinement if all its frames do.  Each move of such a machine
leads to another one, to values that scripts may hold, or to a function of the host
that is called with such values.  So no run gets at what is kept from scripts.
-/

namespace SealedLua.Lua.Confinement

variable {C : Confinement}

namespace SafeFunction

theorem failing (message : String) : C.SafeFunction fun _ => Native.failText message :=
  fun _ _ => .failText message

theorem run (b : Builtin) : C.SafeFunction b.run := by
  cases b with
  | errorText => exact errorText
  | tostring => exact tostring
  | stringFormat => exact stringFormat
  | assert => exact assert
  | collectgarbage => exact collectgarbage
  | dofile => exact failing _
  | loadfile => exact failing _
  | error => exact error
  | getmetatable => exact getmetatable
  | ipairs => exact ipairs
  | ipairsNext => exact ipairsNext
  | load => exact load
  | next => exact next
  | pairs => exact pairs
  | pcall => exact pcall
  | print => exact print
  | rawequal => exact rawequal
  | rawget => exact rawget
  | rawlen => exact rawlen
  | rawset => exact rawset
  | select => exact select
  | setmetatable => exact setmetatable
  | tonumber => exact tonumber
  | type => exact type
  | warn => exact warn
  | xpcall => exact xpcall
  | stringByte => exact stringByte
  | stringChar => exact stringChar
  | stringDump => exact failing _
  | stringFind => exact stringSearch true
  | stringGmatch => exact stringGmatch
  | stringGsub => exact stringGsub
  | stringLen => exact stringLen
  | stringLower => exact stringMapped _
  | stringMatch => exact stringSearch false
  | stringPack => exact stringPack
  | stringPacksize => exact stringPacksize
  | stringRep => exact stringRep
  | stringReverse => exact stringReverse
  | stringSub => exact stringSub
  | stringUnpack => exact stringUnpack
  | stringUpper => exact stringMapped _
  | stringArith op => exact stringArithmetic op
  | stringNegate => exact stringNegation
  | tableConcat => exact tableConcat
  | tableInsert => exact tableInsert
  | tableMove => exact tableMove
  | tablePack => exact tablePack
  | tableRemove => exact tableRemove
  | tableSort => exact tableSort
  | tableUnpack => exact tableUnpack
  | mathAbs => exact mathAbs
  | mathAtan => exact mathAtan
  | mathCeil => exact mathRounded _
  | mathFloor => exact mathRounded _
  | mathFmod => exact mathFmod
  | mathFrexp => exact mathFrexp
  | mathLdexp => exact mathLdexp
  | mathLog => exact mathLog
  | mathMax => exact mathExtremum fun _ _ best v => .lessThan none best v
  | mathMin => exact mathExtremum fun _ _ best v => .lessThan none v best
  | mathModf => exact mathModf
  | mathPow => exact mathPow
  | mathRandom => exact mathRandom
  | mathRandomseed => exact mathRandomseed
  | mathTointeger => exact mathTointeger
  | mathType => exact mathType
  | mathUlt => exact mathUlt
  | mathAcos | mathAsin | mathCos | mathCosh | mathDeg | mathExp | mathLog10 | mathRad | mathSin
  | mathSinh | mathSqrt | mathTan | mathTanh => exact mathUnary _
  | utf8Char => exact utf8Char
  | utf8Codepoint => exact utf8Codepoint
  | utf8Codes => exact utf8Codes
  | utf8CodesNext lax => exact utf8CodesNext lax
  | utf8Len => exact utf8Len
  | utf8Offset => exact utf8Offset

end SafeFunction

variable (C)

/-- Functions that are kept as they are and that scripts may call all the same keep to
the confinement, though they see variables that scripts do not. -/
def Guarded : Prop := ∀ id c, C.closures id = some c → C.free (.closure id) → ∀ args, C.Frees args →
  C.SafeAction C.SafeFlow (c.enter args)

/-- A frame that goes on within the confinement. -/
inductive SafeFrame : Frame → Prop
  | call (site : Site) {k : List Value → Heap → Step Flow}
      (rest : ∀ vs h, C.Frees vs → C.Holds h → C.SafeStep C.SafeFlow (k vs h)) :
      SafeFrame (.call site k)
  | guard (site : Site) {handler : Option Value} {k : Except Value (List Value) → Heap → Step Flow}
      (handles : ∀ f ∈ handler, C.Callable f)
      (rest : ∀ x h, C.SafeEnded x → C.Holds h → C.SafeStep C.SafeFlow (k x h)) :
      SafeFrame (.guard site handler k)
  | task {closing : Option (Value × Position)} {k : Flow → Heap → Step Flow}
      (closes : ∀ p ∈ closing, C.free p.1)
      (rest : ∀ flow h, C.SafeFlow flow → C.Holds h → C.SafeStep C.SafeFlow (k flow h)) :
      SafeFrame (.task closing k)
  | closing {error : Value} (free : C.free error) : SafeFrame (.closing error)
  | handler : SafeFrame .handler

inductive SafeControl : Control → Prop
  | step {x : Step Flow} (safe : C.SafeStep C.SafeFlow x) : SafeControl (.step x)
  | invoke {r : Call} {h : Heap} (safe : C.SafeCall r) (holds : C.Holds h) :
    SafeControl (.invoke r h)
  | unwind {e : Value} {h : Heap} (free : C.free e) (holds : C.Holds h) : SafeControl (.unwind e h)

/-- A machine that keeps to the confinement. -/
structure SafeMachine (m : Machine) : Prop where
  frames : ∀ frame ∈ m.frames, C.SafeFrame frame
  control : C.SafeControl m.control

/-- A call of a function of the host on values that scripts may hold. -/
structure SafeHostCall (c : HostCall) : Prop where
  args : C.Frees c.args
  holds : C.Holds c.heap
  frames : ∀ frame ∈ c.frames, C.SafeFrame frame

inductive SafeProgress : Progress → Prop
  | more {m : Machine} (safe : C.SafeMachine m) : SafeProgress (.more m)
  | finished {vs : List Value} {h : Heap} (frees : C.Frees vs) (holds : C.Holds h) :
    SafeProgress (.finished vs h)
  | raised {e : Value} {h : Heap} (free : C.free e) (holds : C.Holds h) : SafeProgress (.raised e h)
  | waits {c : HostCall} (safe : C.SafeHostCall c) : SafeProgress (.waits c)

variable {C}

theorem frees_results {flow : Flow} (safe : C.SafeFlow flow) : C.Frees (Machine.results flow) := by
  cases flow with
  | ret vs => exact safe
  | _ => exact frees_nil

theorem callable_handler? {frames : List Frame} (safe : ∀ frame ∈ frames, C.SafeFrame frame)
    (running : Nat) :
    ∀ p ∈ Machine.handler? frames running, C.Callable p.1 := by
  induction frames generalizing running with
  | nil => exact fun _ => nofun
  | cons frame frames ih =>
    obtain ⟨first, others⟩ := List.forall_mem_cons.1 safe
    cases first with
    | guard site handles rest =>
      intro p mem
      obtain ⟨f, there, rfl⟩ := Option.map_eq_some_iff.1 mem
      exact handles f there
    | _ => exact ih others _

theorem native {frames : List Frame} {r : Call} {f : Native (List Value)}
    (safe : C.SafeNative C.Frees f) {h : Heap}
    (holds : C.Holds h) : C.SafeStep C.SafeFlow (Machine.native frames r f h) :=
  (safe _ h holds).bind fun _ _ frees holds => .done frees holds

section Moves

variable {frames : List Frame} (safe : ∀ frame ∈ frames, C.SafeFrame frame) {h : Heap}
  (holds : C.Holds h) (depth : Depth)

include safe holds

theorem wait {frame : Frame} (above : C.SafeFrame frame) {r : Call} (call : C.SafeCall r) :
    C.SafeMachine (Machine.wait frames depth frame r h) := by
  unfold Machine.wait
  dsimp only
  split
  · exact ⟨safe, .step (SafeAction.fail _ _ h holds)⟩
  · exact ⟨List.forall_mem_cons.2 ⟨above, safe⟩, .invoke call holds⟩

theorem close {frame : Frame} (above : C.SafeFrame frame) {v error : Value}
    (hv : C.free v) (he : C.free error) (position : Option Position) :
    C.SafeMachine (Machine.close frames depth frame v error position h) :=
  wait safe holds depth above ⟨.inl (holds.metamethod _ _), by simp [hv, he]⟩

theorem raise {e : Value} (free : C.free e) : C.SafeMachine (Machine.raise frames depth e h) := by
  unfold Machine.raise
  split
  · exact ⟨safe, .unwind free holds⟩
  · next f running found =>
    split
    · exact ⟨safe, .unwind (C.free_ofAscii _) holds⟩
    · have callee := callable_handler? safe 0 _ found
      exact ⟨List.forall_mem_cons.2 ⟨.handler, safe⟩, .invoke ⟨callee, by simp [free]⟩ holds⟩

theorem tail {r : Call} (call : C.SafeCall r) :
    C.SafeProgress (match r.callee with
      | .closure _ => .more ⟨frames, depth, .invoke r h⟩
      | _ => .more
        (Machine.wait frames depth (.call r.site fun vs h => .done (.ret vs) h) r h)) := by
  have returned : ∀ vs h, C.Frees vs → C.Holds h → C.SafeStep C.SafeFlow (.done (.ret vs) h) :=
    fun _ _ frees holds => .done frees holds
  split
  · exact .more ⟨safe, .invoke call holds⟩
  · exact .more (wait safe holds depth (.call r.site returned) call)

theorem endTask {flow : Flow} (flows : C.SafeFlow flow) {closing : Option (Value × Position)}
    {k : Flow → Heap → Step Flow} (closes : ∀ p ∈ closing, C.free p.1)
    (rest : ∀ flow h, C.SafeFlow flow → C.Holds h → C.SafeStep C.SafeFlow (k flow h)) :
    C.SafeProgress (match closing with
      | none => .more ⟨frames, depth, .step (k flow h)⟩
      | some (v, position) =>
        let site : Site := ⟨some position, some ⟨.metamethod, bytes (ascii "close")⟩⟩
        .more (Machine.close frames depth (.call site fun _ h => k flow h) v .nil
          (some position) h)) := by
  cases closing with
  | none => exact .more ⟨safe, .step (rest flow h flows holds)⟩
  | some closed =>
    have after : ∀ site, C.SafeFrame (.call site fun _ h => k flow h) :=
      fun site => .call site fun _ h _ holds => rest flow h flows holds
    exact .more (close safe holds depth (after _) (closes closed rfl) C.free_nil (some closed.2))

theorem deliver {flow : Flow} (flows : C.SafeFlow flow) :
    C.SafeProgress (Machine.deliver frames depth flow h) := by
  cases frames with
  | nil =>
    cases flow with
    | tail r => exact tail safe holds depth flows
    | _ => exact .finished (frees_results flows) holds
  | cons frame frames =>
    obtain ⟨first, others⟩ := List.forall_mem_cons.1 safe
    cases first with
    | task closes rest =>
      have ended := endTask others holds depth flows closes rest
      cases flow with
      | again t => exact .more ⟨safe, .step (SafeAction.step flows h holds)⟩
      | _ => cases ‹Option _› <;> exact ended
    | call site rest =>
      cases flow with
      | tail r => exact tail safe holds depth flows
      | _ => exact .more ⟨others, .step (rest _ h (frees_results flows) holds)⟩
    | guard site handles rest =>
      cases flow with
      | tail r => exact tail safe holds depth flows
      | _ => exact .more ⟨others, .step (rest (.ok _) h (frees_results flows) holds)⟩
    | closing free =>
      cases flow with
      | tail r => exact tail safe holds depth flows
      | _ => exact .more ⟨others, .unwind free holds⟩
    | handler =>
      cases flow with
      | tail r => exact tail safe holds depth flows
      | _ => exact .more ⟨others, .unwind (free_headD (frees_results flows)) holds⟩

theorem unwind {e : Value} (free : C.free e) :
    C.SafeProgress (Machine.unwind frames depth e h) := by
  cases frames with
  | nil => exact .raised free holds
  | cons frame frames =>
    obtain ⟨first, others⟩ := List.forall_mem_cons.1 safe
    cases first with
    | call site rest => exact .more ⟨others, .unwind free holds⟩
    | guard site handles rest => exact .more ⟨others, .step (rest (.error e) h free holds)⟩
    | task closes rest =>
      cases ‹Option _› with
      | none => exact .more ⟨others, .unwind free holds⟩
      | some closed =>
        exact .more (close others holds depth (.closing free) (closes closed rfl) free none)
    | closing _ => exact .more ⟨others, .unwind free holds⟩
    | handler => exact .more ⟨others, .unwind free holds⟩

theorem invoke (guarded : C.Guarded) {r : Call} (call : C.SafeCall r) :
    C.SafeProgress (Machine.invoke frames depth r h) := by
  obtain ⟨callee, args, site⟩ := r
  obtain ⟨callable, frees⟩ := call
  dsimp only at callable frees
  have other : (∀ b, callee ≠ .builtin b) → C.SafeProgress
      (let f := h.metamethod callee (eventKey "call")
      if f.isNil then .more
      ⟨frames, depth, .step (typeError site.position "call" callee site.naming h)⟩
      else .more ⟨frames, depth, .invoke ⟨f, callee :: args, site⟩ h⟩) := by
    intro noBuiltin
    have free := callable.resolve_right (not_exists.2 noBuiltin)
    dsimp only
    split
    · exact .more ⟨safe, .step (SafeAction.typeError _ _ _ _ h holds)⟩
    · exact .more ⟨safe, .invoke ⟨.inl (holds.metamethod _ _), frees_cons.2 ⟨free, frees⟩⟩ holds⟩
  cases callee with
  | closure id =>
    have free := callable.resolve_right (by simp)
    refine .more ⟨safe, .step ?_⟩
    cases kept : C.closures id with
    | none => exact SafeAction.enter (holds.closure kept) frees h holds
    | some c =>
      have there : h.closure id = c := by
        rw [Heap.closure, holds.keptClosures kept, Option.getD_some]
      dsimp only
      rw [there]
      exact guarded id c kept free args frees h holds
  | builtin b => exact .more ⟨safe, .step (native (SafeFunction.run b args frees) holds)⟩
  | matcher id => exact .more ⟨safe, .step (native (SafeFunction.iterate id) holds)⟩
  | host id => exact .waits ⟨frees, holds, safe⟩
  | _ => exact other (by simp)

end Moves

namespace SafeMachine

theorem next (guarded : C.Guarded) {m : Machine} (safe : C.SafeMachine m) :
    C.SafeProgress m.next := by
  obtain ⟨frames, depth, control⟩ := m
  obtain ⟨within, controls⟩ := safe
  cases controls with
  | step steps =>
    cases steps with
    | done flows holds => exact deliver within holds _ flows
    | raise free holds => exact .more (raise within holds _ free)
    | call call holds rest => exact .more (wait within holds _ (.call _ rest) call)
    | protect call handles holds rest =>
      exact .more (wait within holds _ (.guard _ handles rest) call)
    | run task holds rest =>
      refine .more ⟨List.forall_mem_cons.2 ⟨.task task.closing? rest, within⟩, .step ?_⟩
      exact SafeAction.step task _ holds
  | invoke call holds => exact invoke within holds _ guarded call
  | unwind free holds => exact unwind within holds _ free

theorem start (outer : Depth) {x : Step Flow} (safe : C.SafeStep C.SafeFlow x) :
    C.SafeMachine (.start outer x) := by
  refine ⟨fun frame mem => ?_, .step safe⟩
  obtain rfl := List.mem_singleton.1 mem
  refine .guard _ ?_ fun x h ended holds => ?_
  · rintro f ⟨rfl⟩
    exact .inr ⟨_, rfl⟩
  · cases x with
    | ok vs => exact .done ended holds
    | error e => exact .raise ended holds

theorem ofCall (outer : Depth) {callee : Value} {args : List Value} {h : Heap}
    (callable : C.Callable callee)
    (frees : C.Frees args) (holds : C.Holds h) : C.SafeMachine (.ofCall outer callee args h) :=
  start outer (.done ⟨callable, frees⟩ holds)

theorem ofAction (outer : Depth) {x : Action Unit}
    (safe : C.SafeAction (fun _ => True) x) {h : Heap}
    (holds : C.Holds h) : C.SafeMachine (.ofAction outer x h) :=
  start outer ((safe h holds).bind fun _ _ _ holds => .done frees_nil holds)

end SafeMachine

/-- A machine goes on within the confinement from whatever a function of the host gives it. -/
theorem SafeHostCall.resume {c : HostCall} (safe : C.SafeHostCall c) {x : Except Value (List Value)}
    (ended : C.SafeEnded x) {h : Heap} (holds : C.Holds h) : C.SafeMachine (c.resume x h) := by
  cases x with
  | ok vs => exact ⟨safe.frames, .step (.done ended holds)⟩
  | error e => exact ⟨safe.frames, .step (.raise ended holds)⟩

end SealedLua.Lua.Confinement
