import SealedLua.Lua.Machine
import SealedLua.Proofs.Renaming.BasicFunctions
import SealedLua.Proofs.Renaming.Evaluation
import SealedLua.Proofs.Renaming.FormatFunctions
import SealedLua.Proofs.Renaming.NumberFunctions
import SealedLua.Proofs.Renaming.StringFunctions
import SealedLua.Proofs.Renaming.TableFunctions

/-!
# Machines on corresponding heaps

Two machines on corresponding heaps stay in step: each move of one corresponds
to a move of the other, as long as nothing reveals where an object is or whether
the collector has been there.  In nothing else do objects at different places
differ for a script.
-/

namespace SealedLua.Lua

def Format.asksPointer : List UInt8 → Bool
  | [] => false
  | 37 :: 37 :: rest => asksPointer rest
  | 37 :: rest => (rest.dropWhile isModifier).head? == some 112 || asksPointer rest
  | _ :: rest => asksPointer rest

/-- Whether a value is ordered by its place among the keys of a table. -/
def Value.isPlaced : Value → Bool
  | .failure _ => true
  | v => v.isObject

/-- Whether the place of a key can decide the order of a traversal. -/
def Heap.ordersByPlace (h : Heap) : Value → Bool
  | .table id => (h.table id).slots.any fun s => s.1.isPlaced
  | _ => false

namespace Builtin

/-- Whether a call can reveal where an object is or what the collector does.  For
`format` every object counts, whatever the format does with it. -/
def reveals (h : Heap) (args : List Value) : Builtin → Bool
  | .tostring | .errorText => h.showsPlace (Native.arg args 1)
  | .stringFormat =>
    args.any Value.isObject || (Native.arg args 1).text?.any fun t => Format.asksPointer (codes t)
  | .next => h.ordersByPlace (Native.arg args 1)
  | .setmetatable => h.concernsCollector (Native.arg args 2)
  | .collectgarbage => true
  | _ => false

end Builtin

/-- Whether the next move enters a built-in function that reveals something. -/
def Machine.reveals (m : Machine) : Bool :=
  match m.control with
  | .invoke ⟨.builtin b, args, _⟩ heap => b.reveals heap args
  | _ => false

namespace Renaming

variable {ρ : Renaming}

@[simp] theorem isPlaced_value (v : Value) : (ρ.value v).isPlaced = v.isPlaced := by cases v <;> rfl

theorem SameHeap.ordersByPlace {g h : Heap} (s : ρ.SameHeap g h) (v : Value) :
    h.ordersByPlace (ρ.value v) = g.ordersByPlace v := by
  cases v with
  | table id =>
    simp only [value_table, Heap.ordersByPlace, (s.table id).slots, List.any_map,
      Function.comp_def, entry, isPlaced_value]
  | _ => rfl

theorem SameHeap.reveals {g h : Heap} (s : ρ.SameHeap g h) (b : Builtin) (args : List Value) :
    b.reveals h (ρ.values args) = b.reveals g args := by
  cases b with
  | tostring | errorText => simp only [Builtin.reveals, arg_values, s.showsPlace]
  | stringFormat =>
    simp only [Builtin.reveals, arg_values, text?_value, List.any_map,
      Function.comp_def, isObject_value]
  | next => simp only [Builtin.reveals, arg_values, s.ordersByPlace]
  | setmetatable => simp only [Builtin.reveals, arg_values, s.concernsCollector]
  | _ => rfl

theorem SameHeap.shown {g h : Heap} (s : ρ.SameHeap g h) (v : Value) (c : CallContext)
    (hidden : g.showsPlace v = false) :
    ρ.SameStep (Along ρ.values)
      ((do return [.string (← Native.display v)] : Native (List Value)) c g)
      ((do return [.string (← Native.display (ρ.value v))] : Native (List Value))
        (ρ.context c) h) := by
  have text : ρ.SameStep Eq (Native.display v c g) (Native.display (ρ.value v) (ρ.context c) h) :=
    s.display v c (fun _ => rfl) fun shown => absurd shown (by simp [hidden])
  exact text.bind fun t _ heq _ _ s => .done (congrArg (fun t => [Value.string t]) heq.symm) s

theorem SameHeap.tostring {g h : Heap} (s : ρ.SameHeap g h) (args : List Value) (c : CallContext)
    (hidden : g.showsPlace (Native.arg args 1) = false) :
    ρ.SameStep (Along ρ.values) (Base.tostring args c g)
      (Base.tostring (ρ.values args) (ρ.context c) h) := by
  unfold Base.tostring Native.anyArg
  rw [given_values]
  unfold Native.arg at hidden
  cases found : Native.given args 1 with
  | none =>
    have missing : ρ.SameNative (α := Value) (fun _ _ => False)
        (Native.badArgumentText 1 "value expected")
        (Native.badArgumentText 1 "value expected") := .badArgumentText _ _
    exact (missing c g h s).bind fun _ _ never => never.elim
  | some v =>
    rw [found] at hidden
    exact s.shown v c hidden

theorem SameHeap.errorText {g h : Heap} (s : ρ.SameHeap g h) (args : List Value) (c : CallContext)
    (hidden : g.showsPlace (Native.arg args 1) = false) :
    ρ.SameStep (Along ρ.values) (Base.errorText args c g)
      (Base.errorText (ρ.values args) (ρ.context c) h) := by
  have shown := s.shown _ c hidden
  unfold Base.errorText
  rw [arg_values]
  cases found : Native.arg args 1 with
  | failure e => exact .done rfl s
  | _ =>
    rw [found] at shown
    exact shown

/-- A call that reveals nothing does the same on corresponding heaps. -/
theorem SameHeap.run {g h : Heap} (s : ρ.SameHeap g h) (b : Builtin)
    (args : List Value) (c : CallContext) (hidden : b.reveals g args = false) :
    ρ.SameStep (Along ρ.values) (b.run args c g) (b.run (ρ.values args) (ρ.context c) h) := by
  have others : ∀ {f}, ρ.SameFunction f →
      ρ.SameStep (Along ρ.values) (f args c g) (f (ρ.values args) (ρ.context c) h) :=
    fun same => same args c g h s
  cases b with
  | errorText => exact s.errorText args c hidden
  | tostring => exact s.tostring args c hidden
  | stringFormat => exact SameFunction.stringFormat args (Bool.or_eq_false_iff.1 hidden).1 c g h s
  | setmetatable => exact SameFunction.setmetatable args c s hidden
  | collectgarbage => cases hidden
  | assert => exact others .assert
  | dofile => exact SameNative.failText _ c g h s
  | loadfile => exact SameNative.failText _ c g h s
  | error => exact others .error
  | getmetatable => exact others .getmetatable
  | ipairs => exact others .ipairs
  | ipairsNext => exact others .ipairsNext
  | load => exact others .load
  | next => exact others .next
  | pairs => exact others .pairs
  | pcall => exact others .pcall
  | print => exact others .print
  | rawequal => exact others .rawequal
  | rawget => exact others .rawget
  | rawlen => exact others .rawlen
  | rawset => exact others .rawset
  | select => exact others .select
  | tonumber => exact others .tonumber
  | type => exact others .type
  | warn => exact others .warn
  | xpcall => exact others .xpcall
  | stringByte => exact others .stringByte
  | stringChar => exact others .stringChar
  | stringDump => exact SameNative.failText _ c g h s
  | stringFind => exact others (.stringSearch true)
  | stringGmatch => exact others .stringGmatch
  | stringGsub => exact others .stringGsub
  | stringLen => exact others .stringLen
  | stringLower => exact others (.stringMapped _)
  | stringMatch => exact others (.stringSearch false)
  | stringPack => exact others .stringPack
  | stringPacksize => exact others .stringPacksize
  | stringRep => exact others .stringRep
  | stringReverse => exact others .stringReverse
  | stringSub => exact others .stringSub
  | stringUnpack => exact others .stringUnpack
  | stringUpper => exact others (.stringMapped _)
  | stringArith op => exact others (.stringArithmetic op)
  | stringNegate => exact others .stringNegation
  | tableConcat => exact others .tableConcat
  | tableInsert => exact others .tableInsert
  | tableMove => exact others .tableMove
  | tablePack => exact others .tablePack
  | tableRemove => exact others .tableRemove
  | tableSort => exact others .tableSort
  | tableUnpack => exact others .tableUnpack
  | mathAbs => exact others .mathAbs
  | mathAtan => exact others .mathAtan
  | mathCeil => exact others (.mathRounded _)
  | mathFloor => exact others (.mathRounded _)
  | mathFmod => exact others .mathFmod
  | mathFrexp => exact others .mathFrexp
  | mathLdexp => exact others .mathLdexp
  | mathLog => exact others .mathLog
  | mathMax => exact others (.mathExtremum (fun best v => .lessThan none best v))
  | mathMin => exact others (.mathExtremum (fun best v => .lessThan none v best))
  | mathModf => exact others .mathModf
  | mathPow => exact others .mathPow
  | mathRandom => exact others .mathRandom
  | mathRandomseed => exact others .mathRandomseed
  | mathTointeger => exact others .mathTointeger
  | mathType => exact others .mathType
  | mathUlt => exact others .mathUlt
  | mathAcos | mathAsin | mathCos | mathCosh | mathDeg | mathExp | mathLog10 | mathRad | mathSin
  | mathSinh | mathSqrt | mathTan | mathTanh => exact others (.mathUnary _)
  | utf8Char => exact others .utf8Char
  | utf8Codepoint => exact others .utf8Codepoint
  | utf8Codes => exact others .utf8Codes
  | utf8CodesNext lax => exact others (.utf8CodesNext lax)
  | utf8Len => exact others .utf8Len
  | utf8Offset => exact others .utf8Offset

variable (ρ) in
/-- Two frames that wait for the same and go on alike. -/
inductive SameFrame : Frame → Frame → Prop
  | call (site : Site) {k k' : List Value → Heap → Step Flow}
      (rest : ∀ vs g h, ρ.SameHeap g h → ρ.SameStep (Along ρ.flow) (k vs g) (k' (ρ.values vs) h)) :
      SameFrame (.call site k) (.call site k')
  | guard (site : Site) (handler : Option Value)
      {k k' : Except Value (List Value) → Heap → Step Flow}
      (rest : ∀ x g h, ρ.SameHeap g h → ρ.SameStep (Along ρ.flow) (k x g) (k' (ρ.caught x) h)) :
      SameFrame (.guard site handler k) (.guard site (handler.map ρ.value) k')
  | task (closing : Option (Value × Position)) {k k' : Flow → Heap → Step Flow}
      (rest : ∀ flow g h, ρ.SameHeap g h →
        ρ.SameStep (Along ρ.flow) (k flow g) (k' (ρ.flow flow) h)) :
      SameFrame (.task closing k)
      (.task (closing.map fun (v, position) => (ρ.value v, position)) k')
  | closing (error : Value) : SameFrame (.closing error) (.closing (ρ.value error))
  | handler : SameFrame .handler .handler

variable (ρ) in
abbrev SameFrames : List Frame → List Frame → Prop := List.Forall₂ ρ.SameFrame

namespace SameFrames

variable {frames frames' : List Frame}

theorem caller (related : ρ.SameFrames frames frames') :
    Machine.caller frames' = Machine.caller frames := by
  funext level
  induction related generalizing level with
  | nil => rfl
  | cons head _ ih => cases head <;> simp only [Machine.caller, ih]

theorem handler? (related : ρ.SameFrames frames frames') (running : Nat) :
    Machine.handler? frames' running = (Machine.handler? frames running).map fun (f, n) =>
      (ρ.value f, n) := by
  induction related generalizing running with
  | nil => rfl
  | cons head _ ih =>
    cases head with
    | guard site handler rest => cases handler <;> rfl
    | _ => exact ih _

end SameFrames

variable (ρ) in
inductive SameControl : Control → Control → Prop
  | step {x y : Step Flow} (same : ρ.SameStep (Along ρ.flow) x y) : SameControl (.step x) (.step y)
  | invoke {g h : Heap} (r : Call) (heaps : ρ.SameHeap g h) :
    SameControl (.invoke r g) (.invoke (ρ.call r) h)
  | unwind {g h : Heap} (e : Value) (heaps : ρ.SameHeap g h) :
    SameControl (.unwind e g) (.unwind (ρ.value e) h)

variable (ρ) in
/-- Two machines that are about to do the same. -/
structure SameMachine (m n : Machine) : Prop where
  frames : ρ.SameFrames m.frames n.frames
  depth : n.depth = m.depth
  control : ρ.SameControl m.control n.control

variable (ρ) in
/-- Two calls of a function of the host that machines wait for. -/
structure SameHostCall (c d : HostCall) : Prop where
  host : d.host = c.host
  args : d.args = ρ.values c.args
  heaps : ρ.SameHeap c.heap d.heap
  frames : ρ.SameFrames c.frames d.frames
  depth : d.depth = c.depth

variable (ρ) in
inductive SameProgress : Progress → Progress → Prop
  | more {m n : Machine} (machines : ρ.SameMachine m n) : SameProgress (.more m) (.more n)
  | finished {g h : Heap} (vs : List Value) (heaps : ρ.SameHeap g h) : SameProgress (.finished vs g)
    (.finished (ρ.values vs) h)
  | raised {g h : Heap} (e : Value) (heaps : ρ.SameHeap g h) : SameProgress
    (.raised e g) (.raised (ρ.value e) h)
  | waits {c d : HostCall} (calls : ρ.SameHostCall c d) : SameProgress (.waits c) (.waits d)

theorem native {frames frames' : List Frame} (related : ρ.SameFrames frames frames')
    {g h : Heap} (r : Call) {f f' : Native (List Value)}
    (same : ∀ c, ρ.SameStep (Along ρ.values) (f c g) (f' (ρ.context c) h)) :
    ρ.SameStep (Along ρ.flow) (Machine.native frames r f g)
      (Machine.native frames' (ρ.call r) f' h) := by
  unfold Machine.native
  rw [related.caller]
  exact (same _).bind fun vs _ heq _ _ s => .done (by rw [heq]; rfl) s

section Moves

variable {frames frames' : List Frame} (related : ρ.SameFrames frames frames')
  {g h : Heap} (s : ρ.SameHeap g h) (depth : Depth)

include related s

theorem wait {frame frame' : Frame} (same : ρ.SameFrame frame frame') (r : Call) :
    ρ.SameMachine (Machine.wait frames depth frame r g)
      (Machine.wait frames' depth frame' (ρ.call r) h) := by
  unfold Machine.wait
  dsimp only [call]
  split
  · exact ⟨related, rfl, .step (SameAction.fail _ _ g h s)⟩
  · exact ⟨.cons same related, rfl, .invoke r s⟩

theorem close {frame frame' : Frame} (same : ρ.SameFrame frame frame') (v error : Value)
    (position : Option Position) :
    ρ.SameMachine (Machine.close frames depth frame v error position g)
      (Machine.close frames' depth frame' (ρ.value v) (ρ.value error) position h) := by
  unfold Machine.close
  dsimp only
  rw [s.metamethod]
  exact wait related s depth same ⟨g.metamethod v (eventKey "close"), [v, error], _⟩

theorem raise (e : Value) :
    ρ.SameMachine (Machine.raise frames depth e g) (Machine.raise frames' depth (ρ.value e) h) := by
  unfold Machine.raise
  rw [related.handler?]
  cases Machine.handler? frames 0 with
  | none => exact ⟨related, rfl, .unwind e s⟩
  | some found =>
    obtain ⟨f, running⟩ := found
    dsimp only [Option.map]
    split
    · exact ⟨related, rfl, .unwind (.ofAscii "error in error handling") s⟩
    · exact ⟨.cons .handler related, rfl, .invoke ⟨f, [e], Site.native⟩ s⟩

theorem tail (r : Call) :
    ρ.SameProgress (match r.callee with
      | .closure _ => .more ⟨frames, depth, .invoke r g⟩
      | _ => .more (Machine.wait frames depth (.call r.site fun vs h => .done (.ret vs) h) r g))
      (match (ρ.call r).callee with
      | .closure _ => .more ⟨frames', depth, .invoke (ρ.call r) h⟩
      | _ => .more
        (Machine.wait frames' depth (.call r.site fun vs h => .done (.ret vs) h)
          (ρ.call r) h)) := by
  obtain ⟨callee, args, site⟩ := r
  have returned : ∀ vs g h, ρ.SameHeap g h → ρ.SameStep (Along ρ.flow) (.done (.ret vs) g)
      (.done (.ret (ρ.values vs)) h) :=
    fun _ _ _ s => .done rfl s
  cases callee with
  | closure id => exact .more ⟨related, rfl, .invoke _ s⟩
  | _ => exact .more (wait related s depth (.call site returned) _)

theorem endTask (flow : Flow) (closing : Option (Value × Position)) {k k' : Flow → Heap → Step Flow}
    (rest : ∀ flow g h, ρ.SameHeap g h →
      ρ.SameStep (Along ρ.flow) (k flow g) (k' (ρ.flow flow) h)) :
    ρ.SameProgress (match closing with
      | none => .more ⟨frames, depth, .step (k flow g)⟩
      | some (v, position) =>
        let site : Site := ⟨some position, some ⟨.metamethod, bytes (ascii "close")⟩⟩
        .more (Machine.close frames depth (.call site fun _ h => k flow h) v
          .nil (some position) g))
      (match closing.map fun (v, position) => (ρ.value v, position) with
      | none => .more ⟨frames', depth, .step (k' (ρ.flow flow) h)⟩
      | some (v, position) =>
        let site : Site := ⟨some position, some ⟨.metamethod, bytes (ascii "close")⟩⟩
        .more (Machine.close frames' depth (.call site fun _ h => k' (ρ.flow flow) h) v .nil
          (some position) h)) := by
  cases closing with
  | none => exact .more ⟨related, rfl, .step (rest flow g h s)⟩
  | some closed =>
    exact .more (close related s depth (.call _ fun _ => rest flow) closed.1 .nil (some closed.2))

theorem deliver (flow : Flow) :
    ρ.SameProgress (Machine.deliver frames depth flow g)
      (Machine.deliver frames' depth (ρ.flow flow) h) := by
  cases related with
  | nil =>
    cases flow with
    | tail r => exact tail .nil s depth r
    | _ => exact .finished _ s
  | cons head others =>
    cases head with
    | task closing rest =>
      have ended := fun flow => endTask others s depth flow closing rest
      cases flow with
      | again t =>
        exact .more ⟨.cons (.task closing rest) others, rfl, .step (SameAction.step t g h s)⟩
      | _ => cases closing <;> exact ended _
    | call site rest =>
      cases flow with
      | tail r => exact tail (.cons (.call site rest) others) s depth r
      | _ => exact .more ⟨others, rfl, .step (rest _ g h s)⟩
    | guard site handler rest =>
      cases flow with
      | tail r => exact tail (.cons (.guard site handler rest) others) s depth r
      | _ => exact .more ⟨others, rfl, .step (rest (.ok _) g h s)⟩
    | closing e =>
      cases flow with
      | tail r => exact tail (.cons (.closing e) others) s depth r
      | _ => exact .more ⟨others, rfl, .unwind e s⟩
    | handler =>
      cases flow with
      | tail r => exact tail (.cons .handler others) s depth r
      | ret vs =>
        have first := SameControl.unwind (vs.headD .nil) s
        rw [← headD_values] at first
        exact .more ⟨others, rfl, first⟩
      | _ => exact .more ⟨others, rfl, .unwind .nil s⟩

theorem unwind (e : Value) :
    ρ.SameProgress (Machine.unwind frames depth e g)
      (Machine.unwind frames' depth (ρ.value e) h) := by
  cases related with
  | nil => exact .raised e s
  | cons head rest =>
    cases head with
    | call site k => exact .more ⟨rest, rfl, .unwind e s⟩
    | guard site handler k => exact .more ⟨rest, rfl, .step (k (.error e) g h s)⟩
    | task closing k =>
      cases closing with
      | none => exact .more ⟨rest, rfl, .unwind e s⟩
      | some closed => exact .more (close rest s depth (.closing e) closed.1 e none)
    | closing error => exact .more ⟨rest, rfl, .unwind e s⟩
    | handler => exact .more ⟨rest, rfl, .unwind e s⟩

theorem invoke (r : Call) (hidden : ∀ b, r.callee = .builtin b → b.reveals g r.args = false) :
    ρ.SameProgress (Machine.invoke frames depth r g)
      (Machine.invoke frames' depth (ρ.call r) h) := by
  obtain ⟨callee, args, site⟩ := r
  have other : ρ.SameProgress
      (let f := g.metamethod callee (eventKey "call")
      if f.isNil then .more
      ⟨frames, depth, .step (typeError site.position "call" callee site.naming g)⟩
      else .more ⟨frames, depth, .invoke ⟨f, callee :: args, site⟩ g⟩)
      (let f := h.metamethod (ρ.value callee) (eventKey "call")
      if f.isNil then .more
      ⟨frames', depth, .step (typeError site.position "call" (ρ.value callee) site.naming h)⟩
      else .more ⟨frames', depth, .invoke ⟨f, ρ.value callee :: ρ.values args, site⟩ h⟩) := by
    dsimp only
    rw [s.metamethod, isNil_value]
    split
    · exact .more ⟨related, rfl, .step (SameAction.typeError _ _ _ _ g h s)⟩
    · exact .more ⟨related, rfl, .invoke ⟨_, callee :: args, site⟩ s⟩
  cases callee with
  | closure id =>
    refine .more ⟨related, rfl, .step ?_⟩
    dsimp only
    rw [s.closure]
    exact SameAction.enter _ args g h s
  | builtin b =>
    exact .more ⟨related, rfl, .step (native related _ fun c => s.run b args c (hidden b rfl))⟩
  | matcher id =>
    exact .more ⟨related, rfl, .step (native related _ fun c => SameFunction.iterate id c g h s)⟩
  | host id => exact .waits ⟨rfl, rfl, s, related, rfl⟩
  | _ => exact other

end Moves

namespace SameMachine

variable {m n : Machine}

theorem reveals (same : ρ.SameMachine m n) : n.reveals = m.reveals := by
  obtain ⟨frames, depth, control⟩ := m
  obtain ⟨frames', depth', control'⟩ := n
  cases same.control with
  | step _ => rfl
  | unwind _ _ => rfl
  | invoke r s =>
    obtain ⟨callee, args, site⟩ := r
    cases callee with
    | builtin b => exact s.reveals b args
    | _ => rfl

theorem next (same : ρ.SameMachine m n) (hidden : m.reveals = false) :
    ρ.SameProgress m.next n.next := by
  obtain ⟨frames, depth, control⟩ := m
  obtain ⟨frames', depth', control'⟩ := n
  obtain ⟨related, rfl, controls⟩ := same
  cases controls with
  | step steps =>
    cases steps with
    | done results heaps =>
      subst results
      exact deliver related heaps _ _
    | raise e heaps => exact .more (raise related heaps _ e)
    | call r heaps rest => exact .more (wait related heaps _ (.call _ rest) r)
    | protect r handler heaps rest => exact .more (wait related heaps _ (.guard _ handler rest) r)
    | run t heaps rest =>
      refine .more ⟨.cons ?_ related, rfl, .step (SameAction.step t _ _ heaps)⟩
      rw [closing?_task]
      exact .task _ rest
  | invoke r heaps =>
    obtain ⟨callee, args, site⟩ := r
    refine invoke related heaps _ _ fun b entered => ?_
    cases entered
    exact hidden
  | unwind e heaps => exact unwind related heaps _ e

end SameMachine

end Renaming
end SealedLua.Lua
