import SealedLua.Proofs.Gateway.Nesting
import SealedLua.Proofs.Gateway.Routes

/-!
# How many interpreters a command makes

A run asks for one interpreter of its own, and each nested call that gets as far
as to have loaded its script leads to one run more.  `counted` is the run of a
script with a word put in at each such place, which tells the call.  Without the
words it is the run itself (`erased_counted`), and every word stands right behind
the read that found the record of its call.  So the words are the nested calls
that were loaded, over the whole tree of calls, and the interpreters that are
asked for are one more.
-/

namespace SealedLua

open Program (Only Performs Event performs_done performs_bind performs_bindExcept)

variable {α β : Type}

/-- How many interpreters are refused with an answer of the platform. -/
def PlatformOp.refusals : (op : PlatformOp) → op.Answer → Nat
  | .admitInterpreter, .error _ => 1
  | _, _ => 0

namespace Platform

def made (history : List (Event platformInterface)) : Nat :=
  (history.map fun e => PlatformOp.interpreters e.1 e.2).sum

/-- How many interpreters are asked for in a history and refused. -/
def denied (history : List (Event platformInterface)) : Nat :=
  (history.map fun e => PlatformOp.refusals e.1 e.2).sum

def foundBy? : Event platformInterface → Option ObjectId
  | ⟨.storage (.openRead id), .ok (some _)⟩ => some id
  | _ => none

/-- The objects that are found in a history. -/
def found (history : List (Event platformInterface)) : List ObjectId := history.filterMap foundBy?

/-- No interpreter is asked for in a history. -/
def AsksForNone (history : List (Event platformInterface)) : Prop :=
  made history = 0 ∧ denied history = 0

theorem made_append (first second : List (Event platformInterface)) :
    made (first ++ second) = made first + made second := by
  simp only [made, List.map_append, List.sum_append]

theorem denied_append (first second : List (Event platformInterface)) :
    denied (first ++ second) = denied first + denied second := by
  simp only [denied, List.map_append, List.sum_append]

theorem found_append (first second : List (Event platformInterface)) :
    found (first ++ second) = found first ++ found second :=
  List.filterMap_append

theorem made_add_denied_admit (x : PlatformOp.Answer .admitInterpreter)
    (history : List (Event platformInterface)) :
    made (⟨.admitInterpreter, x⟩ :: history) + denied (⟨.admitInterpreter, x⟩ :: history) =
      1 + (made history + denied history) := by
  cases x with
  | error e =>
    have hmade : made (⟨.admitInterpreter, .error e⟩ :: history) = 0 + made history := rfl
    have hdenied : denied (⟨.admitInterpreter, .error e⟩ :: history) = 1 + denied history := rfl
    omega
  | ok u =>
    have hmade : made (⟨.admitInterpreter, .ok u⟩ :: history) = 1 + made history := rfl
    have hdenied : denied (⟨.admitInterpreter, .ok u⟩ :: history) = 0 + denied history := rfl
    omega

theorem found_printed {history : List (Event platformInterface)}
    (h : ∀ e ∈ history, ∃ text, e.1 = PlatformOp.print text) : found history = [] := by
  refine List.filterMap_eq_nil_iff.2 fun e there => ?_
  obtain ⟨op, x⟩ := e
  obtain ⟨text, rfl⟩ := h _ there
  rfl

theorem asksForNone_of_ne_admit {history : List (Event platformInterface)}
    (h : ∀ e ∈ history, e.1 ≠ PlatformOp.admitInterpreter) : AsksForNone history := by
  induction history with
  | nil => exact ⟨rfl, rfl⟩
  | cons e rest ih =>
    obtain ⟨hmade, hdenied⟩ := ih fun e' he' => h e' (List.mem_cons_of_mem _ he')
    obtain ⟨op, x⟩ := e
    cases op with
    | admitInterpreter => exact absurd rfl (h _ List.mem_cons_self)
    | drawSerial | print => exact ⟨(Nat.zero_add _).trans hmade, (Nat.zero_add _).trans hdenied⟩
    | storage op => exact ⟨(Nat.zero_add _).trans hmade, (Nat.zero_add _).trans hdenied⟩

end Platform

/-- The operations of a platform, and the word that the script of a nested call was loaded. -/
inductive CountedOp where
  | platform (op : PlatformOp)
  | loaded (call : NestedCall)

def CountedOp.Answer : CountedOp → Type
  | .platform op => op.Answer
  | .loaded _ => Unit

abbrev countedInterface : Interface := ⟨CountedOp, CountedOp.Answer⟩

namespace Counted

/-- A program without the words. -/
def erased (p : Program countedInterface α) : Platform α :=
  Program.run (I := countedInterface) (fun
    | .platform op => Program.ask (I := platformInterface) op
    | .loaded _ => pure ()) p

def lifted (p : Platform α) : Program countedInterface α :=
  Program.run (I := platformInterface)
    (fun op => Program.ask (I := countedInterface) (.platform op)) p

/-- The operations of the platform in a history. -/
def platformEvents (history : List (Event countedInterface)) : List (Event platformInterface) :=
  history.filterMap fun
    | ⟨.platform op, x⟩ => some ⟨op, x⟩
    | ⟨.loaded _, _⟩ => none

/-- The nested calls in a history whose scripts were loaded. -/
def loadedCalls (history : List (Event countedInterface)) : List NestedCall :=
  history.filterMap fun
    | ⟨.platform _, _⟩ => none
    | ⟨.loaded call, _⟩ => some call

theorem platformEvents_append (first second : List (Event countedInterface)) :
    platformEvents (first ++ second) = platformEvents first ++ platformEvents second :=
  List.filterMap_append

theorem loadedCalls_append (first second : List (Event countedInterface)) :
    loadedCalls (first ++ second) = loadedCalls first ++ loadedCalls second :=
  List.filterMap_append

theorem platformEvents_loaded (call : NestedCall) (rest : List (Event countedInterface)) :
    platformEvents (⟨.loaded call, ()⟩ :: rest) = platformEvents rest := rfl

theorem loadedCalls_loaded (call : NestedCall) (rest : List (Event countedInterface)) :
    loadedCalls (⟨.loaded call, ()⟩ :: rest) = call :: loadedCalls rest := rfl

theorem erased_lifted (p : Platform α) : erased (lifted p) = p := by
  induction p with
  | done a => rfl
  | perform op k ih => exact congrArg (Program.perform (I := platformInterface) op) (funext ih)

/-- Leaving out the words, as a relation between programs. -/
def erasure : Correspondence (Program countedInterface) (Program platformInterface) where
  Rel p q := erased p.run = q.run
  pure _ := rfl
  failure := rfl
  bind := Program.run_bind_congr

/-- What is performed without a word is performed by the program itself. -/
theorem performs_lifted {p : Platform α} {history : List (Event countedInterface)} {a : α}
    (h : Performs (lifted p) history (.done a)) :
    Performs (I := platformInterface) p (platformEvents history) (.done a) ∧
      loadedCalls history = [] := by
  induction p generalizing history with
  | done b =>
    obtain ⟨rfl, rfl⟩ := performs_done.1 h
    exact ⟨.start _, rfl⟩
  | perform op k ih =>
    cases h with
    | step later =>
      obtain ⟨hperforms, hnone⟩ := ih _ later
      exact ⟨Performs.step (I := platformInterface) hperforms, hnone⟩

/-- What a program performs without the words is performed with them. -/
theorem exists_performs_of_erased {p : Program countedInterface α}
    {events : List (Event platformInterface)} {a : α}
    (h : Performs (I := platformInterface) (erased p) events (.done a)) :
    ∃ history, Performs p history (.done a) ∧ platformEvents history = events := by
  induction p generalizing events with
  | done b =>
    obtain ⟨rfl, rfl⟩ := (performs_done (I := platformInterface)).1 h
    exact ⟨[], .start _, rfl⟩
  | perform op k ih =>
    cases op with
    | platform op =>
      cases h with
      | @step op k x events rest later =>
        obtain ⟨history, hperforms, hevents⟩ := ih x later
        refine ⟨⟨.platform op, x⟩ :: history, .step hperforms, ?_⟩
        rw [← hevents]
        rfl
    | loaded call =>
      obtain ⟨history, hperforms, hevents⟩ := ih () h
      exact ⟨⟨.loaded call, ()⟩ :: history, .step hperforms, hevents⟩

/-- So many interpreters are asked for beyond the calls that were loaded, and the
records that were found are those of these calls, in their order. -/
structure Accounted (own : Nat) (history : List (Event countedInterface)) : Prop where
  interpreters : Platform.made (platformEvents history) + Platform.denied (platformEvents history) =
    own + (loadedCalls history).length
  records : Platform.found (platformEvents history) =
    (loadedCalls history).map fun call => Scripts.recordId call.name

theorem accounted_nil : Accounted 0 [] := ⟨rfl, rfl⟩

/-- What asks for no interpreter, says nothing and finds nothing is accounted for. -/
theorem accounted_of_none {history : List (Event countedInterface)}
    (hasked : Platform.AsksForNone (platformEvents history))
    (hnone : loadedCalls history = []) (hfound : Platform.found (platformEvents history) = []) :
    Accounted 0 history where
  interpreters := by rw [hasked.1, hasked.2, hnone, List.length_nil]
  records := by rw [hfound, hnone, List.map_nil]

theorem Accounted.append {m n : Nat} {first second : List (Event countedInterface)}
    (hfirst : Accounted m first)
    (hsecond : Accounted n second) : Accounted (m + n) (first ++ second) where
  interpreters := by
    rw [platformEvents_append, loadedCalls_append, Platform.made_append, Platform.denied_append,
      List.length_append]
    have := hfirst.interpreters
    have := hsecond.interpreters
    omega
  records := by
    rw [platformEvents_append, loadedCalls_append, Platform.found_append,
      List.map_append, hfirst.records, hsecond.records]

theorem Accounted.admit {history : List (Event countedInterface)} (h : Accounted 0 history)
    (x : PlatformOp.Answer .admitInterpreter) :
    Accounted 1 (⟨.platform .admitInterpreter, x⟩ :: history) where
  interpreters := by
    refine (Platform.made_add_denied_admit x (platformEvents history)).trans ?_
    rw [h.interpreters, Nat.zero_add]
    rfl
  records := h.records

/-- A call that was loaded accounts for the interpreter that is asked for after it. -/
theorem Accounted.loaded {first second : List (Event countedInterface)} {call : NestedCall}
    (hasked : Platform.AsksForNone (platformEvents first))
    (hnone : loadedCalls first = [])
    (hfound : Platform.found (platformEvents first) = [Scripts.recordId call.name])
    (h : Accounted 1 second) :
    Accounted 0 (first ++ ⟨.loaded call, ()⟩ :: second) where
  interpreters := by
    rw [platformEvents_append, loadedCalls_append, Platform.made_append, Platform.denied_append,
      platformEvents_loaded, loadedCalls_loaded, hnone, List.nil_append,
      List.length_cons, hasked.1, hasked.2]
    have := h.interpreters
    omega
  records := by
    rw [platformEvents_append, loadedCalls_append, Platform.found_append, platformEvents_loaded,
      loadedCalls_loaded, hnone, hfound, h.records]
    rfl

/-- That every history is accounted for, as a relation that does not look at its second part. -/
def accounts : Correspondence (Program countedInterface) Id where
  Rel p _ := ∀ history ended, Performs p.run history (.done ended) → Accounted 0 history
  pure _ history ended h := by
    obtain ⟨rfl, -⟩ := performs_done.1 h
    exact accounted_nil
  failure history ended h := by
    obtain ⟨rfl, -⟩ := performs_done.1 h
    exact accounted_nil
  bind {α β p q f g} hp hf history ended h := by
    obtain ⟨a, first, second, rfl, hfirst, hsecond⟩ := performs_bind.1 h
    have hrest : Accounted 0 second := by
      cases a with
      | none =>
        obtain ⟨rfl, -⟩ := performs_done.1 hsecond
        exact accounted_nil
      | some a => exact hf a second ended hsecond
    exact (hp first _ hfirst).append hrest

end Counted

abbrev CountedWork (α : Type) : Type := ExceptT GatewayError (OptionT (Program countedInterface)) α

namespace CountedWork

def ofWork (x : Work α) : CountedWork α := ExceptT.mk (OptionT.mk (Counted.lifted x.run.run))

/-- Says that the script of a nested call was loaded. -/
def loaded (call : NestedCall) : CountedWork Unit :=
  ExceptT.lift (OptionT.lift (Program.ask (I := countedInterface) (.loaded call)))

def print (text : ByteArray) : OptionT (Program countedInterface) Unit :=
  OptionT.mk (Counted.lifted (Gateway.printing text).run)

/-- An interpreter in which nested calls are answered with the words. -/
def runWith (fuel : Nat)
    (answers : ByteArray → NestedCall → OptionT (Program countedInterface) (Except String Parcel))
    (script : ByteArray) (argument : Parcel) : CountedWork Parcel := do
  let circumstances ← ofWork (Work.ofPlatform .ofEngine Platform.admitInterpreter)
  interpreted print fuel answers script argument circumstances

end CountedWork

namespace Gateway

open CountedWork (ofWork)

/-- `Gateway.run` with the words: one is said where the script of a nested call
was loaded and is about to be run. -/
def counted (g : Gateway) (fuel : Nat) : Nat → ByteArray → Parcel → CountedWork Parcel
  | 0, script, argument =>
    CountedWork.runWith fuel
      (fun printed _ => reported (CountedWork.print printed) (throw (.recursionLimit g.depthLimit)))
      script argument
  | levels + 1, script, argument =>
    CountedWork.runWith fuel (fun printed call => reported (CountedWork.print printed) do
      let body ← ofWork (g.loadScript call.name.toUTF8)
      CountedWork.loaded call
      g.counted fuel levels body call.argument) script argument

def countedRequest (g : Gateway) (fuel : Nat) (x : RunSlots) (isSaved : Bool) :
    CountedWork Parcel := do
  let argument ← ofWork (Work.ofExcept (g.argument x))
  let script ← ofWork (g.requestedScript x isSaved)
  g.counted fuel g.depthLimit script argument

/-- A command that runs a script, with the words. -/
def countedCommand (g : Gateway) (fuel : Nat) (x : RunSlots) (isSaved : Bool) :
    OptionT (Program countedInterface) (Except GatewayError Unit × Slots) := do
  return g.concluded x (← (g.countedRequest fuel x isSaved).run)

theorem erased_counted_print (text : ByteArray) :
    Counted.erasure.Rel (CountedWork.print text) (printing text) :=
  Counted.erased_lifted (printing text).run

theorem erased_runWith_counted (fuel : Nat)
    {answers : ByteArray → NestedCall → OptionT (Program countedInterface) (Except String Parcel)}
    {answers' : Answers}
    (h : ∀ printed call, Counted.erasure.Rel (answers printed call) (answers' printed call))
    (script : ByteArray) (argument : Parcel) :
    Counted.erasure.Rel (CountedWork.runWith fuel answers script argument).run
      (runWith fuel answers' script argument).run := by
  have hadmit : Counted.erasure.Rel
      (ofWork (Work.ofPlatform .ofEngine Platform.admitInterpreter)).run
      (Work.ofPlatform .ofEngine Platform.admitInterpreter).run := Counted.erased_lifted _
  rw [runWith_eq]
  refine Counted.erasure.bindExcept hadmit fun circumstances => ?_
  exact Counted.erasure.interpreted erased_counted_print h fuel script argument circumstances

theorem erased_counted (g : Gateway) (fuel levels : Nat) (script : ByteArray) (argument : Parcel) :
    Counted.erasure.Rel (g.counted fuel levels script argument).run
      (g.run fuel levels script argument).run := by
  induction levels generalizing script argument with
  | zero =>
    refine erased_runWith_counted fuel (fun printed call => ?_) script argument
    exact Counted.erasure.reported (erased_counted_print printed) rfl
  | succ levels ih =>
    refine erased_runWith_counted fuel (fun printed call => ?_) script argument
    refine Counted.erasure.reported (erased_counted_print printed) ?_
    exact Counted.erasure.bindExcept (Counted.erased_lifted _) fun body => ih body call.argument

theorem erased_countedCommand (g : Gateway) (fuel : Nat) (x : RunSlots) (isSaved : Bool) :
    Counted.erased (g.countedCommand fuel x isSaved).run =
      (g.dispatch fuel (runOf x isSaved).command.id (runOf x isSaved).slots).run := by
  have hrequest : Counted.erasure.Rel (g.countedRequest fuel x isSaved).run
      (g.runRequest fuel x isSaved).run := by
    rw [runRequest_eq]
    refine Counted.erasure.bindExcept (Counted.erased_lifted _) fun argument => ?_
    refine Counted.erasure.bindExcept (Counted.erased_lifted _) fun script => ?_
    exact g.erased_counted fuel g.depthLimit script argument
  rw [g.dispatch_request, g.carryOut_runOf]
  have hcommand := Counted.erasure.bind hrequest fun ended =>
    Counted.erasure.pure (g.concluded x ended)
  exact hcommand.trans (Program.map_run _ (g.concluded x))

def ofRead (text : String) : Except StoreError (Option ByteArray) → Except GatewayError ByteArray
  | .error e => .error (.ofStore e)
  | .ok none => .error (.ofStore (.notFound text))
  | .ok (some body) => .ok body

/-- A script is loaded by one read that finds the record of its name. -/
theorem performs_loadScript (g : Gateway) (name : ByteArray)
    {history : List (Event platformInterface)} {ended : Option (Except GatewayError ByteArray)}
    (h : Performs (g.loadScript name).run.run history (.done ended)) :
    (∃ e, ended = some (.error e) ∧ Platform.found history = []) ∨
      ∃ text body, Scripts.checkName g.nameLimit name = .ok text ∧ ended = some (.ok body) ∧
        Platform.found history = [Scripts.recordId text] := by
  cases hname : Scripts.checkName g.nameLimit name with
  | error e =>
    have hload : (g.loadScript name).run.run = .done (some (.error (.ofStore e))) := by
      rw [loadScript, Scripts.load, hname]
      rfl
    rw [hload] at h
    obtain ⟨rfl, rfl⟩ := performs_done.1 h
    exact .inl ⟨_, rfl, rfl⟩
  | ok text =>
    have hload : (g.loadScript name).run.run = Program.perform (I := platformInterface)
        (PlatformOp.storage (.openRead (Scripts.recordId text))) fun x =>
          .done (some (ofRead text x)) := by
      rw [loadScript, Scripts.load, hname]
      refine congrArg (Program.perform (I := platformInterface) _) (funext fun x => ?_)
      rcases x with e | _ | body <;> rfl
    rw [hload] at h
    cases h with
    | @step op k x history rest later =>
      obtain ⟨rfl, rfl⟩ := performs_done.1 later
      rcases x with e | _ | body
      · exact .inl ⟨_, rfl, rfl⟩
      · exact .inl ⟨_, rfl, rfl⟩
      · exact .inr ⟨text, body, rfl, rfl, rfl⟩

theorem loadScript_asks_for_none (g : Gateway) (name : ByteArray)
    {history : List (Event platformInterface)} {ended : Option (Except GatewayError ByteArray)}
    (h : Performs (g.loadScript name).run.run history (.done ended)) :
    Platform.AsksForNone history := by
  have honly : Only (I := platformInterface) (fun op => op ≠ PlatformOp.admitInterpreter)
      (g.loadScript name).run.run :=
    loadScript_only (fun _ => nofun) g name
  exact Platform.asksForNone_of_ne_admit (honly.of_performs h)

theorem accounted_print (text : ByteArray) :
    Counted.accounts.Rel (CountedWork.print text) failure := by
  intro history ended h
  obtain ⟨hprinting, hnone⟩ := Counted.performs_lifted h
  have prints : Only (I := platformInterface) (fun op => ∃ text, op = PlatformOp.print text)
      (printing text).run :=
    printing_only (fun text => ⟨text, rfl⟩) text
  have printed := prints.of_performs hprinting
  refine Counted.accounted_of_none (Platform.asksForNone_of_ne_admit fun e there => ?_) hnone
    (Platform.found_printed printed)
  obtain ⟨text, hop⟩ := printed e there
  rw [hop]
  exact nofun

theorem run_admitted (x : Lua.Circumstances → CountedWork α) :
    (do x (← ofWork
      (Work.ofPlatform .ofEngine Platform.admitInterpreter)) : CountedWork α).run.run =
      Program.perform (I := countedInterface) (CountedOp.platform .admitInterpreter) fun admitted =>
        match admitted with
        | .error e => .done (some (.error (.ofEngine e)))
        | .ok circumstances => (x circumstances).run.run := by
  refine congrArg (Program.perform (I := countedInterface) _) (funext fun admitted => ?_)
  cases admitted with
  | error e => rfl
  | ok u => rfl

/-- An interpreter asks for one, and the answers to its calls are accounted for. -/
theorem accounted_runWith
    {answers : ByteArray → NestedCall → OptionT (Program countedInterface) (Except String Parcel)}
    (hanswers : ∀ printed call, Counted.accounts.Rel (answers printed call) failure)
    (fuel : Nat) (script : ByteArray) (argument : Parcel) {history : List (Event countedInterface)}
    {ended : Option (Except GatewayError Parcel)}
    (h : Performs (CountedWork.runWith fuel answers script argument).run.run
      history (.done ended)) :
    Counted.Accounted 1 history := by
  rw [CountedWork.runWith, run_admitted] at h
  cases h with
  | @step op k x history rest later =>
    have hrest : Counted.Accounted 0 history := by
      cases x with
      | error e =>
        obtain ⟨rfl, -⟩ := performs_done.1 later
        exact Counted.accounted_nil
      | ok circumstances =>
        have hrun :=
          Counted.accounts.interpreted accounted_print hanswers fuel script argument circumstances
        exact hrun history ended later
    exact hrest.admit x

/-- A run asks for one interpreter beyond those of the calls that it has loaded, by
induction on the levels that are left. -/
theorem accounted_counted (g : Gateway) (fuel levels : Nat) (script : ByteArray) (argument : Parcel)
    {history : List (Event countedInterface)} {ended : Option (Except GatewayError Parcel)}
    (h : Performs (g.counted fuel levels script argument).run.run history (.done ended)) :
    Counted.Accounted 1 history := by
  induction levels generalizing script argument history ended with
  | zero =>
    refine accounted_runWith (fun printed call => ?_) fuel script argument h
    exact Counted.accounts.reported (accounted_print printed) (Counted.accounts.pure _)
  | succ levels ih =>
    refine accounted_runWith (fun printed call => ?_) fuel script argument h
    have hcall : Counted.accounts.Rel (do
        let body ← ofWork (g.loadScript call.name.toUTF8)
        CountedWork.loaded call
        g.counted fuel levels body call.argument : CountedWork Parcel).run failure := by
      intro history ended h
      obtain ⟨result, first, second, rfl, hfirst, hsecond⟩ := performs_bindExcept h
      obtain ⟨hload, hnone⟩ := Counted.performs_lifted hfirst
      have hasked := g.loadScript_asks_for_none _ hload
      rcases g.performs_loadScript _ hload with ⟨e, rfl, hfound⟩ | ⟨text, body, hname, rfl, hfound⟩
      · obtain ⟨rfl, -⟩ := hsecond
        rw [List.append_nil]
        exact Counted.accounted_of_none hasked hnone hfound
      · obtain rfl : text = call.name := String.toByteArray_inj.1 (Scripts.checkName_eq_ok hname)
        cases hsecond with
        | step later =>
          exact Counted.Accounted.loaded hasked hnone hfound (ih body call.argument later)
    exact Counted.accounts.reported (accounted_print printed) hcall

/-- A request to run is refused before anything is run: its argument is not read,
or it is and the script is not opened or not loaded. -/
inductive Refuses (g : Gateway) (x : RunSlots) (isSaved : Bool) :
    List (Event platformInterface) → GatewayError → Prop
  | argument {e : GatewayError} (refused : g.argument x = .error e) : Refuses g x isSaved [] e
  | script {argument : Parcel} {history : List (Event platformInterface)} {e : GatewayError}
      (read : g.argument x = .ok argument)
      (refused : Performs (g.requestedScript x isSaved).run.run history (.done (some (.error e)))) :
      Refuses g x isSaved history e

theorem requestedScript_asks_for_none (g : Gateway) (x : RunSlots) (isSaved : Bool)
    {history : List (Event platformInterface)} {ended : Option (Except GatewayError ByteArray)}
    (h : Performs (g.requestedScript x isSaved).run.run history (.done ended)) :
    Platform.AsksForNone history ∧ ended ≠ none := by
  refine ⟨Platform.asksForNone_of_ne_admit ((g.requestedScript_only x isSaved).of_performs h), ?_⟩
  cases isSaved with
  | false =>
    obtain ⟨-, rfl⟩ := performs_done.1 h
    exact nofun
  | true =>
    rcases g.performs_loadScript _ h with ⟨e, rfl, -⟩ | ⟨text, body, -, rfl, -⟩
    · exact nofun
    · exact nofun

theorem Refuses.asks_for_none {g : Gateway} {x : RunSlots} {isSaved : Bool}
    {history : List (Event platformInterface)}
    {e : GatewayError} (h : g.Refuses x isSaved history e) : Platform.AsksForNone history := by
  cases h with
  | argument refused => exact ⟨rfl, rfl⟩
  | script read refused => exact (g.requestedScript_asks_for_none x isSaved refused).1

theorem performs_countedRequest (g : Gateway) (fuel : Nat) (x : RunSlots) (isSaved : Bool)
    {history : List (Event countedInterface)} {ended : Option (Except GatewayError Parcel)}
    (h : Performs (g.countedRequest fuel x isSaved).run.run history (.done ended)) :
    (∃ e, g.Refuses x isSaved (Counted.platformEvents history) e ∧ ended = some (.error e) ∧
      Counted.loadedCalls history = []) ∨
    ∃ argument script first rest, g.argument x = .ok argument ∧ history = first ++ rest ∧
      Performs (g.requestedScript x isSaved).run.run (Counted.platformEvents first)
        (.done (some (.ok script))) ∧
      Counted.loadedCalls first = [] ∧
      Performs (g.counted fuel g.depthLimit script argument).run.run rest (.done ended) := by
  obtain ⟨result, first, second, rfl, hfirst, hsecond⟩ := performs_bindExcept h
  obtain ⟨rfl, rfl⟩ := performs_done.1 hfirst
  rw [List.nil_append]
  cases hargument : g.argument x with
  | error e =>
    rw [hargument] at hsecond
    obtain ⟨rfl, rfl⟩ := hsecond
    exact .inl ⟨e, .argument hargument, rfl, rfl⟩
  | ok argument =>
    rw [hargument] at hsecond
    obtain ⟨result, first, rest, rfl, hscript, hrest⟩ := performs_bindExcept hsecond
    obtain ⟨hperforms, hsilent⟩ := Counted.performs_lifted hscript
    match result with
    | none => exact absurd rfl (g.requestedScript_asks_for_none x isSaved hperforms).2
    | some (.error e) =>
      obtain ⟨rfl, rfl⟩ := hrest
      rw [List.append_nil]
      exact .inl ⟨e, .script hargument hperforms, rfl, hsilent⟩
    | some (.ok script) =>
      exact .inr ⟨argument, script, first, rest, rfl, rfl, hperforms, hsilent, hrest⟩

theorem exists_performs_countedCommand (g : Gateway) (fuel : Nat) (x : RunSlots) (isSaved : Bool)
    {events : List (Event platformInterface)} {ended : Option (Except GatewayError Unit × Slots)}
    (h : Performs (g.dispatch fuel (runOf x isSaved).command.id (runOf x isSaved).slots).run events
      (.done ended)) :
    ∃ history, Performs (g.countedCommand fuel x isSaved).run history (.done ended) ∧
      Counted.platformEvents history = events := by
  rw [← g.erased_countedCommand] at h
  exact Counted.exists_performs_of_erased h

/-- A command does what its request asks for, and then puts down the result. -/
theorem performs_countedCommand (g : Gateway) (fuel : Nat) (x : RunSlots) (isSaved : Bool)
    {history : List (Event countedInterface)} {ended : Option (Except GatewayError Unit × Slots)}
    (h : Performs (g.countedCommand fuel x isSaved).run history (.done ended)) :
    ∃ result, Performs (g.countedRequest fuel x isSaved).run.run history (.done result) ∧
      ended = result.map (g.concluded x) := by
  obtain ⟨result, first, second, rfl, hfirst, hsecond⟩ := performs_bind.1 h
  refine ⟨result, ?_⟩
  cases result with
  | none =>
    obtain ⟨rfl, rfl⟩ := performs_done.1 hsecond
    exact ⟨by rwa [List.append_nil], rfl⟩
  | some result =>
    obtain ⟨rfl, rfl⟩ := performs_done.1 hsecond
    exact ⟨by rwa [List.append_nil], rfl⟩

/-- A call performs nothing, or its slots hold what is to be saved or run. -/
theorem dispatch_cases (g : Gateway) (fuel : Nat) (id : UInt32) (slots : Slots) :
    (∃ reason, g.dispatch fuel id slots = pure (.error (.badParameters reason), slots)) ∨
      (∃ x : SaveSlots, id = Command.save.id ∧ slots = x.slots) ∨
      ∃ x isSaved, id = (runOf x isSaved).command.id ∧ slots = (runOf x isSaved).slots := by
  by_cases known : ∃ c : Command, id = c.id
  · obtain ⟨c, rfl⟩ := known
    by_cases htypes : slots.types = c.signature
    · obtain ⟨r, rfl, rfl⟩ := Request.exists_of_types htypes
      cases r with
      | runInline x => exact .inr (.inr ⟨x, false, rfl, rfl⟩)
      | runSaved x => exact .inr (.inr ⟨x, true, rfl, rfl⟩)
      | save x => exact .inr (.inl ⟨x, rfl, rfl⟩)
    · exact .inl ⟨_, g.dispatch_mismatch fuel c htypes⟩
  · exact .inl ⟨_, g.dispatch_unknown fuel slots fun c heq => known ⟨c, heq⟩⟩

theorem save_only (g : Gateway) (name script : ByteArray) (isSealed : Bool) :
    Only (I := platformInterface) (fun op => op ≠ PlatformOp.admitInterpreter)
      (g.save name script isSealed).run.run := by
  refine Only.bindExcept (Work.ofExcept_only _) fun checked => ?_
  refine Only.bindExcept (Work.ofExcept_only _) fun body => ?_
  exact Work.ofPlatform_only (Scripts.save_only (fun _ => nofun) nofun g.nameLimit name body)

theorem save_asks_for_none (g : Gateway) (fuel : Nat) (x : SaveSlots)
    {history : List (Event platformInterface)} {ended : Option (Except GatewayError Unit × Slots)}
    (h : Performs (g.dispatch fuel Command.save.id x.slots).run history (.done ended)) :
    Platform.AsksForNone history := by
  have honly : Only (I := platformInterface) (fun op => op ≠ PlatformOp.admitInterpreter)
      (g.carryOut fuel (.save x)).run :=
    Only.bindOption (g.save_only x.name x.script (x.mode.a != 0)) fun _ => .done _
  have hrequest : g.dispatch fuel Command.save.id x.slots = g.carryOut fuel (.save x) :=
    g.dispatch_request fuel (.save x)
  rw [hrequest] at h
  exact Platform.asksForNone_of_ne_admit (honly.of_performs h)

theorem marshalled_only :
    Only (I := stackInterface NestedCall) (fun op => ∀ call, op ≠ HostOp.question call)
    marshalled.run := by
  have hop : ∀ op,
      Only (I := stackInterface NestedCall) (fun op => ∀ call, op ≠ HostOp.question call)
      (Evaluation.op (Q := NestedCall) op).run := fun op => Program.only_ask fun _ => nofun
  have hencode : Only (I := stackInterface NestedCall) (fun op => ∀ call, op ≠ HostOp.question call)
      (encode (Q := NestedCall)).run := by
    refine Only.bindResult (hop _) fun kind => ?_
    cases kind with
    | integer => exact Only.bindResult (hop _) fun _ => .done _
    | text => exact Only.bindResult (hop _) fun _ => .done _
    | other =>
      refine Only.bindResult (hop _) fun _ => Only.bindResult (hop _) fun _ => ?_
      exact Only.bindResult (hop _) fun _ => Only.bindResult (hop _) fun _ => .done _
  exact Only.bindResult hencode fun _ => Only.bindResult (hop _) fun _ => .done _

/-- A nested call is over when its argument and its name cannot be taken;
otherwise it is answered. -/
theorem evaluate_hostCall {m : Type → Type} [Monad m] [LawfulMonad m]
    (around : Surroundings NestedCall m)
    (run : Lua.Machine → OptionT m Outcome) (outer : Lua.Depth) (s : Stack) :
    (around.evaluate run outer hostCall).run s = (do
      match ← (around.evaluate run outer marshalled).run s with
      | (.error e, t) => return (.error e, t)
      | (.ok call, t) => (around.evaluate run outer (answerOf call)).run t) := by
  rw [hostCall_eq, Surroundings.evaluate_bind]
  congr 1
  funext ended
  obtain ⟨taken, t⟩ := ended
  cases taken with
  | error e => rfl
  | ok call => rfl

/-- The work for a nested call below the limit is the loading of its script, and
then, if that succeeds, the run of it. -/
theorem performs_callAt (g : Gateway) (fuel : Nat) {depth : Nat} (hdepth : depth < g.depthLimit)
    (call : NestedCall)
    {history : List (Event platformInterface)} {ended : Option (Except GatewayError Parcel)}
    (h : Performs (g.callAt fuel depth call).run.run history (.done ended)) :
    ∃ first rest, history = first ++ rest ∧ Platform.AsksForNone first ∧
      ((∃ e, Performs (g.loadScript call.name.toUTF8).run.run first
        (.done (some (.error e))) ∧ rest = [] ∧
          ended = some (.error e)) ∨
        ∃ body, Performs (g.loadScript call.name.toUTF8).run.run first (.done (some (.ok body))) ∧
          Performs (g.run fuel (g.depthLimit - depth - 1) body call.argument).run.run
            rest (.done ended)) := by
  rw [g.callAt_below fuel hdepth] at h
  obtain ⟨result, first, rest, rfl, hfirst, hrest⟩ := performs_bindExcept h
  refine ⟨first, rest, rfl, g.loadScript_asks_for_none _ hfirst, ?_⟩
  rcases g.performs_loadScript _ hfirst with ⟨e, rfl, -⟩ | ⟨text, body, -, rfl, -⟩
  · exact .inl ⟨e, hfirst, hrest⟩
  · exact .inr ⟨body, hfirst, hrest⟩

/-- Interpreters are made for runs, and for nothing else.

First, a call is refused for its number or its slots and performs nothing, or its
slots hold what is to be saved or run.  Second, saving asks for no interpreter.
Third, a command that runs a script is its counted form without the words, and
whatever it performs, the counted form performs with them.  The latter is refused
before anything is run, for the argument, the payload, the name, the record or
storage, with no interpreter asked for, or it obtains the script with none asked
for.  Then the interpreters that are made, and any that are refused, are one more
than the nested calls whose scripts were loaded, over the whole tree of calls, and
these are the calls whose records were found.

The rest is what becomes of a nested call.  Fourth, a call whose argument or
name cannot be taken is over, and taking them puts no question.  Fifth, a script
at a depth has its calls answered by the work for that depth.  That work performs
nothing at the limit; below it, it loads the script and asks for no interpreter,
and is over if that fails. -/
theorem interpreters_match_loaded_calls (g : Gateway) (fuel : Nat) :
    (∀ id slots,
        (∃ reason, g.dispatch fuel id slots = pure (.error (.badParameters reason), slots)) ∨
          (∃ x : SaveSlots, id = Command.save.id ∧ slots = x.slots) ∨
          ∃ x isSaved, id = (runOf x isSaved).command.id ∧ slots = (runOf x isSaved).slots) ∧
      (∀ (x : SaveSlots) history ended,
        Performs (g.dispatch fuel Command.save.id x.slots).run history (.done ended) →
          Platform.AsksForNone history) ∧
      (∀ (x : RunSlots) isSaved,
        Counted.erased (g.countedCommand fuel x isSaved).run =
            (g.dispatch fuel (runOf x isSaved).command.id (runOf x isSaved).slots).run ∧
          (∀ events ended,
            Performs (g.dispatch fuel (runOf x isSaved).command.id (runOf x isSaved).slots).run
              events (.done ended) →
              ∃ history, Performs (g.countedCommand fuel x isSaved).run history (.done ended) ∧
                Counted.platformEvents history = events) ∧
          ∀ history ended, Performs (g.countedCommand fuel x isSaved).run history (.done ended) →
            let events := Counted.platformEvents history
            let calls := Counted.loadedCalls history
            (∃ e, g.Refuses x isSaved events e ∧ ended = some (.error e, x.slots) ∧
                Platform.AsksForNone events ∧ calls = []) ∨
              ∃ argument script first rest, g.argument x = .ok argument ∧ events = first ++ rest ∧
                Performs (g.requestedScript x isSaved).run.run first (.done (some (.ok script))) ∧
                Platform.AsksForNone first ∧
                Platform.made rest + Platform.denied rest = 1 + calls.length ∧
                Platform.found rest = calls.map fun call => Scripts.recordId call.name) ∧
      ((∀ functions answers run outer s,
        let around : Surroundings NestedCall (Program platformInterface) := ⟨functions, answers⟩
        (around.evaluate run outer hostCall).run s = (do
          match ← (around.evaluate run outer marshalled).run s with
          | (.error e, t) => return (.error e, t)
          | (.ok call, t) => (around.evaluate run outer (answerOf call)).run t)) ∧
        Only (I := stackInterface NestedCall) (fun op => ∀ call, op ≠ HostOp.question call)
          marshalled.run) ∧
      ∀ depth ≤ g.depthLimit,
        (∀ script argument, g.run fuel (g.depthLimit - depth) script argument =
          runWith fuel (g.answersAt fuel depth) script argument) ∧
        ∀ call history ended, Performs (g.callAt fuel depth call).run.run history (.done ended) →
          (depth = g.depthLimit → history = [] ∧
          ended = some (.error (.recursionLimit g.depthLimit))) ∧
          (depth < g.depthLimit →
            ∃ first rest, history = first ++ rest ∧ Platform.AsksForNone first ∧
              ((∃ e, Performs (g.loadScript call.name.toUTF8).run.run first
                (.done (some (.error e))) ∧ rest = [] ∧
                  ended = some (.error e)) ∨
                ∃ body, Performs (g.loadScript call.name.toUTF8).run.run first
                  (.done (some (.ok body))) ∧
                  Performs (g.run fuel (g.depthLimit - depth - 1) body call.argument).run.run
                    rest (.done ended))) := by
  refine ⟨fun id slots => g.dispatch_cases fuel id slots, fun x _ _ h =>
    g.save_asks_for_none fuel x h,
    fun x isSaved => ⟨g.erased_countedCommand fuel x isSaved,
      fun events ended h => g.exists_performs_countedCommand fuel x isSaved h,
      fun history ended h => ?_⟩,
    ⟨fun functions answers run outer s => evaluate_hostCall _ run outer s, marshalled_only⟩,
    fun depth hdepth => ⟨fun script argument => g.run_eq_runWith fuel hdepth script argument,
      fun call history ended h =>
        ⟨fun hlimit => ?_, fun hbelow => g.performs_callAt fuel hbelow call h⟩⟩⟩
  · obtain ⟨result, hrequest, rfl⟩ := g.performs_countedCommand fuel x isSaved h
    rcases g.performs_countedRequest fuel x isSaved hrequest with
      ⟨e, hrefuses, rfl, hsilent⟩ | ⟨argument, script, first, rest, hargument,
        rfl, hscript, hsilent, hrun⟩
    · exact .inl ⟨e, hrefuses, rfl, hrefuses.asks_for_none, hsilent⟩
    · have haccounted := g.accounted_counted fuel g.depthLimit script argument hrun
      have hcalls : Counted.loadedCalls (first ++ rest) = Counted.loadedCalls rest := by
        rw [Counted.loadedCalls_append, hsilent, List.nil_append]
      refine .inr ⟨argument, script, Counted.platformEvents first,
        Counted.platformEvents rest, hargument,
        Counted.platformEvents_append first rest, hscript,
        (g.requestedScript_asks_for_none x isSaved hscript).1, ?_⟩
      simp only [hcalls]
      exact ⟨haccounted.interpreters, haccounted.records⟩
  · rw [g.callAt_limit fuel (Nat.le_of_eq hlimit.symm)] at h
    exact performs_done.1 h

end Gateway
end SealedLua
