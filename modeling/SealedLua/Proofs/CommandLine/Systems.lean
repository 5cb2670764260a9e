import SealedLua.Proofs.Always
import SealedLua.Proofs.CommandLine.Jobs
import SealedLua.Proofs.Gateway.Documents

/-!
# The program on an operating system

An operating system answers what the program asks for, with effects on a state
of its own.  A gateway that the program starts is in a process on the system:
it is run there as it is run on any other platform (`comesTo_hosted`).  What a
job comes to is found out part by part.
-/

namespace SealedLua

open Program (ComesTo)

variable {α β σ : Type}

namespace Program

variable {I J : Interface}

/-- A program whose operations are programs is run by running those. -/
theorem run_run {m : Type → Type} [Monad m] [LawfulMonad m]
    (f : (op : I.Op) → Program J (I.Answer op))
    (answer : (op : J.Op) → m (J.Answer op)) (p : Program I α) :
    (Program.run f p).run answer = p.run fun op => (f op).run answer := by
  induction p with
  | done a => rfl
  | perform op k ih => exact (run_bind answer (f op) _).trans (bind_congr ih)

end Program

namespace Process

open CommandLine (SystemOp systemInterface)
open CommandLine.Job (askFile)

variable (answer : (op : SystemOp) → StateM σ op.Answer)

/-- Answers an operation on files. -/
def files (op : FileOp) : StateM σ op.Answer := answer (.file op)

/-- Answers what a gateway asks of a process that is on the system. -/
def onSystem (op : PlatformOp) : StateM (Process × σ) op.Answer := fun (p, s) =>
  let ((x, p), s) := ((Process.answer (files answer) op).run p).run s
  (x, (p, s))

theorem run_askFile (q : Program fileInterface α) :
    (q.run (I := fileInterface) askFile).run (I := systemInterface) answer =
      q.run (I := fileInterface) (files answer) := by
  refine (Program.run_run (J := systemInterface) askFile answer q).trans ?_
  exact congrArg (fun answers => q.run (I := fileInterface) answers) (funext fun op =>
    bind_pure (files answer op))

theorem run_answer (op : PlatformOp) (p : Process) (s : σ) :
    (((Process.answer askFile op).run p).run (I := systemInterface) answer).run s =
      ((Process.answer (files answer) op).run p).run s := by
  obtain ⟨root, memory, serial⟩ := p
  cases op with
  | drawSerial | admitInterpreter | print => rfl
  | storage op =>
    cases root with
    | none => rfl
    | some root =>
      have performed := run_askFile answer (Directory.perform root op)
      refine (Program.run_bind_run (I := systemInterface) _ _ s).trans ?_
      rw [performed]
      rfl

theorem run_start (circumstances : Nat → Lua.Circumstances) (c : Configuration) :
    (Process.start askFile circumstances c).run (I := systemInterface) answer =
      Process.start (files answer) circumstances c := by
  unfold Process.start
  cases c.storageRoot with
  | none => rfl
  | some root =>
    refine (Program.run_bind (I := systemInterface) answer _ _).trans ?_
    rw [run_askFile]
    rfl

theorem run_work (work : Platform α) (p : Process) (s : σ) :
    (((work.run (I := platformInterface) (Process.answer askFile)).run p).run
      (I := systemInterface) answer).run s =
      let (a, (p', s')) := (work.run (I := platformInterface) (onSystem answer)).run (p, s)
      ((a, p'), s') := by
  induction work generalizing p s with
  | done a => rfl
  | perform op k ih =>
    have first := run_answer answer op p s
    let rest := fun r : (PlatformOp.Answer op × Process) × σ =>
      ((((k r.1.1).run (I := platformInterface) (Process.answer askFile)).run r.1.2).run
        (I := systemInterface) answer).run r.2
    refine (Program.run_bind_run (I := systemInterface) _ _ s).trans ?_
    exact (congrArg rest first).trans (ih _ _ _)

end Process

namespace CommandLine.Job

section Ends

variable (answer : (op : SystemOp) → StateM σ op.Answer)

/-- From what is printed and a state, a job comes to this end and leaves more
printed and another state. -/
def Ends (x : Job α) (s : ByteArray × σ) (ended : Except Failure α) (t : ByteArray × σ) : Prop :=
  ComesTo (I := systemInterface) answer (x.run.run s.1) s.2 (ended, t.1) t.2

variable {answer} {x : Job α} {f : α → Job β} {s t u : ByteArray × σ} {ended : Except Failure β}

theorem ends_bind_ok {a : α} (first : Ends answer x s (.ok a) u) :
    Ends answer (x >>= f) s ended t ↔ Ends answer (f a) u ended t :=
  Program.comesTo_bind_of (I := systemInterface) first

theorem ends_ofExcept {r first : Except Failure α} :
    Ends answer (ofExcept r) s first t ↔ first = r ∧ t = s := by
  refine (Program.comesTo_pure (I := systemInterface)).trans ?_
  rw [Prod.mk.injEq, and_assoc, ← Prod.ext_iff]

theorem ends_pure {a : α} {r : Except Failure α} : Ends answer (pure a) s r t ↔ r = .ok a ∧ t = s :=
  ends_ofExcept (r := .ok a)

theorem ends_bind_error {e : Failure} (first : Ends answer x s (.error e) u) :
    Ends answer (x >>= f) s ended t ↔ ended = .error e ∧ t = u :=
  (Program.comesTo_bind_of (I := systemInterface) first).trans (ends_ofExcept (r := .error e))

theorem ends_ofProgram {ε : Type} (convert : ε → Failure) {p : Program systemInterface (Except ε α)}
    {r : Except ε α}
    {before after : σ} (ran : (p.run answer).run before = (r, after)) (printed : ByteArray) :
    Ends answer (ofProgram convert p) (printed, before) (r.mapError convert) (printed, after) := by
  have mapped :
    ((p.bind fun r => .done (r.mapError convert)).run (I := systemInterface) answer).run before =
      (r.mapError convert, after) := by
    refine (Program.run_bind_run (I := systemInterface) p _ before).trans ?_
    rw [ran]
    rfl
  have lifted : ComesTo (I := systemInterface) answer
      (OptionT.lift (p.bind fun r => .done (r.mapError convert))) before
      (r.mapError convert) after := by
    refine (Program.run_bind_run (I := systemInterface) _ _ before).trans ?_
    exact congrArg (fun r => (some r.1, r.2)) mapped
  exact (Program.comesTo_map (I := systemInterface)).2 ⟨_, lifted, rfl⟩

/-- Work that cannot fail comes to a result, and with this the job goes on. -/
theorem ends_lift_bind {work : StateT ByteArray (OptionT (Program systemInterface)) α} :
    Ends answer (ExceptT.lift work >>= f) s ended t ↔
      ∃ a u, ComesTo (I := systemInterface) answer (work s.1) s.2 (a, u.1) u.2 ∧
        Ends answer (f a) u ended t := by
  unfold Ends
  rw [ExceptT.run_bind_lift]
  refine (Program.comesTo_bind (I := systemInterface)).trans ?_
  constructor
  · rintro ⟨⟨a, printed⟩, after, worked, rest⟩
    exact ⟨a, (printed, after), worked, rest⟩
  · rintro ⟨a, u, worked, rest⟩
    exact ⟨(a, u.1), u.2, worked, rest⟩

theorem comesTo_hosted {p : Process} {work : OptionT (Program platformInterface) α} {a : α}
    {printed all : ByteArray} {before after : σ} :
    ComesTo (I := systemInterface) answer (hosted p work printed) before (a, all) after ↔
      ∃ p', ComesTo (I := platformInterface) (Process.onSystem answer) work
        (p, before) a (p', after) ∧
        all = printed ++ p'.printed := by
  have ran := Process.run_work answer work.run p before
  have whole : ((hosted p work printed).run.run (I := systemInterface) answer).run before =
      (((work.run.run (I := platformInterface) (Process.onSystem answer)).run
          (p, before)).1.map fun a =>
          (a, printed ++
            ((work.run.run (I := platformInterface) (Process.onSystem answer)).run
            (p, before)).2.1.printed),
        ((work.run.run (I := platformInterface) (Process.onSystem answer)).run
          (p, before)).2.2) := by
    refine (Program.run_bind_run (I := systemInterface) _ _ before).trans ?_
    exact congrArg (fun r : (Option α × Process) × σ =>
      (r.1.1.map fun a => (a, printed ++ r.1.2.printed), r.2)) ran
  unfold ComesTo
  rw [whole]
  obtain ⟨b, p', after'⟩ :=
    (work.run.run (I := platformInterface) (Process.onSystem answer)).run (p, before)
  constructor
  · intro same
    obtain ⟨result, rfl⟩ := Prod.mk.inj same
    obtain ⟨b, rfl, same⟩ := Option.map_eq_some_iff.1 result
    cases same
    exact ⟨p', rfl, rfl⟩
  · rintro ⟨_, ⟨⟩, rfl⟩
    rfl

variable {circumstances : Nat → Lua.Circumstances} {c : Configuration} {work : Work α}
  {g : Except GatewayError α → Job β}
  {e : StoreError} {p : Process} {printed all : ByteArray} {before after last : σ}

/-- Work in a process that starts, of which only the result is told. -/
theorem ends_inNewProcess
    (started : (Process.start (Process.files answer) circumstances c).run before = (.ok p, after))
    {tell : Except GatewayError α → Except Failure β}
    (tells : ∀ a v ended t, Ends answer (g a) v ended t ↔ ended = tell a ∧ t = v) :
    Ends answer (inNewProcess circumstances c work >>= g) (printed, before) ended (all, last) ↔
      ∃ a p', ComesTo (I := platformInterface) (Process.onSystem answer) work.run
        (p, after) a (p', last) ∧
        all = printed ++ p'.printed ∧ ended = tell a := by
  have ran :=
    (congrArg (fun x => x.run before) (Process.run_start answer circumstances c)).trans started
  have start := ends_ofProgram (fun e => .gateway (.ofStore e)) ran printed
  unfold inNewProcess
  rw [bind_assoc, ends_bind_ok start, ends_lift_bind]
  constructor
  · rintro ⟨a, v, worked, rest⟩
    obtain ⟨told, rfl⟩ := (tells a v ended _).1 rest
    obtain ⟨p', worked, prints⟩ := comesTo_hosted.1 worked
    exact ⟨a, p', worked, prints, told⟩
  · rintro ⟨a, p', worked, rfl, told⟩
    exact ⟨a, _, comesTo_hosted.2 ⟨p', worked, rfl⟩, (tells a _ ended _).2 ⟨told, rfl⟩⟩

theorem ends_inNewProcess_error
    (refused : (Process.start (Process.files answer) circumstances c).run before =
      (.error e, after)) :
    Ends answer (inNewProcess circumstances c work >>= g) (printed, before) ended t ↔
      ended = .error (.gateway (.ofStore e)) ∧ t = (printed, after) := by
  have ran :=
    (congrArg (fun x => x.run before) (Process.run_start answer circumstances c)).trans refused
  have start := ends_ofProgram (fun e => .gateway (.ofStore e)) ran printed
  unfold inNewProcess
  rw [bind_assoc]
  exact ends_bind_error start

theorem ends_readFile {path : String} {data : ByteArray}
    (found : (answer (.file (.read path))).run before = (Except.ok data, after)) :
    Ends answer (readFile path) (printed, before) (.ok data) (printed, after) := by
  have asked : ((askFile (.read path)).run (I := systemInterface) answer).run before =
      (Except.ok data, after) :=
    Program.run_ask_bind (I := systemInterface) found .done
  exact ends_ofProgram (.read path) asked printed

theorem ends_ofExcept_map {first : Except Failure α} {h : α → β} :
    Ends answer (do return h (← ofExcept first)) s ended t ↔ ended = first.map h ∧ t = s := by
  cases first with
  | ok a => exact (ends_bind_ok (ends_ofExcept.2 ⟨rfl, rfl⟩)).trans ends_pure
  | error e => exact ends_bind_error (ends_ofExcept.2 ⟨rfl, rfl⟩)

variable {fuel : Nat} {script name : String} {body : ByteArray}
  {argument : Parcel} {isSealed : Bool} {said : Except Failure String} {ready : σ}

/-- What comes of a run is told of what the gateway's run comes to. -/
theorem ends_run (found : (answer (.file (.read script))).run before = (Except.ok body, after))
    (fits : argument.content.toUTF8.size ≤ c.capacity)
    (started : (Process.start (Process.files answer) circumstances c).run after = (.ok p, ready)) :
    Ends answer (perform circumstances c fuel (.run script isSealed argument))
      (printed, before) said (all, last) ↔
      ∃ a p', ComesTo (I := platformInterface) (Process.onSystem answer)
          (c.toGateway.runInline fuel body isSealed argument).run (p, ready) a (p', last) ∧
        all = printed ++ p'.printed ∧ said = (told c .runInline a).map Parcel.display := by
  rw [perform_eq_direct, direct, ends_bind_ok (ends_readFile found), checkFits,
    if_neg (Nat.not_lt.2 fits), ends_bind_ok (ends_ofExcept.2 ⟨rfl, rfl⟩)]
  exact ends_inNewProcess started fun a v ended t => ends_ofExcept_map

theorem ends_runSaved (fits : argument.content.toUTF8.size ≤ c.capacity)
    (started : (Process.start (Process.files answer) circumstances c).run before = (.ok p, after)) :
    Ends answer (perform circumstances c fuel (.runSaved name argument))
      (printed, before) said (all, last) ↔
      ∃ a p', ComesTo (I := platformInterface) (Process.onSystem answer)
          (c.toGateway.runSaved fuel name.toUTF8 argument).run (p, after) a (p', last) ∧
        all = printed ++ p'.printed ∧ said = (told c .runSaved a).map Parcel.display := by
  rw [perform_eq_direct, direct, checkFits, if_neg (Nat.not_lt.2 fits),
    ends_bind_ok (ends_ofExcept.2 ⟨rfl, rfl⟩)]
  exact ends_inNewProcess started fun a v ended t => ends_ofExcept_map

theorem ends_save (found : (answer (.file (.read script))).run before = (Except.ok body, after))
    (started : (Process.start (Process.files answer) circumstances c).run after = (.ok p, ready)) :
    Ends answer (perform circumstances c fuel (.save name script isSealed))
      (printed, before) said (all, last) ↔
      ∃ a p', ComesTo (I := platformInterface) (Process.onSystem answer)
          (c.toGateway.save name.toUTF8 body isSealed).run (p, ready) a (p', last) ∧
        all = printed ++ p'.printed ∧
        said = (a.mapError fun e => Failure.command .save ⟨e.code, .trustedApp⟩).map fun _ =>
          "saved " ++ Quoted.text name := by
  rw [perform_eq_direct, direct, ends_bind_ok (ends_readFile found)]
  exact ends_inNewProcess started fun a v ended t => ends_ofExcept_map

theorem ends_run_refused
    (found : (answer (.file (.read script))).run before = (Except.ok body, after))
    (fits : argument.content.toUTF8.size ≤ c.capacity)
    (refused : (Process.start (Process.files answer) circumstances c).run after =
      (.error e, ready)) :
    Ends answer (perform circumstances c fuel (.run script isSealed argument))
      (printed, before) said t ↔
      said = .error (.gateway (.ofStore e)) ∧ t = (printed, ready) := by
  rw [perform_eq_direct, direct, ends_bind_ok (ends_readFile found), checkFits,
    if_neg (Nat.not_lt.2 fits), ends_bind_ok (ends_ofExcept.2 ⟨rfl, rfl⟩)]
  exact ends_inNewProcess_error refused

theorem ends_save_refused
    (found : (answer (.file (.read script))).run before = (Except.ok body, after))
    (refused : (Process.start (Process.files answer) circumstances c).run after =
      (.error e, ready)) :
    Ends answer (perform circumstances c fuel (.save name script isSealed))
      (printed, before) said t ↔
      said = .error (.gateway (.ofStore e)) ∧ t = (printed, ready) := by
  rw [perform_eq_direct, direct, ends_bind_ok (ends_readFile found)]
  exact ends_inNewProcess_error refused

/-- A request that is read from a line is carried out with the configuration in its file. -/
theorem ends_carryOut {line : Request.Line} {request : Request} {text : String}
    (read : Request.ofLine line = .ok request)
    (found : (answer (.file (.read request.configuration))).run before =
      (Except.ok text.toUTF8, after))
    (valid : Configuration.ofJson text = .ok c) :
    Ends answer (carryOut circumstances fuel line) (printed, before) said t ↔
      Ends answer (perform circumstances c fuel request.action) (printed, after) said t := by
  have requested : Ends answer (ofExcept ((Request.ofLine line).mapError .argument))
      (printed, before) (.ok request) (printed, before) := ends_ofExcept.2 ⟨by rw [read]; rfl, rfl⟩
  have asked :
    ((askFile (.read request.configuration)).run (I := systemInterface) answer).run before =
      (Except.ok text.toUTF8, after) := Program.run_ask_bind (I := systemInterface) found .done
  have document :=
    ends_ofProgram (fun e => .configuration request.configuration (.files e)) asked printed
  have configured : Ends answer (configuration request.configuration) (printed, before)
      (.ok c) (printed, after) := by
    refine (ends_bind_ok document).2 ?_
    rw [Parcel.fromUTF8?_toUTF8]
    exact ends_ofExcept.2 ⟨by rw [valid]; rfl, rfl⟩
  rw [carryOut, ends_bind_ok requested, ends_bind_ok configured]

end Ends

/-- All failures of a job are of some kind, whatever was printed before. -/
def Fails (P : Failure → Prop) (x : Job α) : Prop :=
  ∀ printed, Always (fun ended : Except Failure α × ByteArray => ∀ e, ended.1 = .error e →
    P e) (x.run.run printed)

section Fails

variable {P : Failure → Prop}

theorem fails_pure (a : α) : Fails P (pure a : Job α) := fun _ => always_pure fun _ => nofun

theorem fails_ofExcept {x : Except Failure α} (h : ∀ e, x = .error e → P e) :
    Fails P (ofExcept x) :=
  fun _ => always_pure h

theorem fails_lift (x : StateT ByteArray (OptionT (Program systemInterface)) α) :
    Fails P (ExceptT.lift x : Job α) := by
  intro printed
  rw [ExceptT.run_lift]
  exact (always_true (x printed)).map fun _ _ _ => nofun

theorem Fails.bind {x : Job α} {f : α → Job β} (first : Fails P x) (rest : ∀ a, Fails P (f a)) :
    Fails P (x >>= f) := by
  intro printed
  refine Always.bind (first printed) fun ended failed => ?_
  obtain ⟨ended, printed⟩ := ended
  cases ended with
  | ok a => exact rest a printed
  | error e =>
    refine always_pure fun _ same => ?_
    cases same
    exact failed e rfl

theorem always_lift_bind {P : β → Prop} {p : Program systemInterface α}
    {f : α → Program systemInterface β} {Q : α → Prop} (first : Always Q (OptionT.lift p))
    (rest : ∀ a, Q a → Always P (OptionT.lift (f a))) :
    Always P (OptionT.lift (p >>= f)) := by
  have split : OptionT.lift (p >>= f) = OptionT.lift p >>= fun a => OptionT.lift (f a) := by
    refine OptionT.ext ?_
    simp
  rw [split]
  exact first.bind rest

theorem fails_ofProgram {ε : Type} {convert : ε → Failure}
    {p : Program systemInterface (Except ε α)}
    (h : Always (fun x : Except ε α => ∀ e, x = .error e → P (convert e)) (OptionT.lift p)) :
    Fails P (ofProgram convert p) := by
  intro printed
  refine Always.map (always_lift_bind h fun x each => always_pure fun e same => ?_)
    fun x each => each
  cases x with
  | ok a => cases same
  | error e' =>
    cases same
    exact each e' rfl

theorem fails_ofProgram_any {ε : Type} {convert : ε → Failure}
    (p : Program systemInterface (Except ε α))
    (h : ∀ e, P (convert e)) : Fails P (ofProgram convert p) :=
  fails_ofProgram ((always_true _).mono fun _ _ e _ => h e)

end Fails

end CommandLine.Job

namespace CommandLine

/-- Failures of sessions, and of slots that are read after a command. -/
def Failure.OfBoundary : Failure → Prop
  | .opening _ | .closing _ | .malformed _ | .gateway (.badParameters _) => True
  | _ => False

namespace Job

theorem fails_start (circumstances : Nat → Lua.Circumstances) (c : Configuration) :
    Fails (fun e => ¬e.OfBoundary)
      (ofProgram (fun e => .gateway (.ofStore e)) (Process.start askFile circumstances c)) := by
  have files : ∀ root, Always (fun x : Except StoreError Unit => ∀ e, x = .error e →
      ∃ failure, e = .files failure)
      (OptionT.lift ((Directory.open root).run (I := fileInterface) askFile)) := by
    intro root
    refine always_lift_bind (p := askFile (.exists root)) (always_true _) fun found _ => ?_
    rcases found with failure | (_ | _)
    · exact always_pure fun _ same => ⟨failure, by cases same; rfl⟩
    · refine always_lift_bind (p := askFile (.makeDirectories root)) (always_true _)
        fun made _ => ?_
      rcases made with failure | _
      · exact always_pure fun _ same => ⟨failure, by cases same; rfl⟩
      · exact always_pure fun _ => nofun
    · exact always_pure fun _ => nofun
  refine fails_ofProgram ?_
  unfold Process.start
  cases c.storageRoot with
  | none => exact always_pure fun _ => nofun
  | some root =>
    refine always_lift_bind (files root) fun opened reason => always_pure fun e same => ?_
    cases opened with
    | ok u => cases same
    | error failure =>
      cases same
      obtain ⟨failure, rfl⟩ := reason _ rfl
      nofun

variable (circumstances : Nat → Lua.Circumstances)

theorem fails_inNewProcess (c : Configuration) (work : Work α) :
    Fails (fun e => ¬e.OfBoundary) (inNewProcess circumstances c work) :=
  (fails_start circumstances c).bind fun _ => fails_lift _

theorem fails_perform (c : Configuration) (fuel : Nat) (action : Action) :
    Fails (fun e => ¬e.OfBoundary) (perform circumstances c fuel action) := by
  have tells : ∀ command ended,
      Fails (fun e => ¬e.OfBoundary) (ofExcept (told c command ended)) := by
    intro command ended
    refine fails_ofExcept fun e failed => ?_
    unfold told at failed
    split at failed
    · split_ifs at failed
      cases failed
      nofun
    · cases failed
      nofun
  have fits : ∀ argument, Fails (fun e => ¬e.OfBoundary) (ofExcept (checkFits c argument)) := by
    intro argument
    refine fails_ofExcept fun e failed => ?_
    unfold checkFits at failed
    split_ifs at failed
    cases failed
    nofun
  have reads : ∀ path, Fails (fun e => ¬e.OfBoundary) (readFile path) := fun path =>
    fails_ofProgram_any _ fun e => nofun
  rw [perform_eq_direct]
  cases action with
  | sealFile input output =>
    have writes : ∀ payload,
        Fails (fun e => ¬e.OfBoundary) (writeFile output payload) := fun payload =>
      (fails_ofProgram_any _ fun e => nofun).bind fun _ => fails_ofProgram_any _ fun e => nofun
    refine (reads input).bind fun script =>
      (fails_ofProgram_any _ fun e => nofun).bind fun payload => ?_
    exact (writes payload).bind fun _ => fails_pure _
  | run script isSealed argument =>
    refine (reads script).bind fun body => (fits argument).bind fun _ => ?_
    exact (fails_inNewProcess circumstances c _).bind fun ended =>
      (tells _ ended).bind fun result => fails_pure _
  | save name script isSealed =>
    refine (reads script).bind fun body =>
      (fails_inNewProcess circumstances c _).bind fun ended => ?_
    refine (fails_ofExcept fun e failed => ?_).bind fun _ => fails_pure _
    cases ended with
    | ok _ => cases failed
    | error e =>
      cases failed
      nofun
  | runSaved name argument =>
    refine (fits argument).bind fun _ => ?_
    exact (fails_inNewProcess circumstances c _).bind fun ended =>
      (tells _ ended).bind fun result => fails_pure _

/-- Whatever is asked for, no session and no slot is what it fails at. -/
theorem fails_carryOut (fuel : Nat) (line : Request.Line) :
    Fails (fun e => ¬e.OfBoundary) (carryOut circumstances fuel line) := by
  have configured : ∀ path, Fails (fun e => ¬e.OfBoundary) (configuration path) := by
    intro path
    refine (fails_ofProgram_any _ fun e => nofun).bind fun document => ?_
    split
    · exact fails_ofExcept (x := .error _) fun e failed => by cases failed; nofun
    · next text valid =>
      refine fails_ofExcept fun e failed => ?_
      rcases Configuration.ofJson_total text with ⟨c, read⟩ | ⟨reason, read⟩
      · rw [read] at failed
        cases failed
      · rw [read] at failed
        cases failed
        nofun
  refine (fails_ofExcept fun e failed => ?_).bind fun request => (configured _).bind fun c =>
    fails_perform circumstances c fuel _
  cases read : Request.ofLine line with
  | ok request =>
    rw [read] at failed
    cases failed
  | error e =>
    rw [read] at failed
    cases failed
    nofun

end Job
end CommandLine
end SealedLua
