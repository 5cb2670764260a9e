import SealedLua.Program

/-!
# What programs come to

A platform answers operations with effects on a state of its own.  `ComesTo`
says that a program that may run out of fuel gets through from one state, with
its result and the state after it; `Only` says that all operations that a
program can perform, whatever the answers, are of one kind; `tally` counts what
is answered on the way; `Tracks` says what an observer of the operations and
their answers knows at every moment.  All follow the structure of a program, so
there is one lemma for a result and one for a sequence.
-/

namespace SealedLua.Program

variable {I : Interface} {α β σ : Type}

/-- If the operations of a program are answered in another monad, then it runs as
the sequence of what its parts run as. -/
theorem run_bind_congr {m : Type → Type} [Monad m] [LawfulMonad m]
    {answer : (op : I.Op) → m (I.Answer op)} {p : OptionT (Program I) α} {q : OptionT m α}
    {f : α → OptionT (Program I) β} {g : α → OptionT m β}
    (hp : Program.run answer p.run = q.run) (hf : ∀ a, Program.run answer (f a).run = (g a).run) :
    Program.run answer (p >>= f).run = (q >>= g).run := by
  refine (run_bind answer p.run _).trans ?_
  rw [hp]
  refine bind_congr fun a => ?_
  cases a with
  | none => rfl
  | some a => exact hf a

section ComesTo

variable {answer : (op : I.Op) → StateM σ (I.Answer op)} {s s' : σ}

/-- From the state `s`, the program gives `a` and leaves the state `s'`. -/
def ComesTo (answer : (op : I.Op) → StateM σ (I.Answer op)) (p : OptionT (Program I) α) (s : σ)
    (a : α) (s' : σ) : Prop :=
  (Program.run answer p.run).run s = (some a, s')

theorem comesTo_pure {a b : α} :
    ComesTo answer (pure a : OptionT (Program I) α) s b s' ↔ b = a ∧ s' = s := by
  constructor
  · intro h
    cases h
    exact ⟨rfl, rfl⟩
  · rintro ⟨rfl, rfl⟩
    rfl

theorem comesTo_lift (p : Program I α) (s : σ) :
    ComesTo answer (OptionT.lift p) s ((p.run answer).run s).1 ((p.run answer).run s).2 := by
  have lifted : Program.run answer (OptionT.lift p).run = p.run answer >>= fun a => pure (some a) :=
    run_bind answer p fun a => .done (some a)
  rw [ComesTo, lifted]
  rfl

theorem run_bind_run (p : Program I α) (f : α → Program I β) (s : σ) :
    ((p.bind f).run answer).run s = ((f ((p.run answer).run s).1).run answer).run
      ((p.run answer).run s).2 := by
  rw [run_bind]
  rfl

theorem run_ask_bind {op : I.Op} {a : I.Answer op} {t : σ} (h : (answer op).run s = (a, t))
    (f : I.Answer op → Program I β) :
    (Program.run answer ((ask op).bind f)).run s = ((f a).run answer).run t := by
  have hstep : (Program.run answer ((ask op).bind f)).run s =
    (fun x : I.Answer op × σ => ((f x.1).run answer).run x.2) ((answer op).run s) := rfl
  rw [hstep, h]

theorem comesTo_bind {p : OptionT (Program I) α} {f : α → OptionT (Program I) β} {b : β} :
    ComesTo answer (p >>= f) s b s' ↔
      ∃ a t, ComesTo answer p s a t ∧ ComesTo answer (f a) t b s' := by
  have hrun : (Program.run answer (p >>= f).run).run s =
      (Program.run answer (p.run.bind fun
        | some a => (f a).run
        | none => .done none)).run s := rfl
  unfold ComesTo
  rw [hrun, run_bind_run]
  cases h : (Program.run answer p.run).run s with
  | mk first t =>
    cases first with
    | none =>
      constructor
      · intro hnone
        cases hnone
      · rintro ⟨a, u, hsome, -⟩
        cases hsome
    | some a =>
      constructor
      · intro hrest
        exact ⟨a, t, rfl, hrest⟩
      · rintro ⟨a', t', hsome, hrest⟩
        cases hsome
        exact hrest

theorem comesTo_bind_of {p : OptionT (Program I) α} {f : α → OptionT (Program I) β} {a : α}
    {b : β} {t : σ} (first : ComesTo answer p s a t) : ComesTo answer (p >>= f) s b s' ↔
      ComesTo answer (f a) t b s' := by
  rw [comesTo_bind]
  constructor
  · rintro ⟨a', t', other, rest⟩
    have same : (some a, t) = (some a', t') := first.symm.trans other
    cases same
    exact rest
  · exact fun rest => ⟨a, t, first, rest⟩

theorem comesTo_bind_ok {ε : Type} {x : ExceptT ε (OptionT (Program I)) α}
    {f : α → ExceptT ε (OptionT (Program I)) β}
    {a : α} {b : Except ε β} {t : σ} (first : ComesTo answer x.run s (.ok a) t)
    (rest : ComesTo answer (f a).run t b s') : ComesTo answer (x >>= f).run s b s' :=
  comesTo_bind.2 ⟨.ok a, t, first, rest⟩

/-- Work that gives a result has gone on from what its first part gave. -/
theorem comesTo_ok_of_bind {ε : Type} {x : ExceptT ε (OptionT (Program I)) α}
    {f : α → ExceptT ε (OptionT (Program I)) β}
    {b : β} (ends : ComesTo answer (x >>= f).run s (.ok b) s') :
    ∃ a t, ComesTo answer x.run s (.ok a) t ∧ ComesTo answer (f a).run t (.ok b) s' := by
  obtain ⟨result, t, first, rest⟩ := comesTo_bind.1 ends
  cases result with
  | error e => cases rest
  | ok a => exact ⟨a, t, first, rest⟩

theorem comesTo_map {p : OptionT (Program I) α} {f : α → β} {b : β} :
    ComesTo answer (do return f (← p)) s b s' ↔ ∃ a, ComesTo answer p s a s' ∧ b = f a := by
  rw [comesTo_bind]
  constructor
  · rintro ⟨a, t, hp, hf⟩
    obtain ⟨hb, ht⟩ := comesTo_pure.1 hf
    subst ht
    exact ⟨a, hp, hb⟩
  · rintro ⟨a, hp, hb⟩
    exact ⟨a, s', hp, comesTo_pure.2 ⟨hb, rfl⟩⟩

theorem map_run (p : OptionT (Program I) α) (f : α → β) :
    (do return f (← p) : OptionT (Program I) β).run = p.run.bind fun a => .done (a.map f) := by
  have each : ∀ a : Option α, (match a with
      | some a => (pure (f a) : OptionT (Program I) β).run
      | none => .done none) = .done (a.map f) := by
    intro a
    cases a <;> rfl
  exact congrArg p.run.bind (funext each)

end ComesTo

section Same

variable {unnoticed : I.Op → Prop} {same : α → β → Prop}

/-- Two programs that perform the same operations, whatever the answers, but for
operations that are unnoticed, with results that are related by `same`. -/
inductive Same (unnoticed : I.Op → Prop) (same : α → β → Prop) :
    Program I α → Program I β → Prop where
  | done {a : α} {b : β} (results : same a b) : Same unnoticed same (.done a) (.done b)
  | perform {op : I.Op} {k : I.Answer op → Program I α} {k' : I.Answer op → Program I β}
      (rest : ∀ x, Same unnoticed same (k x) (k' x)) : Same unnoticed same
      (.perform op k) (.perform op k')
  | left {op : I.Op} {k : I.Answer op → Program I α} {q : Program I β} (silent : unnoticed op)
      (rest : ∀ x, Same unnoticed same (k x) q) : Same unnoticed same (.perform op k) q
  | right {op : I.Op} {p : Program I α} {k : I.Answer op → Program I β} (silent : unnoticed op)
      (rest : ∀ x, Same unnoticed same p (k x)) : Same unnoticed same p (.perform op k)

theorem Same.refl {same : α → α → Prop} (h : ∀ a, same a a) (p : Program I α) :
    Same unnoticed same p p := by
  induction p with
  | done a => exact .done (h a)
  | perform op k ih => exact .perform ih

theorem Same.symm {p : Program I α} {q : Program I β} (h : Same unnoticed same p q) :
    Same unnoticed (fun b a => same a b) q p := by
  induction h with
  | done results => exact .done results
  | perform _ ih => exact .perform ih
  | left silent _ ih => exact .right silent ih
  | right silent _ ih => exact .left silent ih

theorem Same.mono {same' : α → β → Prop} {p : Program I α} {q : Program I β}
    (h : Same unnoticed same p q)
    (weaker : ∀ a b, same a b → same' a b) : Same unnoticed same' p q := by
  induction h with
  | done results => exact .done (weaker _ _ results)
  | perform _ ih => exact .perform ih
  | left silent _ ih => exact .left silent ih
  | right silent _ ih => exact .right silent ih

theorem Same.bind {γ δ : Type} {same' : γ → δ → Prop} {p : Program I α}
    {q : Program I β} {f : α → Program I γ} {g : β → Program I δ} (h : Same unnoticed same p q)
    (hf : ∀ a b, same a b → Same unnoticed same' (f a) (g b)) :
    Same unnoticed same' (p.bind f) (q.bind g) := by
  induction h with
  | done results => exact hf _ _ results
  | perform _ ih => exact .perform ih
  | left silent _ ih => exact .left silent ih
  | right silent _ ih => exact .right silent ih

variable (unnoticed) in
/-- Work that performs the same and runs out of fuel alike. -/
def SameWork (same : α → β → Prop) (x : OptionT (Program I) α) (y : OptionT (Program I) β) : Prop :=
  Same unnoticed (Option.Rel same) x.run y.run

namespace SameWork

theorem pure {a : α} {b : β} (h : same a b) : SameWork unnoticed same (Pure.pure a) (Pure.pure b) :=
  .done (.some h)

theorem failure : SameWork unnoticed same failure failure := .done .none

theorem refl (x : OptionT (Program I) α) : SameWork unnoticed Eq x x := by
  refine Same.refl (fun ended => ?_) x.run
  cases ended with
  | none => exact .none
  | some a => exact .some rfl

theorem symm {x y : OptionT (Program I) α} (h : SameWork unnoticed Eq x y) :
    SameWork unnoticed Eq y x := by
  refine Same.mono (Same.symm h) fun a b related => ?_
  cases related with
  | some same => exact .some same.symm
  | none => exact .none

theorem bind {γ δ : Type} {same' : γ → δ → Prop} {x : OptionT (Program I) α}
    {y : OptionT (Program I) β} {f : α → OptionT (Program I) γ} {g : β → OptionT (Program I) δ}
    (h : SameWork unnoticed same x y)
    (hf : ∀ a b, same a b → SameWork unnoticed same' (f a) (g b)) :
    SameWork unnoticed same' (x >>= f) (y >>= g) := by
  refine Same.bind h fun a b hab => ?_
  cases hab with
  | some hab => exact hf _ _ hab
  | none => exact .done .none

end SameWork
end Same

section Only

variable {P : I.Op → Prop}

/-- Every operation that the program can perform satisfies `P`. -/
inductive Only (P : I.Op → Prop) : Program I α → Prop where
  | done (a : α) : Only P (.done a)
  | perform {op : I.Op} {k : I.Answer op → Program I α} (allowed : P op)
      (rest : ∀ x, Only P (k x)) :
      Only P (.perform op k)

theorem only_ask {op : I.Op} (h : P op) : Only P (Program.ask op) :=
  .perform h fun _ => .done _

theorem Only.of_perform {op : I.Op} {k : I.Answer op → Program I α} (hp : Only P (.perform op k)) :
    P op ∧ ∀ x, Only P (k x) := by
  cases hp with
  | perform allowed rest => exact ⟨allowed, rest⟩

theorem Only.bind {p : Program I α} {f : α → Program I β} (hp : Only P p) (hf : ∀ a, Only P (f a)) :
    Only P (p.bind f) := by
  induction hp with
  | done a => exact hf a
  | perform allowed rest ih => exact .perform allowed ih

theorem Only.bindOption {p : OptionT (Program I) α} {f : α → OptionT (Program I) β}
    (hp : Only P p.run) (hf : ∀ a, Only P (f a).run) : Only P (p >>= f).run := by
  refine Only.bind hp fun a => ?_
  cases a with
  | none => exact .done none
  | some a => exact hf a

theorem Only.bindExcept {ε : Type} {p : ExceptT ε (OptionT (Program I)) α}
    {f : α → ExceptT ε (OptionT (Program I)) β} (hp : Only P p.run.run)
    (hf : ∀ a, Only P (f a).run.run) : Only P (p >>= f).run.run := by
  refine Only.bindOption hp fun a => ?_
  cases a with
  | error e => exact .done _
  | ok a => exact hf a

theorem Only.bindResult {ε : Type} {p : ExceptT ε (Program I) α} {f : α → ExceptT ε (Program I) β}
    (hp : Only P p.run) (hf : ∀ a, Only P (f a).run) : Only P (p >>= f).run := by
  refine Only.bind hp fun a => ?_
  cases a with
  | error e => exact .done _
  | ok a => exact hf a

theorem Only.keeps {p : Program I α} (hp : Only P p) {answer : (op : I.Op) → StateM σ (I.Answer op)}
    (inv : σ → Prop) (h : ∀ op s, P op → inv s → inv ((answer op).run s).2) {s : σ} (hs : inv s) :
    inv ((p.run answer).run s).2 := by
  induction hp generalizing s with
  | done a => exact hs
  | perform allowed rest ih => exact ih _ (h _ s allowed hs)

end Only

section Tally

variable {count : (op : I.Op) → I.Answer op → Nat} {answer : (op : I.Op) → StateM σ (I.Answer op)}

/-- What the operations of a program count for, together, with their answers from a state on. -/
def tally (count : (op : I.Op) → I.Answer op → Nat)
    (answer : (op : I.Op) → StateM σ (I.Answer op)) :
    Program I α → σ → Nat
  | .done _, _ => 0
  | .perform op k, s =>
    count op ((answer op).run s).1 + tally count answer (k ((answer op).run s).1)
      ((answer op).run s).2

theorem tally_map (f : α → β) (p : Program I α) (s : σ) :
    tally count answer (p.bind fun a => .done (f a)) s = tally count answer p s := by
  induction p generalizing s with
  | done a => rfl
  | perform op k ih => simp only [Program.bind, tally, ih]

end Tally

section Tracks

abbrev Event (I : Interface) := (op : I.Op) × I.Answer op

/-- A moment of a program: what has been performed, and what is left to do. -/
inductive Performs : Program I α → List (Event I) → Program I α → Prop where
  | start (p : Program I α) : Performs p [] p
  | step {op : I.Op} {k : I.Answer op → Program I α} {x : I.Answer op} {history : List (Event I)}
      {rest : Program I α}
      (later : Performs (k x) history rest) : Performs (.perform op k) (⟨op, x⟩ :: history) rest

theorem performs_done {a b : α} {history : List (Event I)} :
    Performs (.done a) history (.done b) ↔ history = [] ∧ b = a := by
  constructor
  · intro h
    cases h
    exact ⟨rfl, rfl⟩
  · rintro ⟨rfl, rfl⟩
    exact .start _

theorem performs_ask {op : I.Op} {x : I.Answer op} {history : List (Event I)} :
    Performs (ask op) history (.done x) ↔ history = [⟨op, x⟩] := by
  constructor
  · intro h
    cases h with
    | step later =>
      obtain ⟨rfl, rfl⟩ := performs_done.1 later
      rfl
  · rintro rfl
    exact .step (.start _)

/-- A sequence performs what its first part does, and then what the second does. -/
theorem performs_bind {p : Program I α} {f : α → Program I β} {b : β} {history : List (Event I)} :
    Performs (p.bind f) history (.done b) ↔
      ∃ a first second, history = first ++ second ∧ Performs p first (.done a) ∧
        Performs (f a) second (.done b) := by
  constructor
  · intro h
    induction p generalizing history with
    | done a => exact ⟨a, [], history, rfl, .start _, h⟩
    | perform op k ih =>
      cases h with
      | step later =>
        obtain ⟨a, first, second, rfl, hfirst, hsecond⟩ := ih _ later
        exact ⟨a, _ :: first, second, rfl, .step hfirst, hsecond⟩
  · rintro ⟨a, first, second, rfl, hfirst, hsecond⟩
    generalize hend : (.done a : Program I α) = rest at hfirst
    induction hfirst with
    | start p =>
      subst hend
      exact hsecond
    | step later ih => exact .step (ih hend)

/-- Work that comes to a result has come to one in its first part. -/
theorem performs_bindOption {x : OptionT (Program I) α} {f : α → OptionT (Program I) β} {b : β}
    {history : List (Event I)} :
    Performs (x >>= f).run history (.done (some b)) ↔ ∃ a first second, history = first ++ second ∧
      Performs x.run first (.done (some a)) ∧ Performs (f a).run second (.done (some b)) := by
  refine performs_bind.trans ⟨?_, ?_⟩
  · rintro ⟨ended, first, second, rfl, hfirst, hsecond⟩
    cases ended with
    | none =>
      obtain ⟨-, ended⟩ := performs_done.1 hsecond
      cases ended
    | some a => exact ⟨a, first, second, rfl, hfirst, hsecond⟩
  · rintro ⟨a, first, second, rfl, hfirst, hsecond⟩
    exact ⟨some a, first, second, rfl, hfirst, hsecond⟩

/-- Work that may fail goes on after its first part only with a result. -/
theorem performs_bindExcept {ε : Type} {x : ExceptT ε (OptionT (Program I)) α}
    {f : α → ExceptT ε (OptionT (Program I)) β} {ended : Option (Except ε β)}
    {history : List (Event I)} (h : Performs (x >>= f).run.run history (.done ended)) :
    ∃ result first second, history = first ++ second ∧ Performs x.run.run first (.done result) ∧
      match result with
      | some (.ok a) => Performs (f a).run.run second (.done ended)
      | some (.error e) => second = [] ∧ ended = some (.error e)
      | none => second = [] ∧ ended = none := by
  obtain ⟨result, first, second, rfl, hfirst, hsecond⟩ := performs_bind.1 h
  refine ⟨result, first, second, rfl, hfirst, ?_⟩
  match result with
  | some (.ok a) => exact hsecond
  | some (.error e) => exact performs_done.1 hsecond
  | none => exact performs_done.1 hsecond

/-- What a program performs is of the kind of which all its operations are. -/
theorem Only.of_performs {P : I.Op → Prop} {p rest : Program I α} {history : List (Event I)}
    (hp : Only P p) (h : Performs p history rest) : ∀ e ∈ history, P e.1 := by
  induction h with
  | start p => exact fun _ => nofun
  | step later ih =>
    cases hp with
    | perform allowed only =>
      intro e he
      rcases List.mem_cons.1 he with rfl | he
      · exact allowed
      · exact ih (only _) e he

/-- What a program performs from a state on, with the answers that it gets. -/
def performed (answer : (op : I.Op) → StateM σ (I.Answer op)) : Program I α → σ → List (Event I)
  | .done _, _ => []
  | .perform op k, s =>
    ⟨op, ((answer op).run s).1⟩ :: performed answer (k ((answer op).run s).1) ((answer op).run s).2

theorem performs_performed (answer : (op : I.Op) → StateM σ (I.Answer op))
    (p : Program I α) (s : σ) :
    Performs p (performed answer p s) (.done ((p.run answer).run s).1) := by
  induction p generalizing s with
  | done a => exact .start _
  | perform op k ih => exact .step (ih _ _)

/-- Two platforms that stay related give a program the same answers. -/
theorem performed_eq_of_related {τ : Type} {P : I.Op → Prop}
    {answer : (op : I.Op) → StateM σ (I.Answer op)}
    {answer' : (op : I.Op) → StateM τ (I.Answer op)} (related : σ → τ → Prop)
    (hstep : ∀ op s t, P op → related s t →
      ∃ x s' t', (answer op).run s = (x, s') ∧ (answer' op).run t = (x, t') ∧ related s' t')
    {p : Program I α} (hp : Only P p) {s : σ} {t : τ} (h : related s t) :
    performed answer p s = performed answer' p t := by
  induction hp generalizing s t with
  | done a => rfl
  | perform allowed rest ih =>
    obtain ⟨x, s', t', hs, ht, hrelated⟩ := hstep _ s t allowed h
    rw [performed, performed, hs, ht, ih x hrelated]

/-- Such platforms lead programs that do the same to related results, if they do not
notice what is unnoticed. -/
theorem Same.results_of_related {τ : Type} {P unnoticed : I.Op → Prop}
    {answer : (op : I.Op) → StateM σ (I.Answer op)}
    {answer' : (op : I.Op) → StateM τ (I.Answer op)} (related : σ → τ → Prop)
    (hstep : ∀ op s t, P op → related s t →
      ∃ x s' t', (answer op).run s = (x, s') ∧ (answer' op).run t = (x, t') ∧ related s' t')
    (hsilent : ∀ op s t, unnoticed op → related s t →
      related ((answer op).run s).2 t ∧ related s ((answer' op).run t).2)
    {same : α → β → Prop} {p : Program I α} {q : Program I β} (alike : Same unnoticed same p q)
    (hp : Only P p) {s : σ} {t : τ} (h : related s t) :
    same ((p.run answer).run s).1 ((q.run answer').run t).1 := by
  induction alike generalizing s t with
  | done results => exact results
  | @perform op k k' _ ih =>
    obtain ⟨allowed, rest⟩ := hp.of_perform
    obtain ⟨x, s', t', hs, ht, hrelated⟩ := hstep _ s t allowed h
    have first : ((Program.perform op k).run answer).run s = ((k x).run answer).run s' :=
      run_ask_bind hs k
    have second : ((Program.perform op k').run answer').run t = ((k' x).run answer').run t' :=
      run_ask_bind ht k'
    rw [first, second]
    exact ih x (rest x) hrelated
  | left silent _ ih => exact ih _ (hp.of_perform.2 _) (hsilent _ s t silent h).1
  | right silent _ ih => exact ih _ hp (hsilent _ s t silent h).2

variable {ω : Type} {see : ω → Event I → ω} {inv : ω → Prop} {post : α → ω → Prop} {w : ω}

/-- Whatever the answers, an observer who starts from `w` finds `inv` at every
moment, and `post` at the end. -/
inductive Tracks (see : ω → Event I → ω) (inv : ω → Prop) (post : α → ω → Prop) :
    Program I α → ω → Prop where
  | done {a : α} {w : ω} (now : inv w) (ended : post a w) : Tracks see inv post (.done a) w
  | perform {op : I.Op} {k : I.Answer op → Program I α} {w : ω} (now : inv w)
      (rest : ∀ x, Tracks see inv post (k x) (see w ⟨op, x⟩)) :
      Tracks see inv post (.perform op k) w

theorem Tracks.now {p : Program I α} (h : Tracks see inv post p w) : inv w := by
  cases h with
  | done now _ => exact now
  | perform now _ => exact now

/-- What is tracked holds at every moment. -/
theorem Tracks.at_moment {p rest : Program I α} {history : List (Event I)}
    (h : Tracks see inv post p w)
    (moment : Performs p history rest) : inv (history.foldl see w) := by
  induction moment generalizing w with
  | start p => exact h.now
  | step later ih =>
    cases h with
    | perform _ tracked => exact ih (tracked _)

theorem Tracks.at_end {p : Program I α} {a : α} {history : List (Event I)}
    (h : Tracks see inv post p w)
    (moment : Performs p history (.done a)) : post a (history.foldl see w) := by
  generalize hend : (.done a : Program I α) = rest at moment
  induction moment generalizing w with
  | start p =>
    subst hend
    cases h with
    | done _ ended => exact ended
  | step later ih =>
    cases h with
    | perform _ tracked => exact ih (tracked _) hend

theorem Tracks.mono {post' : α → ω → Prop} {p : Program I α} (h : Tracks see inv post p w)
    (weaker : ∀ a w, post a w → post' a w) : Tracks see inv post' p w := by
  induction h with
  | done now ended => exact .done now (weaker _ _ ended)
  | perform now _ ih => exact .perform now ih

/-- An observer who looks for nothing is never disappointed. -/
theorem tracks_any (see : ω → Event I → ω) (p : Program I α) (w : ω) :
    Tracks see (fun _ => True) (fun _ _ => True) p w := by
  induction p generalizing w with
  | done a => exact .done trivial trivial
  | perform op k ih => exact .perform trivial fun x => ih x _

theorem Tracks.bind {post' : β → ω → Prop} {p : Program I α} {f : α → Program I β}
    (hp : Tracks see inv post p w) (hf : ∀ a w, inv w → post a w → Tracks see inv post' (f a) w) :
    Tracks see inv post' (p.bind f) w := by
  induction hp with
  | done now ended => exact hf _ _ now ended
  | perform now _ ih => exact .perform now ih

theorem Tracks.bindOption {post : Option α → ω → Prop} {post' : Option β → ω → Prop}
    {p : OptionT (Program I) α} {f : α → OptionT (Program I) β} (hp : Tracks see inv post p.run w)
    (hnone : ∀ w, inv w → post none w → post' none w)
    (hf : ∀ a w, inv w → post (some a) w → Tracks see inv post' (f a).run w) :
    Tracks see inv post' (p >>= f).run w := by
  refine Tracks.bind hp fun ended now hnow hpost => ?_
  cases ended with
  | none => exact .done hnow (hnone now hnow hpost)
  | some a => exact hf a now hnow hpost

end Tracks
end SealedLua.Program
