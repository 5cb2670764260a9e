/-!
# Programs over an interface

A program performs operations one after the other, each chosen with the answers
to the earlier ones in view, and ends with a result.  It does not say how
operations are answered: the same program runs on a real backend, on one that
fails, on one that only records, and step by step among other programs.

Main statement: running is a homomorphism of monads (`run_bind`).
-/

namespace SealedLua

/-- Operations, and the type of the answers to each. -/
structure Interface where
  Op : Type
  Answer : Op → Type

inductive Program (I : Interface) (α : Type) where
  | done (value : α)
  | perform (op : I.Op) (k : I.Answer op → Program I α)

namespace Program

variable {I : Interface} {α β γ : Type}

def bind : Program I α → (α → Program I β) → Program I β
  | .done a, f => f a
  | .perform op k, f => .perform op fun x => (k x).bind f

instance : Monad (Program I) where
  pure := .done
  bind := bind

@[simp] theorem bind_done (p : Program I α) : p.bind .done = p := by
  induction p with
  | done => rfl
  | perform op k ih => simp [bind, ih]

theorem bind_assoc (p : Program I α) (f : α → Program I β) (g : β → Program I γ) :
    (p.bind f).bind g = p.bind fun a => (f a).bind g := by
  induction p with
  | done => rfl
  | perform op k ih => simp [bind, ih]

instance : LawfulMonad (Program I) :=
  LawfulMonad.mk' (Program I) bind_done (fun _ _ => rfl) bind_assoc

def ask (op : I.Op) : Program I (I.Answer op) := .perform op .done

variable {m : Type → Type}

/-- Runs a program with a way to answer its operations. -/
def run [Monad m] (answer : (op : I.Op) → m (I.Answer op)) : Program I α → m α
  | .done a => pure a
  | .perform op k => do
    let x ← answer op
    run answer (k x)

theorem run_bind [Monad m] [LawfulMonad m] (answer : (op : I.Op) → m (I.Answer op))
    (p : Program I α)
    (f : α → Program I β) : (p.bind f).run answer = p.run answer >>= fun a => (f a).run answer := by
  induction p with
  | done => simp [bind, run]
  | perform op k ih => simp [bind, run, ih]

end Program
end SealedLua
