import SealedLua.Proofs.Program

/-!
# Programs side by side

Several programs run over one platform, and take turns at single operations in
any order.  A schedule says whose turn it is each time, so what holds after all
schedules holds at every moment of every interleaving.  A program that is done
lets its turns pass.
-/

namespace SealedLua

open Program (Event)

variable {I : Interface} {σ α : Type}

structure Pool (I : Interface) (σ α : Type) where
  state : σ
  /-- What each program has left to do. -/
  left : List (Program I α)
  /-- What was performed, the last first, with the number of the program. -/
  history : List (Nat × Event I) := []

namespace Pool

variable (answer : Nat → (op : I.Op) → StateM σ (I.Answer op))

/-- The pool after an operation of a program. -/
def performed (p : Pool I σ α) (i : Nat) (op : I.Op) (k : I.Answer op → Program I α) : Pool I σ α :=
  ⟨((answer i op).run p.state).2, p.left.set i (k ((answer i op).run p.state).1),
    (i, ⟨op, ((answer i op).run p.state).1⟩) :: p.history⟩

def turn (p : Pool I σ α) (i : Nat) : Pool I σ α :=
  match p.left[i]? with
  | some (.perform op k) => p.performed answer i op k
  | _ => p

/-- The pool after the turns of a schedule. -/
def after (p : Pool I σ α) (schedule : List Nat) : Pool I σ α := schedule.foldl (turn answer) p

def InFlight (p : Pool I σ α) (i : Nat) : Prop :=
  (∃ e, (i, e) ∈ p.history) ∧ ∀ a, p.left[i]? ≠ some (.done a)

variable {answer} {p : Pool I σ α} {i : Nat}

theorem turn_of_perform {op : I.Op} {k : I.Answer op → Program I α}
    (h : p.left[i]? = some (.perform op k)) :
    p.turn answer i = p.performed answer i op k := by
  rw [turn, h]

theorem turn_of_done {a : α} (h : p.left[i]? = some (.done a)) : p.turn answer i = p := by
  rw [turn, h]

theorem turn_of_none (h : p.left[i]? = none) : p.turn answer i = p := by
  rw [turn, h]

theorem after_append (first second : List Nat) :
    p.after answer (first ++ second) = (p.after answer first).after answer second :=
  List.foldl_append

/-- What every turn keeps is so after every schedule. -/
theorem after_induction (inv : Pool I σ α → Prop)
    (hstep : ∀ p i, inv p → inv (p.turn answer i)) (h : inv p)
    (schedule : List Nat) : inv (p.after answer schedule) := by
  induction schedule generalizing p with
  | nil => exact h
  | cons i rest ih => exact ih (hstep p i h)

/-- The program is done after so many operations at most, whatever the answers. -/
inductive Within : Nat → Program I α → Prop where
  | done (count : Nat) (a : α) : Within count (.done a)
  | perform {count : Nat} {op : I.Op} {k : I.Answer op → Program I α}
      (rest : ∀ x, Within count (k x)) :
      Within (count + 1) (.perform op k)

theorem left_turn_of_ne {j : Nat} (h : j ≠ i) : (p.turn answer j).left[i]? = p.left[i]? := by
  unfold turn
  split
  · exact List.getElem?_set_ne h
  · rfl

theorem left_after_of_done {a : α} (h : p.left[i]? = some (.done a)) (schedule : List Nat) :
    (p.after answer schedule).left[i]? = some (.done a) := by
  refine after_induction (fun p => p.left[i]? = some (.done a)) ?_ h schedule
  intro p j hdone
  by_cases hj : j = i
  · subst hj
    rw [turn_of_done hdone]
    exact hdone
  · rw [left_turn_of_ne hj]
    exact hdone

theorem done_of_turns {count : Nat} {q : Program I α} (hq : Within count q)
    (h : p.left[i]? = some q) {schedule : List Nat} (hturns : count ≤ schedule.count i) :
    ∃ a, (p.after answer schedule).left[i]? = some (.done a) := by
  induction schedule generalizing p count q with
  | nil =>
    cases hq with
    | done count a => exact ⟨a, h⟩
    | perform rest => simp at hturns
  | cons j schedule ih =>
    by_cases hj : j = i
    · subst hj
      cases hq with
      | done count a => exact ⟨a, left_after_of_done h _⟩
      | @perform count op k rest =>
        have hlt : j < p.left.length := (List.getElem?_eq_some_iff.1 h).1
        have hleft : (p.turn answer j).left[j]? = some (k ((answer j op).run p.state).1) := by
          rw [turn_of_perform h]
          exact List.getElem?_set_self hlt
        rw [List.count_cons_self] at hturns
        exact ih (rest _) hleft (by omega)
    · rw [List.count_cons_of_ne hj] at hturns
      exact ih hq ((left_turn_of_ne hj).trans h) hturns

end Pool
end SealedLua
