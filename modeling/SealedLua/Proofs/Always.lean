import SealedLua.Proofs.Program
import Mathlib.Tactic.Common

/-!
# All results of work

Work in an unknown monad comes to results that nobody can look at.  That all of
them are of some kind is said without looking: the work is also work on results
that carry the proof.  In a platform with a state this is what one expects
(`Always.comesTo`), and without effects it says no less (`always_id`).
-/

namespace SealedLua

variable {m : Type → Type} [Monad m] [LawfulMonad m] {α β : Type} {P : α → Prop} {Q : β → Prop}

/-- Whatever the effects, the work comes to nothing but results of this kind. -/
def Always (P : α → Prop) (x : OptionT m α) : Prop :=
  ∃ y : OptionT m { a // P a }, x = (do return (← y).1)

theorem always_pure {a : α} (h : P a) : Always P (pure a : OptionT m α) :=
  ⟨pure ⟨a, h⟩, by rw [pure_bind]⟩

theorem always_true (x : OptionT m α) : Always (fun _ => True) x :=
  ⟨do return ⟨← x, trivial⟩, by simp only [bind_assoc, pure_bind, bind_pure]⟩

theorem always_failure : Always P (failure : OptionT m α) := by
  refine ⟨failure, OptionT.ext ?_⟩
  simp

namespace Always

variable {x : OptionT m α} {f g : α → OptionT m β}

theorem bind (hx : Always P x) (hf : ∀ a, P a → Always Q (f a)) : Always Q (x >>= f) := by
  obtain ⟨y, rfl⟩ := hx
  choose z hz using hf
  refine ⟨y >>= fun a => z a.1 a.2, ?_⟩
  simp only [bind_assoc, pure_bind]
  exact bind_congr fun a => hz a.1 a.2

theorem mono {P' : α → Prop} (hx : Always P x) (weaker : ∀ a, P a → P' a) : Always P' x := by
  obtain ⟨y, rfl⟩ := hx
  exact ⟨do let a ← y; return ⟨a.1, weaker a.1 a.2⟩, by simp only [bind_assoc, pure_bind]⟩

theorem map {f : α → β} (hx : Always P x) (h : ∀ a, P a → Q (f a)) : Always Q (do return f (← x)) :=
  hx.bind fun a ha => always_pure (h a ha)

theorem bind_eq (hx : Always P x) (same : ∀ a, P a → f a = g a) : x >>= f = x >>= g := by
  obtain ⟨y, rfl⟩ := hx
  simp only [bind_assoc, pure_bind]
  exact bind_congr fun a => same a.1 a.2

end Always

theorem always_id {x : OptionT Id α} : Always P x ↔ ∀ a, x.run = some a → P a := by
  constructor
  · rintro ⟨y, rfl⟩ a ended
    cases result : y.run with
    | none =>
      have nothing : (do return (← y).1 : OptionT Id α).run = none := by
        rw [OptionT.run_bind, result]
        rfl
      rw [nothing] at ended
      cases ended
    | some b =>
      have ended_at : (do return (← y).1 : OptionT Id α).run = some b.1 := by
        rw [OptionT.run_bind, result]
        rfl
      rw [ended_at] at ended
      cases ended
      exact b.2
  · intro h
    cases result : x.run with
    | none => exact ⟨failure, OptionT.ext result⟩
    | some a => exact ⟨pure ⟨a, h a result⟩, OptionT.ext result⟩

/-- On a platform the results are those that the work comes to from some state. -/
theorem Always.comesTo {I : Interface} {σ : Type} {answer : (op : I.Op) → StateM σ (I.Answer op)}
    {x : OptionT (Program I) α}
    (h : Always P x) {s s' : σ} {a : α} (ends : Program.ComesTo answer x s a s') : P a := by
  obtain ⟨y, rfl⟩ := h
  obtain ⟨b, -, rfl⟩ := Program.comesTo_map.1 ends
  exact b.2

end SealedLua
