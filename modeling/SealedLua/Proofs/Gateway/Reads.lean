import SealedLua.Proofs.Engine.Parametric
import SealedLua.Proofs.Gateway.CommandSlots

/-!
# Runs only read

Whatever a script does and however deep its calls nest, the run of a command
asks the platform for nothing but objects to read and leave to make
interpreters, and to print.  The proof goes down the layers of a run: an interpreter performs
no operation of its own beyond the answers to host functions, and these are
runs with fewer levels left.
-/

namespace SealedLua

open Lua
open Program (Only)

/-- Reads of objects, leave to make an interpreter, and printing. -/
inductive Reads : platformInterface.Op → Prop where
  | openRead (id : ObjectId) : Reads (PlatformOp.storage (.openRead id))
  | admitInterpreter : Reads PlatformOp.admitInterpreter
  | print (text : ByteArray) : Reads (PlatformOp.print text)

variable {I : Interface} {P : I.Op → Prop} {Q α : Type}

/-- That programs ask for nothing but operations of a kind, as a relation that
does not look at its second part. -/
def Correspondence.only (P : I.Op → Prop) : Correspondence (Program I) Id where
  Rel p _ := Only P p.run
  pure _ := .done _
  failure := .done _
  bind hp hf := Only.bindOption hp hf

namespace Interpreter

variable {answer : ByteArray → Q → OptionT (Program I) (Except String Parcel)}
  (hanswer : ∀ text q, Only P (answer text q).run) (i : Interpreter Q) (fuel : Nat)

include hanswer

/-- An interpreter asks for nothing but what the answers to its functions ask for. -/
theorem evaluate_only (p : Evaluation Q α) : Only P (i.evaluate fuel answer p).run :=
  have corresponds : ∀ text q, (Correspondence.only P).Rel (answer text q) failure := hanswer
  (Correspondence.only P).interpret corresponds i fuel p

theorem finish_only : Only P (i.finish fuel answer).run := by
  have corresponds : ∀ text q, (Correspondence.only P).Rel (answer text q) failure := hanswer
  exact (Correspondence.only P).finish corresponds i fuel

end Interpreter

/-- A text is printed unless it is empty. -/
theorem Platform.print_eq (text : ByteArray) :
    Platform.print text = pure () ∨ Platform.print text =
      Program.ask (I := platformInterface) (.print text) := by
  by_cases empty : text.isEmpty = true
  · exact .inl (if_pos empty)
  · exact .inr (if_neg empty)

namespace Work

theorem ofExcept_only {P : platformInterface.Op → Prop} (x : Except GatewayError α) :
    Only P (ofExcept x).run.run :=
  .done _

theorem ofInterpreter_only {P : platformInterface.Op → Prop}
    {x : OptionT (Program platformInterface) (Except EngineError α × Interpreter Q)}
    (h : Only P x.run) :
    Only P (ofInterpreter x).run.run := by
  refine Only.bindOption h fun ⟨ended, i⟩ => ?_
  cases ended with
  | error e => exact .done _
  | ok a => exact .done _

theorem print_only {P : platformInterface.Op → Prop} (allowed : ∀ text, P (PlatformOp.print text))
    (text : ByteArray) :
    Only P (Platform.print text) := by
  rcases Platform.print_eq text with silent | prints
  · rw [silent]
    exact .done _
  · rw [prints]
    exact Program.only_ask (I := platformInterface) (allowed text)

theorem finishing_only {P : platformInterface.Op → Prop}
    (allowed : ∀ text, P (PlatformOp.print text)) {fuel : Nat}
    {answer : ByteArray → Q → OptionT (Program platformInterface) (Except String Parcel)}
    (hanswer : ∀ text q, Only P (answer text q).run)
    {x : OptionT (Program platformInterface) (Except EngineError α × Interpreter Q)}
    (h : Only P x.run) :
    Only P (finishing fuel answer x).run.run := by
  refine Only.bindOption h fun ⟨ended, i⟩ => ?_
  refine Only.bindOption (i.finish_only hanswer fuel) fun i => ?_
  exact Only.bindOption (Only.bind (print_only allowed _) fun _ => .done _) fun _ => .done _

theorem ofPlatform_only {P : platformInterface.Op → Prop} {ε : Type} {convert : ε → GatewayError}
    {p : Platform (Except ε α)} (h : Only P p) :
    Only P (ofPlatform convert p).run.run :=
  Only.bind (Only.bind h fun _ => .done _) fun _ => .done _

end Work

/-- Loading a script asks for the object of its name, if for anything. -/
theorem Scripts.load_only {P : PlatformOp → Prop} (hread : ∀ id, P (.storage (.openRead id)))
    (limit : Nat) (name : ByteArray) :
    Only (I := platformInterface) P (Scripts.load limit name) := by
  unfold Scripts.load
  split
  · exact .done _
  · refine Only.bind (Program.only_ask (I := platformInterface) (hread _)) fun found => ?_
    split <;> exact .done _

theorem Scripts.save_only {P : PlatformOp → Prop} (hstorage : ∀ op, P (.storage op))
    (hserial : P .drawSerial) (limit : Nat) (name body : ByteArray) :
    Only (I := platformInterface) P (Scripts.save limit name body) := by
  have hasks : ∀ op, Only (I := platformInterface) P (Platform.storage op) :=
    fun op => Program.only_ask (I := platformInterface) (hstorage op)
  have hstage : ∀ staging record,
      Only (I := platformInterface) P (Scripts.stage staging record body).run := by
    intro staging record
    exact Only.bindResult (hasks _) fun _ => Only.bindResult (hasks _) fun _ => hasks _
  unfold Scripts.save
  split
  · exact .done _
  · refine Only.bind (Program.only_ask (I := platformInterface) hserial) fun serial => ?_
    refine Only.bind (hstage _ _) fun staged => ?_
    split
    · exact .done _
    · exact Only.bind (hasks _) fun _ => .done _

namespace Gateway

theorem runWith_only {answers : Answers}
    (hanswers : ∀ text call, Only Reads (answers text call).run)
    (fuel : Nat) (script : ByteArray) (argument : Parcel) :
    Only Reads (runWith fuel answers script argument).run.run := by
  unfold runWith
  apply Only.bindExcept
  · exact Work.ofPlatform_only (Program.only_ask .admitInterpreter)
  intro circumstances
  apply Only.bindExcept
  · exact Work.ofInterpreter_only (Interpreter.evaluate_only (fun _ => hanswers _) _ _ _)
  rintro ⟨bound, i⟩
  exact Work.finishing_only .print hanswers (Interpreter.evaluate_only hanswers _ _ _)

def printing (text : ByteArray) : OptionT (Program platformInterface) Unit :=
  OptionT.lift (Platform.print text)

theorem printing_only {P : platformInterface.Op → Prop}
    (allowed : ∀ text, P (PlatformOp.print text)) (text : ByteArray) :
    Only P (printing text).run := Only.bind (Work.print_only allowed text) fun _ => .done _

theorem answered_only {x : Work Parcel} (h : Only Reads x.run.run) (printed : ByteArray) :
    Only Reads (answered printed x).run :=
  Only.bindOption (printing_only .print printed) fun _ => Only.bindOption h fun _ => .done _

theorem loadScript_only {P : PlatformOp → Prop}
    (hread : ∀ id, P (.storage (.openRead id))) (g : Gateway)
    (name : ByteArray) : Only (I := platformInterface) P (g.loadScript name).run.run := by
  unfold loadScript
  apply Only.bindExcept
  · exact Work.ofPlatform_only (Scripts.load_only hread _ _)
  intro record
  exact .done _

/-- A run only reads, by induction on the levels that are left for nested calls. -/
theorem run_only (g : Gateway) (fuel levels : Nat) (script : ByteArray) (argument : Parcel) :
    Only Reads (g.run fuel levels script argument).run.run := by
  induction levels generalizing script argument with
  | zero =>
    exact runWith_only (fun text _ => answered_only (.done _) text) fuel script argument
  | succ levels ih =>
    refine runWith_only (fun text call => answered_only ?_ text) fuel script argument
    exact Only.bindExcept (loadScript_only .openRead g _) fun body => ih body call.argument

theorem runFromSlots_only (g : Gateway) (fuel : Nat) (slots : Slots) :
    Only Reads (g.runFromSlots fuel slots).run.run := by
  refine Only.bindExcept (Work.ofExcept_only _) fun script => ?_
  refine Only.bindExcept (Work.ofExcept_only _) fun mode => ?_
  refine Only.bindExcept (Work.ofExcept_only _) fun argument => ?_
  exact Only.bindExcept (Work.ofExcept_only _) fun opened => run_only g fuel _ opened argument

theorem runSavedFromSlots_only (g : Gateway) (fuel : Nat) (slots : Slots) :
    Only Reads (g.runSavedFromSlots fuel slots).run.run := by
  refine Only.bindExcept (Work.ofExcept_only _) fun name => ?_
  refine Only.bindExcept (Work.ofExcept_only _) fun argument => ?_
  exact Only.bindExcept (loadScript_only .openRead g _) fun body => run_only g fuel _ body argument

theorem dispatch_only (g : Gateway) (fuel : Nat) {id : UInt32} (slots : Slots)
    (h : id ≠ Command.save.id) :
    Only Reads (g.dispatch fuel id slots).run := by
  unfold dispatch
  split
  case h_1 => exact .done _
  case h_2 hchecked => exact absurd (checked_eq_ok hchecked).1 h
  case h_3 => exact Only.bindOption (runFromSlots_only g fuel slots) fun _ => .done _
  case h_4 => exact Only.bindOption (runSavedFromSlots_only g fuel slots) fun _ => .done _

end Gateway
end SealedLua
