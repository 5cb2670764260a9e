import SealedLua.Engine.Evaluation

/-!
# Recorded evaluations

A stack that has no values: every operation is written down and gets an answer
that was prepared for it.  It shows what a program asks of a stack whatever the
answers are.
-/

namespace SealedLua

/-- An answer that was prepared for an operation. -/
inductive Prepared where
  | fails (e : EngineError)
  | kind (k : ValueKind)
  | integer (n : Int64)
  | text (s : String)
  /-- The operation has its usual result. -/
  | usual
deriving DecidableEq

namespace StackOp

/-- The name of an operation. -/
def name : StackOp → String
  | .load _ _ => "load"
  | .pushInteger _ => "push_integer"
  | .pushText _ => "push_text"
  | .duplicateTop => "duplicate_top"
  | .setGlobal _ => "set_global"
  | .swap => "swap"
  | .call _ _ => "call"
  | .peekKind => "peek_kind"
  | .popInteger => "pop_integer"
  | .popText => "pop_text"
  | .depth => "depth"

def answerFrom (p : Prepared) : (op : StackOp) → op.Answer
  | .pushInteger _ => .ok ()
  | .peekKind =>
    match p with
    | .fails e => .error e
    | .kind k => .ok k
    | _ => .ok .other
  | .popInteger =>
    match p with
    | .fails e => .error e
    | .integer n => .ok n
    | _ => .ok (0 : Int64)
  | .popText =>
    match p with
    | .fails e => .error e
    | .text s => .ok s
    | _ => .ok ""
  | .depth => .ok (0 : Nat)
  | .load _ _ | .pushText _ | .duplicateTop | .setGlobal _ | .swap | .call _ _ =>
    match p with
    | .fails e => .error e
    | _ => .ok ()

end StackOp

/-- What was asked, the last operation first, and the answers still to be given
to operations of a name. -/
structure Recording where
  asked : List StackOp := []
  prepared : List (String × List Prepared)

namespace Recording

/-- Takes the next answer that was prepared for a name. -/
def take (name : String) : List (String × List Prepared) → Prepared × List (String × List Prepared)
  | [] => (.usual, [])
  | (n, answers) :: rest =>
    if n == name then
      match answers with
      | [] => (.usual, (n, []) :: rest)
      | a :: more => (a, (n, more) :: rest)
    else
      let (a, rest) := take name rest
      (a, (n, answers) :: rest)

def perform (op : StackOp) : StateM Recording op.Answer := fun r =>
  let (p, prepared) := take op.name r.prepared
  (op.answerFrom p, ⟨op :: r.asked, prepared⟩)

/-- Runs a program that has no questions, and writes down what it asks. -/
def record {α : Type} (p : Evaluation Empty α) (prepared : List (String × List Prepared)) :
    Except EngineError α × List StackOp :=
  let (result, r) := (Program.run (I := stackInterface Empty) (m := StateM Recording) (fun
    | .stack op => perform op
    | .question q => q.elim) p.run).run { prepared := prepared }
  (result, r.asked.reverse)

end Recording
end SealedLua
