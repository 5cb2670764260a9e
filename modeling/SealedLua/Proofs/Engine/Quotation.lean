import SealedLua.Proofs.Engine.Preparation
import SealedLua.Proofs.Lua.Lexing

/-!
# Strings that are quoted exactly

Before all else the rendering routine declares the function that quotes.  As long as
the string functions are what they were, it makes of any bytes at all a printable text,
which the reader of tokens takes for one string token whatever follows.  Only where
there is no room for the calls that the bytes need does it raise an error instead.
-/

namespace SealedLua.Lua

/-- A text is one string token with this value, which ends where the text ends,
whatever follows. -/
structure StringToken (text : List UInt8) (s : ByteArray) : Prop where
  opens : text.head? = some 34
  /-- The text after the opening quote is the contents and the closing quote. -/
  takes (rest : List UInt8) (line : Nat) :
    Lexer.takeString 34 ((text.tail ++ rest).length + 1) (text.tail ++ rest) [] line =
      .ok (codes s, rest, line)
  lexes (rest : List UInt8) : Lexes (text ++ rest) [.string s] rest

theorem StringToken.quoted (s : ByteArray) : StringToken (Quoting.text (codes s)) s where
  opens := rfl
  takes rest line := by
    have shown : (Quoting.text (codes s)).tail ++ rest = (codes s).flatMap Quoting.byte ++
        34 :: rest := by
      simp [Quoting.text]
    rw [shown, Lexer.takeString_text]
  lexes := Lexes.string s

/-- A function is the one that the text of the rendering routine declares first, and
it has itself and the globals in scope. -/
def Heap.Quotes (h : Heap) (id : ClosureId) : Prop :=
  ∃ f rest scope chunk, Chunk.read Routine.dump.toUTF8 =
    .ok (.mk 0 true (.declareFunction f :: rest)) ∧
    h.closures[id]? = some ⟨f, scope, chunk⟩ ∧ h.Binds scope [.closure id, .table Heap.globals]

namespace DumpChunk

variable {h : Heap} {id : ClosureId} {env : Env}

theorem quoter_of_quotes (strings : h.StringsIntact) (quotes : h.Quotes id) : Quoter id h := by
  obtain ⟨f, rest, scope, name, read, stored, binds⟩ := quotes
  have same : chunk = .mk 0 true (.declareFunction f :: rest) :=
    Except.ok.inj (read_dump.symm.trans read)
  simp only [chunk, Function.mk.injEq, List.cons.injEq, Stmt.declareFunction.injEq] at same
  obtain ⟨-, -, rfl, -⟩ := same
  exact ⟨strings, scope, name, stored, binds⟩

/-- Wherever the routine runs, its first statement makes such a function. -/
theorem declares_quotes (binds : h.Binds env.scope [.table Heap.globals]) (depth : Depth) :
    ∃ env' h' id, Gives depth (exec env (.declareFunction quote) h) (.next env') h' ∧ h'.Quotes id ∧
      Heap.Keeps none h h' := by
  obtain ⟨env', h', id, run, within, stored, keeps, -⟩ :=
    Gives.stmt_declareFunction depth quote binds
  exact ⟨env', h', id, run, ⟨quote, _, env'.scope, env.chunk, read_dump, stored, within⟩, keeps⟩

/-- Quoting is exact.  The text is printable ASCII and one string token that has the
quoted bytes for its value; a call comes to this text if there is room for the calls
that the bytes need, and raises an error if there is not. -/
theorem quotes_exactly (strings : h.StringsIntact) (quotes : h.Quotes id) (s : ByteArray) :
    Printable (Quoting.text (codes s)) ∧ StringToken (Quoting.text (codes s)) s ∧
      ∀ (depth : Depth) (site : Site),
      (depth.Admits (Quoting.calls (codes s)) (Quoting.nested (codes s)) →
        ∃ h', Returns depth ⟨.closure id, [.string s], site⟩ h
          [.string (bytes (Quoting.text (codes s)))] h') ∧
      (¬depth.Admits (Quoting.calls (codes s)) (Quoting.nested (codes s)) →
        ∃ h', Throws depth ⟨.closure id, [.string s], site⟩ h h') := by
  have quoter := quoter_of_quotes strings quotes
  refine ⟨Printable.quoted (codes s), StringToken.quoted s, fun depth site =>
    ⟨fun room => ?_, fun full => ?_⟩⟩
  · obtain ⟨h', returns, -⟩ := returns_quote quoter room site
    exact ⟨h', returns⟩
  · obtain ⟨h', throws, -⟩ := throws_quote quoter full site
    exact ⟨h', throws⟩

/-- Bytes that are no text, before a digit that could be taken for one of a code. -/
theorem quotes_bytes : ∃ h id h', h.StringsIntact ∧ h.Quotes id ∧
    Returns (hostDepth (.outermost 3900))
      ⟨.closure id, [.string (bytes [99, 97, 102, 233, 0, 255])], Site.native⟩ h
      [.string (bytes (ascii "\"caf\\233\\000\\255\""))] h' ∧
    Printable (ascii "\"caf\\233\\000\\255\"") ∧
    Lexes (ascii "\"caf\\233\\000\\255\"" ++ ascii "7") [.string (bytes [99, 97, 102, 233, 0, 255])]
      (ascii "7") := by
  let base := Interpreter.preparedHeap.loaded chunk "dump"
  have scope : base.Binds (Env.mk [Interpreter.preparedHeap.cells.size] [] (bytes [])).scope
      [.table Heap.globals] :=
    .cons (Interpreter.preparedHeap.bound_loaded chunk "dump") .nil
  obtain ⟨env, h, id, -, quotes, keeps⟩ := declares_quotes scope (hostDepth (.outermost 3900))
  have strings := Interpreter.intact_preparedHeap.strings.mono
    ((Heap.Keeps.loaded Interpreter.preparedHeap chunk "dump").trans keeps).kept
  obtain ⟨printable, token, calls⟩ :=
    quotes_exactly strings quotes (bytes [99, 97, 102, 233, 0, 255])
  have text : Quoting.text (codes (bytes [99, 97, 102, 233, 0, 255])) =
      ascii "\"caf\\233\\000\\255\"" := by
    rw [codes_bytes]
    decide
  obtain ⟨h', returns⟩ := (calls (hostDepth (.outermost 3900)) Site.native).1 ⟨by decide, by decide⟩
  rw [text] at printable token returns
  exact ⟨h, id, h', strings, quotes, returns, printable, token.lexes (ascii "7")⟩

end DumpChunk
end SealedLua.Lua
