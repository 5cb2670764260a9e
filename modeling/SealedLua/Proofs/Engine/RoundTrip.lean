import SealedLua.Proofs.Engine.Kinds
import SealedLua.Proofs.Engine.Preparation
import SealedLua.Proofs.Engine.Texts
import SealedLua.Proofs.Lua.Constructors

/-!
# Data across the boundary

A value that says something is encoded as a parcel, and every interpreter
decodes the parcel as one value that says the same.  Only a whole double that
crosses on its own changes its form: it comes back as the integer of the same
value.
-/

namespace SealedLua

open Lua

namespace Ascii

theorem utf8EncodeChar_ofNat {c : UInt8} (low : c < 128) :
    String.utf8EncodeChar (Char.ofNat c.toNat) = [c] := by
  have small : c.toNat < 128 := low
  have value : (Char.ofNat c.toNat).val.toNat = c.toNat := by
    rw [Char.ofNat, dif_pos (.inl (by omega))]
    rfl
  unfold String.utf8EncodeChar
  simp only [value]
  rw [if_pos (by omega), UInt8.ofNat_toNat]

theorem toUTF8_text {cs : List UInt8} (low : ∀ c ∈ cs, c < 128) : (text cs).toUTF8 = bytes cs := by
  rw [text, String.toUTF8_eq_toByteArray, String.toByteArray_ofList, List.utf8Encode,
    List.flatMap_map, bytes]
  congr 1
  induction cs with
  | nil => rfl
  | cons c cs ih =>
    rw [List.flatMap_cons, utf8EncodeChar_ofNat (low c List.mem_cons_self), ih fun d mem =>
      low d (List.mem_cons_of_mem _ mem)]
    rfl

end Ascii

/-- A parcel holds data: a number or a text on its own, or the code that returns
the data. -/
inductive Carries : Parcel → Data → Prop
  | integer (n : Int64) : Carries (.number n) (.integer n)
  | whole {x : Double} {n : Int64} (exact : Value.exactInteger? x = some n) :
    Carries (.number n) (.double x)
  | text (s : String) : Carries (.text s) (.string s.toUTF8)
  | code {c : String} {d : Data} (returns : c.toUTF8 = bytes (ascii "return " ++ d.render)) :
    Carries (.code c) d

/-- A value is data that crossed. -/
inductive Restores (h : Heap) : Value → Data → Prop
  | same {w : Value} {d : Data} (same : Represents h w d) : Restores h w d
  | whole {n : Int64} {x : Double} (equal : (Value.integer n).rawEq (.double x) = true) :
    Restores h (.integer n) (.double x)

theorem Carries.number {h : Heap} {v : Value} {d : Data} {n : Int64} (r : Represents h v d)
    (number : v.integer? = some n) :
    Carries (.number n) d := by
  cases r with
  | integer m =>
    cases number
    exact .integer n
  | @double x y same =>
    have proper : x.isNaN = false := Value.isNaN_of_exactInteger? number
    obtain rfl : x = y := same.resolve_right fun nan => Bool.false_ne_true (proper.symm.trans nan.1)
    exact .whole number
  | _ => cases number

theorem printable_return (d : Data) : Printable (ascii "return " ++ d.render) :=
  .append (by decide) d.printable_render

theorem Carries.printable {c : String} {d : Data} (carries : Carries (.code c) d) :
    Printable (codes c.toUTF8) ∧ ascii "return " <+: codes c.toUTF8 := by
  cases carries with
  | code returns =>
    rw [returns, codes_bytes]
    exact ⟨printable_return d, List.prefix_append _ _⟩

section Encoding

variable {Q : Type} {outer : Depth} {base : Heap} {v : Value} {below : List Value} {d : Data}

theorem comes_swap (h : Heap) (v w : Value) (below : List Value) :
    Comes (Q := Q) outer (Evaluation.op .swap) ⟨h, v :: w :: below⟩ () ⟨h, w :: v :: below⟩ :=
  .op_pure fun _ => rfl

theorem encode_shown {text : List UInt8} {calls : Nat} (below : List Value)
    (kind : ValueKind.ofValue v = .other) (intact : base.Intact)
    (shows : Shows base [] calls v text) (room : (hostDepth outer).Admits (calls + 1) 1) :
    ∃ c h, Comes (Q := Q) outer encode ⟨base, v :: below⟩ (.code c) ⟨h, below⟩ ∧
      c.toUTF8 = bytes (ascii "return " ++ text) ∧ Heap.Keeps none base h := by
  have load :=
    Stack.load_loaded DumpChunk.read_dump (show Stack.zeroByte? dumpChunk = none by decide)
      base (v :: below)
  have keeps := Heap.Keeps.loaded base DumpChunk.chunk dumpChunk
  obtain ⟨h₂, returns, keeps₂⟩ :=
    DumpChunk.returns_text (base.stored_loaded DumpChunk.chunk dumpChunk)
    (base.bound_loaded DumpChunk.chunk dumpChunk) (intact.mono keeps.kept)
    (fun _ _ => (shows.mono keeps.kept).renderable) room Site.native
  have whole : Printable (ascii "return " ++ text) := .append (by decide) shows.printable
  have low : ∀ c ∈ ascii "return " ++ text, c < 128 := fun c mem =>
    Nat.lt_of_le_of_lt (whole c mem).2 (by decide)
  have valid := Parcel.fromUTF8?_toUTF8 (Ascii.text (ascii "return " ++ text))
  rw [Ascii.toUTF8_text low] at valid
  have data : ∀ w ∈ [v], ∀ f, w ≠ .failure f := fun w mem f failure => by
    obtain rfl := List.mem_singleton.1 mem
    cases shows with
    | flat means => cases failure ▸ means
    | table => cases failure
  refine ⟨_, h₂, .bind (comes_peekKind base v below) ?_, Ascii.toUTF8_text low, keeps.trans keeps₂⟩
  rw [kind]
  exact .bind (.load load)
    (.bind (comes_swap _ _ _ below)
    (.bind (.call data returns) (.bind (comes_popText h₂ below valid) (.pure _ _))))

/-- A number, a text, or data in a heap whose library is in its place. -/
structure Crosses (h : Heap) (v : Value) (d : Data) : Prop where
  means : Represents h v d
  shallow : d.depth ≤ 100
  rendered : ValueKind.ofValue v = .other → h.Intact ∧ d.width < 0x7FFFFFFF

/-- A value that crosses is encoded as a parcel that holds it, and the heap keeps what it had. -/
theorem encode_crosses (crosses : Crosses base v d)
    (room : (hostDepth outer).Admits (d.depth + 3) 1) (below : List Value) :
    ∃ p h, Comes (Q := Q) outer encode ⟨base, v :: below⟩ p ⟨h, below⟩ ∧ Carries p d ∧
      Heap.Keeps none base h := by
  obtain ⟨r, shallow, rendered⟩ := crosses
  cases kind : ValueKind.ofValue v with
  | integer =>
    obtain ⟨n, number⟩ := ValueKind.ofValue_eq_integer kind
    exact ⟨_, base, encode_number kind number, .number r number, .refl none base⟩
  | text =>
    obtain ⟨t, rfl⟩ := ValueKind.ofValue_eq_text kind
    cases r with
    | string => exact ⟨_, base, encode_text t, .text t, .refl none base⟩
  | other =>
    obtain ⟨intact, narrow⟩ := rendered kind
    have shows : Shows base [] (d.depth + 2) v d.render :=
      (r.shows_iff fun _ onPath => absurd onPath List.not_mem_nil).2 ⟨rfl, d.calls_le, narrow⟩
    obtain ⟨c, h, comes, code, kept⟩ := encode_shown (Q := Q) below kind intact shows room
    exact ⟨_, h, comes, .code code, kept⟩

end Encoding

section Decoding

variable {Q : Type} {base : Heap} {v : Value} {d : Data} {p : Parcel}

theorem decode_code {c : String} (outer : Depth)
    (returns : c.toUTF8 = bytes (ascii "return " ++ d.render)) (r : Represents base v d)
    (shallow : d.depth + 4 < nestingLimit) (h : Heap) (values : List Value) :
    ∃ w h', Comes (Q := Q) outer (decode (.code c)) ⟨h, values⟩ () ⟨h', w :: values⟩ ∧
      Heap.Keeps none h h' ∧
      Represents h' w d := by
  have ordered := (Data.represents_ordered d v).2 r
  have read := Data.read_return d.ordered (by rwa [ordered.depth_unique r])
  rw [Data.write_ordered, ← returns] at read
  obtain ⟨h₁, cell, chunk, load, keeps₁, -, stored, -⟩ :=
    Stack.load_eq read (show Stack.zeroByte? codeChunk = none by decide) h values
  obtain ⟨w, h₂, result, keeps₂, means⟩ :=
    Data.returns_tree stored ordered (hostDepth outer) Site.native
  exact ⟨w, h₂, .bind (.load load) (.call (fun _ mem => absurd mem List.not_mem_nil) result),
    keeps₁.trans keeps₂, (Data.represents_ordered d w).1 means⟩

/-- A parcel that holds data is decoded as one value that is the data.  If it is a
text, the collector must be idle, since otherwise finalizers have a say. -/
theorem decode_restores (outer : Depth) (carries : Carries p d) (r : Represents base v d)
    (shallow : d.depth + 4 < nestingLimit) (h : Heap)
    (idle : ∀ t, p = .text t → h.collectsNow = false) (values : List Value) :
    ∃ w h', Comes (Q := Q) outer (decode p) ⟨h, values⟩ () ⟨h', w :: values⟩ ∧
      Heap.Keeps none h h' ∧
      Restores h' w d := by
  cases carries with
  | integer n => exact ⟨.integer n, h, .op_pure fun _ => rfl, .refl none h, .same (.integer n)⟩
  | @whole x n exact =>
    exact ⟨.integer n, h, .op_pure fun _ => rfl, .refl none h,
      .whole (by simp [Value.rawEq, exact])⟩
  | text s => exact ⟨.ofText s, h, comes_pushText (idle s rfl) s values, .refl none h,
    .same (.string s.toUTF8)⟩
  | code returns =>
    obtain ⟨w, h', decodes, keeps, means⟩ := decode_code outer returns r shallow h values
    exact ⟨w, h', decodes, keeps, .same means⟩

end Decoding

/-- Data on top of a stack is encoded, and any interpreter decodes the parcel as
one value that is the data; all that it had, its globals among it, stays as it
was.  The library of the interpreter that encodes must be in its place.  If the
data is a text, the collector of the one that decodes must be idle, as it is in a
new one.  A table as wide as `table.sort` refuses would need more instructions,
at least one for each entry, than a chunk can have. -/
theorem decode_encode {Q Q' : Type} (source : Interpreter Q) (target : Interpreter Q') {v : Value}
    {below : List Value} {d : Data} (on_top : source.stack.values = v :: below)
    (intact : source.stack.heap.Intact) (means : Represents source.stack.heap v d)
    (shallow : d.depth ≤ 100) (narrow : d.width < 0x7FFFFFFF)
    (idle : ∀ t, v = .ofText t → target.stack.heap.collectsNow = false) :
    ∃ (p : Parcel) (w : Value) (h h' : Heap),
      source.Ends encode (.ok p) ⟨h, below⟩ ∧
      target.Ends (decode p) (.ok ()) ⟨h', w :: target.stack.values⟩ ∧
      Restores h' w d ∧ Heap.Keeps none target.stack.heap h' ∧
      ∀ c, p = .code c → Printable (codes c.toUTF8) ∧ ascii "return " <+: codes c.toUTF8 := by
  obtain ⟨⟨base, values⟩, functions⟩ := source
  cases on_top
  have room := Interpreter.admits_outermost (Q := Q) ⟨⟨base, v :: below⟩, functions⟩ _ _
    (show d.depth + 3 < 3900 by omega) (show 1 + 1 < Depth.nestedLimit by decide)
  have admitted : d.depth + 4 < nestingLimit := by
    have limit : nestingLimit = 200 := rfl
    omega
  obtain ⟨p, h, encoded, carries, -⟩ :=
    encode_crosses (Q := Q) ⟨means, shallow, fun _ => ⟨intact, narrow⟩⟩ room below
  have quiet : ∀ t, p = .text t → target.stack.heap.collectsNow = false := by
    rintro t rfl
    cases carries with
    | text => cases means with | string => exact idle t rfl
  obtain ⟨w, h', decoded, keeps, restores⟩ :=
    decode_restores (Q := Q') target.outermost carries means admitted target.stack.heap
      quiet target.stack.values
  refine ⟨p, w, h, h', encoded.run, decoded.run, restores, keeps, ?_⟩
  rintro c rfl
  exact carries.printable

/-- A new interpreter with a table on its stack, whose one item is no UTF-8. -/
def holding : Interpreter Empty :=
  ⟨⟨(Interpreter.preparedHeap.newTable
    (Table.empty.set (.integer 1) (.string (bytes [200, 55])))).2,
    [.table Interpreter.preparedHeap.tables.size]⟩, []⟩

theorem represents_holding :
    Represents holding.stack.heap (.table Interpreter.preparedHeap.tables.size)
    (.table [(.integer 1, .string (bytes [200, 55]))]) := by
  have one : (Table.empty.set (.integer 1) (.string (bytes [200, 55]))).live.Perm
      [(.integer 1, .string (bytes [200, 55]))] :=
    Table.empty.live_set rfl (Table.get_empty _) rfl
  exact .table [((.integer 1, .string (bytes [200, 55])), (.integer 1, .string (bytes [200, 55])))]
    Array.getElem?_push_size
    (Table.metatable_set _ _ _) one (by simpa using .integer 1) (by simpa using .string _)

theorem table_crosses : holding.stack.heap.Intact ∧ ∃ (p : Parcel) (w : Value) (h h' : Heap),
    holding.Ends encode (.ok p) ⟨h, []⟩ ∧ (Interpreter.create : Interpreter Empty).Ends
      (decode p) (.ok ()) ⟨h', [w]⟩ ∧
    Restores h' w (.table [(.integer 1, .string (bytes [200, 55]))]) := by
  have intact : holding.stack.heap.Intact :=
    Interpreter.intact_preparedHeap.mono (Heap.Keeps.newTable _ _).kept
  obtain ⟨p, w, h, h', encoded, decoded, restores, -⟩ :=
    decode_encode holding (Interpreter.create : Interpreter Empty) rfl
    intact represents_holding (by decide) (by decide) fun _ string => Value.noConfusion string
  exact ⟨intact, p, w, h, h', encoded, decoded, restores⟩

end SealedLua
