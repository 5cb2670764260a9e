import SealedLua.Proofs.Engine.Cycles

/-!
# One parcel for one tree

Values that say the same, in whatever heaps, are encoded as the same parcel or
are both refused.  What a table shares, the order of its entries in memory and
what was in it before do not show, since the text of a value is the text of the
tree that it says (`Represents.shows_iff`).  Code that comes of a value is the
code of what it is decoded as.
-/

namespace SealedLua

open Lua

namespace Lua.Represents

variable {h h' : Heap} {v w : Value} {d : Data}

/-- A value that crosses as a number or a text is told by what it says. -/
theorem eq_of_kind (r : Represents h v d) (s : Represents h' w d)
    (kind : ValueKind.ofValue v ≠ .other) : w = v := by
  cases r with
  | integer n =>
    cases s
    rfl
  | string t =>
    cases s
    rfl
  | @double x y same =>
    have number : ¬x.isNaN = true := by
      rw [ValueKind.ofValue] at kind
      split at kind
      · next whole =>
        obtain ⟨n, exact⟩ := Option.isSome_iff_exists.1 whole
        rw [Value.isNaN_of_exactInteger? exact]
        exact Bool.false_ne_true
      · exact absurd rfl kind
    obtain rfl : x = y := same.resolve_right fun nan => number nan.1
    cases s with
    | double same' => rw [same'.resolve_right fun nan => number nan.2]
  | _ => exact absurd rfl kind

theorem kind_eq (r : Represents h v d) (s : Represents h' w d) :
    ValueKind.ofValue v = ValueKind.ofValue w := by
  by_cases left : ValueKind.ofValue v = .other
  · by_cases right : ValueKind.ofValue w = .other
    · rw [left, right]
    · rw [s.eq_of_kind r right]
  · rw [r.eq_of_kind s left]

end Lua.Represents

section Encoding

variable {Q : Type} {outer : Depth} {base : Heap} {v : Value} {d : Data}
  (unmodified : base.Unmodified) (means : Represents base v d) (kind : ValueKind.ofValue v = .other)
  (left : (hostDepth outer).Leaves (dumpCalls outer + 1) 1) (below : List Value)

include unmodified means kind left

/-- What says a tree that can be rendered is encoded as the code of the tree. -/
theorem encode_data {c : String} (code : c.toUTF8 = bytes (ascii "return " ++ d.render))
    (room : d.calls ≤ dumpCalls outer) (narrow : d.width < 0x7FFFFFFF) :
    ∃ h, Comes (Q := Q) outer encode ⟨base, v :: below⟩ (.code c) ⟨h, below⟩ := by
  obtain ⟨c', h, comes, code', -⟩ := encode_shown (Q := Q) below kind unmodified.intact
    ((means.shows_iff (List.forall_mem_nil _)).2 ⟨rfl, room, narrow⟩) left.admits
  obtain rfl := Parcel.toUTF8_injective (code.trans code'.symm)
  exact ⟨h, comes⟩

theorem encode_data_refused (modest : d.width < 2 ^ 62)
    (unfit : ¬(d.calls ≤ dumpCalls outer ∧ d.width < 0x7FFFFFFF)) :
    ∃ s h, Halts (Q := Q) outer encode ⟨base, v :: below⟩ (.script s) ⟨h, below⟩ := by
  have hides : Hides base [] (dumpCalls outer) v := fun text shows => unfit (means.of_shows shows).2
  obtain ⟨s, h, halts, -⟩ :=
    encode_hidden (Q := Q) unmodified kind ((means.plainBelow modest).traversable [])
      hides left below
  exact ⟨_, h, halts⟩

end Encoding

/-- An interpreter encodes what is on top of its stack as a parcel.  Or it refuses
it, as the tree is as deep as calls can go there, or a table in it is as wide as
`table.sort` refuses. -/
def Interpreter.Renders {Q : Type} (i : Interpreter Q) (below : List Value)
    (d : Data) (p : Parcel) : Prop :=
  (∃ h, i.Ends encode (.ok p) ⟨h, below⟩) ∨
    (i.stack.heap.circumstances.callLimit ≤ d.depth + 3 ∨ 0x7FFFFFFF ≤ d.width) ∧
      ∃ s h, i.Ends encode (.error (.script s)) ⟨h, below⟩

theorem Interpreter.Renders.ends {Q : Type} {i : Interpreter Q}
    {below : List Value} {d : Data} {p : Parcel} (renders : i.Renders below d p)
    (shallow : d.depth + 3 < i.stack.heap.circumstances.callLimit) (narrow : d.width < 0x7FFFFFFF) :
    ∃ h, i.Ends encode (.ok p) ⟨h, below⟩ := by
  rcases renders with ends | ⟨unfit, -⟩
  · exact ends
  · omega

section Renders

variable {Q : Type} {base : Heap} {v : Value} {d : Data} {below : List Value}
  {functions : List (HostFunction Q)} {c : String} (unmodified : base.Unmodified)
  (means : Represents base v d) (code : c.toUTF8 = bytes (ascii "return " ++ d.render))

include unmodified means code

theorem Interpreter.renders_code (kind : ValueKind.ofValue v = .other) (modest : d.width < 2 ^ 62) :
    (⟨⟨base, v :: below⟩, functions⟩ : Interpreter Q).Renders below d (.code c) := by
  let i : Interpreter Q := ⟨⟨base, v :: below⟩, functions⟩
  by_cases fit : d.calls ≤ dumpCalls i.outermost ∧ d.width < 0x7FFFFFFF
  · obtain ⟨h, comes⟩ :=
      encode_data unmodified means kind (leaves_outermost i) below code fit.1 fit.2
    exact .inl ⟨h, comes.run⟩
  · obtain ⟨s, h, halts⟩ :=
      encode_data_refused unmodified means kind (leaves_outermost i) below modest fit
    refine .inr ⟨?_, s, h, halts.run⟩
    have calls := d.calls_le
    have limit : dumpCalls i.outermost + 2 = base.circumstances.callLimit := dumpCalls_outermost i
    change base.circumstances.callLimit ≤ d.depth + 3 ∨ 0x7FFFFFFF ≤ d.width
    omega

end Renders

theorem Interpreter.unmodified_create {Q : Type} (circumstances : Circumstances) :
    (create circumstances : Interpreter Q).stack.heap.Unmodified :=
  unmodified_preparedHeap.mono (Heap.kept_under preparedHeap circumstances)

/-- A new interpreter that decodes code of a tree encodes what comes of it as the same code. -/
theorem Interpreter.renders_again {R : Type} {base : Heap} {v : Value} {d : Data} {c : String}
    (means : Represents base v d) (code : c.toUTF8 = bytes (ascii "return " ++ d.render))
    (kind : ValueKind.ofValue v = .other) (shallow : d.depth ≤ 100)
    (narrow : d.width < 0x7FFFFFFF) (circumstances : Circumstances) :
    ∃ g, (create circumstances : Interpreter R).Ends (decode (.code c) >>= fun _ => encode)
      (.ok (.code c)) ⟨g, []⟩ := by
  let i : Interpreter R := create circumstances
  have admitted : d.depth + 4 < nestingLimit := by
    have limit : nestingLimit = 200 := rfl
    omega
  have room : d.calls ≤ dumpCalls i.outermost := by
    have limit : dumpCalls i.outermost + 2 = circumstances.callLimit := dumpCalls_outermost i
    have ample := circumstances.ample
    have calls := d.calls_le
    omega
  obtain ⟨w, g, decodes, keeps, same⟩ :=
    decode_code (Q := R) i.outermost code means admitted i.stack.heap []
  obtain ⟨g', again⟩ :=
    encode_data (Q := R) ((unmodified_create (Q := R) circumstances).mono keeps.kept) same
    ((means.kind_eq same).symm.trans kind) (leaves_outermost i) [] code room narrow
  have whole : Comes i.outermost (decode (.code c) >>= fun _ => encode) i.stack (.code c)
    ⟨g', []⟩ := .bind decodes again
  exact ⟨g', whole.run⟩

/-- The rendering is canonical.

There is one parcel as which all values that say a tree are encoded, by whatever
interpreter.  An interpreter only refuses the tree if it is as deep as calls can
go there, or a table in it as wide as `table.sort` refuses.  A new interpreter
that decodes code of a tree and encodes what comes of it has the same code again,
whatever the circumstances.  A table of `2 ^ 62` entries is in no memory; below
that the number of an entry is a number of the language. -/
theorem rendering_is_canonical {Q Q' R : Type} (i : Interpreter Q)
    (i' : Interpreter Q') {v v' : Value} {below below' : List Value} {d : Data}
    (on_top : i.stack.values = v :: below) (on_top' : i'.stack.values = v' :: below')
    (unmodified : i.stack.heap.Unmodified) (unmodified' : i'.stack.heap.Unmodified)
    (means : Represents i.stack.heap v d)
    (means' : Represents i'.stack.heap v' d) (modest : d.width < 2 ^ 62) :
    ∃ p, Carries p d ∧ i.Renders below d p ∧ i'.Renders below' d p ∧
      ∀ c h, i.Ends encode (.ok (.code c)) ⟨h, below⟩ → d.depth ≤ 100 → ∀ circumstances,
        ∃ g, (Interpreter.create circumstances : Interpreter R).Ends (decode (.code c) >>= fun _ =>
          encode) (.ok (.code c)) ⟨g, []⟩ := by
  obtain ⟨⟨base, values⟩, functions⟩ := i
  obtain ⟨⟨base', values'⟩, functions'⟩ := i'
  cases on_top
  cases on_top'
  -- What is no code is not rendered again.
  have plain : ∀ {i : Interpreter Q} {p : Parcel} {h : Heap}, i.Ends encode (.ok p) ⟨h, below⟩ →
      (∀ c, p ≠ .code c) →
      ∀ c h, ¬i.Ends encode (.ok (.code c)) ⟨h, below⟩ := by
    intro i p h ends other c h' ends'
    exact other c (Except.ok.inj (ends.unique ends').1)
  cases kind : ValueKind.ofValue v with
  | integer =>
    obtain ⟨n, number⟩ := ValueKind.ofValue_eq_integer kind
    obtain rfl := means.eq_of_kind means' (by rw [kind]; exact ValueKind.noConfusion)
    have ends : (⟨⟨base, v' :: below⟩, functions⟩ : Interpreter Q).Ends encode
        (.ok (.number n)) ⟨base, below⟩ :=
      (encode_number kind number).run
    refine ⟨.number n, .number means number, .inl ⟨base, ends⟩,
      .inl ⟨base', (encode_number kind number).run⟩, ?_⟩
    exact fun c h code => absurd code (plain ends (fun _ => Parcel.noConfusion) c h)
  | text =>
    obtain rfl := means.eq_of_kind means' (by rw [kind]; exact ValueKind.noConfusion)
    obtain ⟨t, rfl⟩ := ValueKind.ofValue_eq_text kind
    have carries : Carries (.text t) d := by
      cases means with
      | string => exact .text t
    have ends : (⟨⟨base, .ofText t :: below⟩, functions⟩ : Interpreter Q).Ends encode
        (.ok (.text t)) ⟨base, below⟩ :=
      (encode_text t).run
    refine ⟨.text t, carries, .inl ⟨base, ends⟩, .inl ⟨base', (encode_text t).run⟩, ?_⟩
    exact fun c h code => absurd code (plain ends (fun _ => Parcel.noConfusion) c h)
  | other =>
    have kind' : ValueKind.ofValue v' = .other := (means.kind_eq means').symm.trans kind
    have printable := printable_return d
    have code := Ascii.toUTF8_text fun c mem => Nat.lt_of_le_of_lt (printable c mem).2 (by decide)
    have renders : (⟨⟨base, v :: below⟩, functions⟩ : Interpreter Q).Renders below d (.code _) :=
      Interpreter.renders_code unmodified means code kind modest
    refine ⟨_, .code code, renders,
      Interpreter.renders_code unmodified' means' code kind' modest, ?_⟩
    intro c h ends shallow circumstances
    by_cases narrow : d.width < 0x7FFFFFFF
    · rcases renders with ⟨h', ends'⟩ | ⟨-, s, h', refused⟩
      · obtain rfl := Parcel.code.inj (Except.ok.inj (ends.unique ends').1)
        exact Interpreter.renders_again means code kind shallow narrow circumstances
      · cases (ends.unique refused).1
    · obtain ⟨s, h', halts⟩ :=
        encode_data_refused unmodified means kind (leaves_outermost ⟨⟨base, v :: below⟩, functions⟩)
        below modest fun fit => narrow fit.2
      cases (ends.unique (halts.run (i := ⟨⟨base, v :: below⟩, functions⟩))).1

/-- Tables in one another, the innermost of which holds the number one. -/
def nestedData : Nat → Data
  | 0 => .integer 1
  | n + 1 => .table [(.integer 1, nestedData n)]

/-- Such tables on the heap of a new interpreter, with the outermost. -/
def nestedTables : Nat → Heap × Value
  | 0 => ((Interpreter.create : Interpreter Empty).stack.heap, .integer 1)
  | n + 1 =>
    let (h, v) := nestedTables n
    let (id, h) := h.newTable (Table.empty.set (.integer 1) v)
    (h, .table id)

theorem calls_nestedData (n : Nat) : n < (nestedData n).calls := by
  induction n with
  | zero => exact Nat.one_pos
  | succ n ih =>
    simp only [nestedData, Data.calls, Data.callsAll, Data.callsEntry]
    omega

theorem width_nestedData (n : Nat) : (nestedData n).width ≤ 1 := by
  induction n with
  | zero => exact Nat.zero_le 1
  | succ n ih => simp [nestedData, Data.width, Data.widthAll, Data.widthEntry, ih]

theorem keeps_nestedTables (n : Nat) :
    Heap.Keeps none (Interpreter.create : Interpreter Empty).stack.heap (nestedTables n).1 := by
  induction n with
  | zero => exact .refl none _
  | succ n ih => exact ih.trans (.newTable _ _)

theorem represents_nestedTables (n : Nat) :
    Represents (nestedTables n).1 (nestedTables n).2 (nestedData n) := by
  induction n with
  | zero => exact .integer 1
  | succ n ih =>
    have proper : (nestedTables n).2.isNil = false := by cases n <;> rfl
    have one : (Table.empty.set (.integer 1) (nestedTables n).2).live.Perm
        [(.integer 1, (nestedTables n).2)] :=
      Table.empty.live_set rfl (Table.get_empty _) proper
    have kept : Represents (nestedTables (n + 1)).1 (nestedTables n).2 (nestedData n) :=
      ih.mono (Heap.Keeps.newTable _ _).kept
    exact .table [((.integer 1, (nestedTables n).2), (.integer 1, nestedData n))]
      Array.getElem?_push_size
      (Table.metatable_set _ _ _) one (by simpa using .integer 1) (by simpa using kept)

/-- A new interpreter refuses them when they are as deep as its calls can go. -/
theorem exists_refused (n : Nat) (deep : 190000 ≤ n + 1) :
    ∃ (i : Interpreter Empty) (v : Value), i.stack.values = [v] ∧
    i.stack.heap.Unmodified ∧ Represents i.stack.heap v (nestedData (n + 1)) ∧
      ∃ s h, i.Ends encode (.error (.script s)) ⟨h, []⟩ := by
  let i : Interpreter Empty := ⟨⟨(nestedTables (n + 1)).1, [(nestedTables (n + 1)).2]⟩, []⟩
  have keeps := keeps_nestedTables (n + 1)
  have unmodified := (Interpreter.unmodified_create (Q := Empty) {}).mono keeps.kept
  have means := represents_nestedTables (n + 1)
  have limit : dumpCalls i.outermost + 2 = 190000 :=
    (dumpCalls_outermost i).trans (congrArg Circumstances.callLimit keeps.circumstances)
  have unfit : ¬((nestedData (n + 1)).calls ≤ dumpCalls i.outermost ∧
      (nestedData (n + 1)).width < 0x7FFFFFFF) := by
    rintro ⟨fit, -⟩
    have calls := calls_nestedData (n + 1)
    omega
  have modest := Nat.lt_of_le_of_lt (width_nestedData (n + 1)) (show 1 < 2 ^ 62 by decide)
  obtain ⟨s, h, halts⟩ :=
    encode_data_refused (Q := Empty) unmodified means rfl (leaves_outermost i) [] modest unfit
  exact ⟨i, _, rfl, unmodified, means, _, h, halts.run⟩

/-- A tree that is too deep has no parcel, although there is nothing in it that has none. -/
theorem deep_tree_is_refused : ∃ (i : Interpreter Empty) (v : Value), i.stack.values = [v] ∧
    i.stack.heap.Unmodified ∧
    Represents i.stack.heap v (nestedData 200000) ∧ ∃ s h,
      i.Ends encode (.error (.script s)) ⟨h, []⟩ :=
  exists_refused 199999 (by decide)

/-- A new interpreter with a table on its stack. -/
def filled (t : Table) : Interpreter Empty :=
  ⟨⟨(Interpreter.preparedHeap.newTable t).2, [.table Interpreter.preparedHeap.tables.size]⟩, []⟩

theorem unmodified_filled (t : Table) : (filled t).stack.heap.Unmodified :=
  Interpreter.unmodified_preparedHeap.mono (Heap.Keeps.newTable _ _).kept

theorem represents_filled {k l x y : Int64} (apart : k ≠ l) (entries : List (Int64 × Int64))
    (perm : entries.Perm [(l, y), (k, x)]) :
    Represents
      (filled ((Table.empty.set (.integer k) (.integer x)).set (.integer l)
        (.integer y))).stack.heap
      (.table Interpreter.preparedHeap.tables.size)
        (.table (entries.map fun e => (.integer e.1, .integer e.2))) := by
  have other : ¬(Value.integer l).toKey = (Value.integer k).toKey := fun same =>
    apart (Value.integer.inj same).symm
  have absent : (Table.empty.set (.integer k) (.integer x)).get (.integer l) = .nil := by
    rw [Table.get_set _ rfl, if_neg other]
    exact Table.get_empty _
  have first : (Table.empty.set (.integer k) (.integer x)).live.Perm [(.integer k, .integer x)] :=
    Table.empty.live_set rfl (Table.get_empty _) rfl
  have both :=
    (Table.live_set _ rfl absent rfl).trans (first.cons (Value.integer l, Value.integer y))
  let beside (e : Int64 × Int64) : (Value × Value) × (Data × Data) :=
    ((.integer e.1, .integer e.2), (.integer e.1, .integer e.2))
  have all : entries.map (fun e => (Data.integer e.1, Data.integer e.2)) =
      (entries.map beside).map (·.2) := by
    rw [List.map_map]
    rfl
  rw [all]
  refine .table (entries.map beside) Array.getElem?_push_size
    (by rw [Table.metatable_set, Table.metatable_set]; rfl) ?_ ?_ ?_
  · have listed := (perm.map beside).map Prod.fst
    exact both.trans listed.symm
  · exact List.forall_mem_map.2 fun e _ => .integer e.1
  · exact List.forall_mem_map.2 fun e _ => .integer e.2

/-- Which entry came first does not show. -/
theorem order_does_not_show : ∃ c h h' g,
    (filled ((Table.empty.set (.integer 1) (.integer 2)).set (.integer 3) (.integer 4))).Ends encode
      (.ok (.code c)) ⟨h, []⟩ ∧
    (filled ((Table.empty.set (.integer 3) (.integer 4)).set (.integer 1) (.integer 2))).Ends encode
      (.ok (.code c)) ⟨h', []⟩ ∧
    (Interpreter.create : Interpreter Empty).Ends (decode (.code c) >>= fun _ => encode)
      (.ok (.code c)) ⟨g, []⟩ := by
  have means := represents_filled (k := 1) (l := 3) (x := 2) (y := 4) (by decide)
    [(1, 2), (3, 4)] (.swap _ _ _)
  have means' := represents_filled (k := 3) (l := 1) (x := 4) (y := 2) (by decide)
    [(1, 2), (3, 4)] (.refl _)
  obtain ⟨p, carries, renders, renders', again⟩ :=
    rendering_is_canonical (R := Empty) (filled _) (filled _) rfl rfl (unmodified_filled _)
      (unmodified_filled _) means means' (by decide)
  have shallow : ∀ t, 4 < (filled t).stack.heap.circumstances.callLimit := fun t =>
    Nat.lt_of_lt_of_le (by decide) (filled t).stack.heap.circumstances.ample
  obtain ⟨h, runs⟩ := renders.ends (shallow _) (by decide)
  obtain ⟨h', runs'⟩ := renders'.ends (shallow _) (by decide)
  cases carries with
  | @code c d returns =>
    obtain ⟨g, again⟩ := again c h runs (by decide) {}
    exact ⟨c, h, h', g, runs, runs', again⟩

end SealedLua
