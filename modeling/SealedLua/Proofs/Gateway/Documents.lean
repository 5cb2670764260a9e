import Mathlib.Data.List.Nodup
import SealedLua.Proofs.Gateway.Keys
import SealedLua.Proofs.Json.Tokens

/-!
# Configuration documents are read faithfully

The members of an object that is a configuration document say what the values of the
configuration are, whatever their order and however they are spelled.  A reader keeps a
draft with the settings that it has come across; after all members it holds what each of
them says, and nothing else.
-/

namespace SealedLua.Configuration

open Json

abbrev Members : Type := List (String × Json.Value)

def Bounds (ms : Members) (name : String) (usual n : Nat) : Prop :=
  (name, .natural n) ∈ ms ∧ n < 2 ^ 64 ∨ name ∉ ms.map Prod.fst ∧ n = usual

/-- What is said of the directory in which scripts are kept. -/
def Roots (ms : Members) (name : String) (root : Option String) : Prop :=
  (∃ path, (name, .text path) ∈ ms ∧ root = some path) ∨ (name, .null) ∈ ms ∧ root = none ∨
    name ∉ ms.map Prod.fst ∧ root = none

def names : List String :=
  ["master_key", "buffer_capacity", "max_call_depth", "max_name_len", "storage_root"]

/-- These members describe this configuration. -/
structure Describes (ms : Members) (c : Configuration) : Prop where
  known : ∀ m ∈ ms, m.1 ∈ names
  once : (ms.map Prod.fst).Nodup
  secret : ∃ digits, ("master_key", .text digits) ∈ ms ∧ c.secret.Spelled digits
  capacity : Bounds ms "buffer_capacity" 8192 c.capacity
  depthLimit : Bounds ms "max_call_depth" 8 c.depthLimit
  nameLimit : Bounds ms "max_name_len" 64 c.nameLimit
  storageRoot : Roots ms "storage_root" c.storageRoot
  positiveCapacity : 0 < c.capacity
  positiveNameLimit : 0 < c.nameLimit

/-- Members that no configuration has. -/
inductive Refused (ms : Members) : Prop
  | unknown {m : String × Json.Value} (mem : m ∈ ms) (other : m.1 ∉ names)
  | repeated (again : ¬ (ms.map Prod.fst).Nodup)
  | noSecret (missing : "master_key" ∉ ms.map Prod.fst)
  | badSecret {v : Json.Value} (mem : ("master_key", v) ∈ ms)
    (bad : ∀ digits, v = .text digits → ¬ HasDigits digits)
  | zeroCapacity (mem : ("buffer_capacity", .natural 0) ∈ ms)
  | zeroNameLimit (mem : ("max_name_len", .natural 0) ∈ ms)

namespace Field

theorem mem_all (f : Field) : f ∈ all := by cases f <;> decide

theorem name_injective {f g : Field} (h : f.name = g.name) : f = g := by
  revert h
  cases f <;> cases g <;> decide

theorem ofName?_eq_some_iff {k : String} {f : Field} : ofName? k = some f ↔ k = f.name := by
  constructor
  · intro h
    exact (by simpa using List.find?_some h : f.name = k).symm
  · rintro rfl
    cases f <;> rfl

def Setting : Field → Type
  | .masterKey => MasterSecret
  | .capacity | .depthLimit | .nameLimit => Nat
  | .storageRoot => Option String

def boundOf : Json.Value → Option Nat
  | .natural n => if n < Number.bound then some n else none
  | _ => none

def secretOf : Json.Value → Option MasterSecret
  | .text s => (readKey s).toOption
  | _ => none

def rootOf : Json.Value → Option (Option String)
  | .null => some none
  | .text s => some (some s)
  | _ => none

/-- What a value says of a field, if it may be one of that field. -/
def setting : (f : Field) → Json.Value → Option f.Setting
  | .masterKey => secretOf
  | .capacity | .depthLimit | .nameLimit => boundOf
  | .storageRoot => rootOf

theorem setting_unwanted {v : Json.Value} (h : v.Unwanted) (f : Field) : f.setting v = none := by
  cases v with
  | null | text => cases h
  | natural n =>
    have hn : ¬ n < Number.bound := Nat.not_lt.2 h
    cases f with
    | masterKey | storageRoot => rfl
    | capacity | depthLimit | nameLimit => exact if_neg hn
  | boolean | number | list | object => cases f <;> rfl

end Field

namespace Draft

def get (d : Draft) : (f : Field) → Option f.Setting
  | .masterKey => d.secret
  | .capacity => d.capacity
  | .depthLimit => d.depthLimit
  | .nameLimit => d.nameLimit
  | .storageRoot => d.storageRoot

def set (d : Draft) : (f : Field) → f.Setting → Draft
  | .masterKey, x => { d with secret := some x }
  | .capacity, x => { d with capacity := some x }
  | .depthLimit, x => { d with depthLimit := some x }
  | .nameLimit, x => { d with nameLimit := some x }
  | .storageRoot, x => { d with storageRoot := some x }

@[simp] theorem get_empty (f : Field) : get {} f = none := by cases f <;> rfl

theorem has_eq (d : Draft) (f : Field) : d.has f = (d.get f).isSome := by cases f <;> rfl

@[simp] theorem get_set (d : Draft) (f : Field) (x : f.Setting) :
    (d.set f x).get f = some x := by cases f <;> rfl

theorem get_set_of_ne (d : Draft) {f g : Field} (x : f.Setting) (h : g ≠ f) :
    (d.set f x).get g = d.get g := by
  cases f <;> cases g <;> first | rfl | exact absurd rfl h

theorem ext_get {d d' : Draft} (h : ∀ f, d.get f = d'.get f) : d = d' := by
  obtain ⟨a, b, c, e, g⟩ := d
  obtain ⟨a', b', c', e', g'⟩ := d'
  obtain rfl : a = a' := h .masterKey
  obtain rfl : b = b' := h .capacity
  obtain rfl : c = c' := h .depthLimit
  obtain rfl : e = e' := h .nameLimit
  obtain rfl : g = g' := h .storageRoot
  rfl

def add (d : Draft) (m : String × Json.Value) : Option Draft := do
  let f ← Field.ofName? m.1
  if d.has f then none else (f.setting m.2).map (d.set f)

def fill (d : Draft) : Members → Option Draft
  | [] => some d
  | m :: ms => (d.add m).bind fun d => d.fill ms

theorem add_eq_some_iff {d d' : Draft} {m : String × Json.Value} :
    d.add m = some d' ↔ ∃ f x, m.1 = Field.name f ∧ d.get f = none ∧ f.setting m.2 = some x ∧
      d' = d.set f x := by
  constructor
  · intro h
    unfold add at h
    obtain ⟨f, hf, h⟩ := Option.bind_eq_some_iff.1 h
    split at h
    · cases h
    next hnot =>
    obtain ⟨x, hx, rfl⟩ := Option.map_eq_some_iff.1 h
    rw [has_eq, Option.not_isSome_iff_eq_none] at hnot
    exact ⟨f, x, Field.ofName?_eq_some_iff.1 hf, hnot, hx, rfl⟩
  · rintro ⟨f, x, hf, hnot, hx, rfl⟩
    simp [add, Field.ofName?_eq_some_iff.2 hf, has_eq, hnot, hx]

/-- What members make of a draft: each of them is for a field of its own that was not
set before and sets it, and the other fields stay. -/
structure Filled (d : Draft) (ms : Members) (d' : Draft) : Prop where
  known : ∀ m ∈ ms, ∃ f : Field, m.1 = f.name
  once : (ms.map Prod.fst).Nodup
  fresh : ∀ f : Field, f.name ∈ ms.map Prod.fst → d.get f = none
  given : ∀ (f : Field) v, (f.name, v) ∈ ms → ∃ x, f.setting v = some x ∧ d'.get f = some x
  others : ∀ f : Field, f.name ∉ ms.map Prod.fst → d'.get f = d.get f

theorem Filled.cons {d d' : Draft} {f : Field} {v : Json.Value} {x : f.Setting} {ms : Members}
    (unset : d.get f = none) (told : f.setting v = some x) (h : Filled (d.set f x) ms d') :
    Filled d ((f.name, v) :: ms) d' := by
  have hnew : f.name ∉ ms.map Prod.fst := by
    intro hmem
    have hget := h.fresh f hmem
    rw [get_set] at hget
    cases hget
  refine ⟨?_, ?_, ?_, ?_, ?_⟩
  · intro m hm
    rcases List.mem_cons.1 hm with rfl | hm
    · exact ⟨f, rfl⟩
    · exact h.known m hm
  · exact List.nodup_cons.2 ⟨hnew, h.once⟩
  · intro g hg
    by_cases hgf : g = f
    · exact hgf ▸ unset
    · rw [← get_set_of_ne d x hgf]
      refine h.fresh g ((List.mem_cons.1 hg).resolve_left fun hname =>
        hgf (Field.name_injective hname))
  · intro g w hw
    rcases List.mem_cons.1 hw with hw | hw
    · obtain ⟨hname, rfl⟩ := Prod.mk.inj hw
      obtain rfl := Field.name_injective hname
      exact ⟨x, told, by rw [h.others _ hnew, get_set]⟩
    · exact h.given g w hw
  · intro g hg
    obtain ⟨hne, hg⟩ := not_or.1 (mt List.mem_cons.2 hg)
    rw [h.others g hg]
    exact get_set_of_ne d x fun hgf => hne (congrArg Field.name hgf)

theorem Filled.tail {d d' : Draft} {f : Field} {v : Json.Value} {x : f.Setting} {ms : Members}
    (h : Filled d ((f.name, v) :: ms) d') (told : f.setting v = some x) :
    Filled (d.set f x) ms d' := by
  obtain ⟨hnew, once⟩ := List.nodup_cons.1 h.once
  have hset : d'.get f = some x := by
    obtain ⟨y, hy, hget⟩ := h.given f v List.mem_cons_self
    rw [hget, ← hy, told]
  refine ⟨fun m hm => h.known m (List.mem_cons_of_mem _ hm), once, ?_, ?_, ?_⟩
  · intro g hg
    rw [get_set_of_ne d x (by rintro rfl; exact hnew hg)]
    exact h.fresh g (List.mem_cons_of_mem _ hg)
  · exact fun g w hw => h.given g w (List.mem_cons_of_mem _ hw)
  · intro g hg
    by_cases hgf : g = f
    · subst hgf
      rw [hset, get_set]
    · rw [get_set_of_ne d x hgf]
      refine h.others g fun hmem => ?_
      exact (List.mem_cons.1 hmem).elim (fun hname => hgf (Field.name_injective hname)) hg

theorem fill_eq_some_iff {d d' : Draft} {ms : Members} : d.fill ms = some d' ↔ Filled d ms d' := by
  induction ms generalizing d with
  | nil =>
    constructor
    · rintro ⟨⟩
      exact ⟨fun _ => nofun, List.nodup_nil, fun _ => nofun, fun _ _ => nofun, fun _ _ => rfl⟩
    · intro h
      exact congrArg some (ext_get fun f => (h.others f nofun).symm)
  | cons m ms ih =>
    obtain ⟨k, v⟩ := m
    constructor
    · intro h
      obtain ⟨d₁, hadd, hfill⟩ := Option.bind_eq_some_iff.1 h
      obtain ⟨f, x, rfl, unset, told, rfl⟩ := add_eq_some_iff.1 hadd
      exact (ih.1 hfill).cons unset told
    · intro h
      obtain ⟨f, rfl⟩ := h.known (k, v) List.mem_cons_self
      obtain ⟨x, told, -⟩ := h.given f v List.mem_cons_self
      have unset := h.fresh f List.mem_cons_self
      exact Option.bind_eq_some_iff.2 ⟨d.set f x, add_eq_some_iff.2 ⟨f, x, rfl, unset, told, rfl⟩,
        ih.2 (h.tail told)⟩

end Draft

/-- A reader answers what is expected, or refuses where nothing is. -/
def Answers {α : Type} (r : Except Refusal α) : Option α → Prop
  | some a => r = .ok a
  | none => ∃ e, r = .error e

section Values

variable {rest : List Char} {v : Json.Value} {t : Token} {ts : List Token}

theorem readBound_answers (h : ReadsAs rest v (t :: ts)) :
    Answers (readBound t) (Field.boundOf v) := by
  unfold readBound
  cases h with
  | null kind => rw [kind]; exact ⟨_, rfl⟩
  | text kind => rw [kind]; exact ⟨_, rfl⟩
  | natural small kind =>
    rw [kind, Field.boundOf, if_pos small]
    rfl
  | unwanted kind value =>
    have hnone : Field.boundOf v = none := Field.setting_unwanted value .capacity
    rw [hnone]
    split
    · next n hn => exact absurd hn (kind.natural n)
    · exact ⟨_, rfl⟩
    · exact ⟨_, rfl⟩

theorem readSecret_answers (h : ReadsAs rest v (t :: ts)) :
    Answers (readSecret t) (Field.secretOf v) := by
  unfold readSecret
  cases h with
  | null kind => rw [kind]; exact ⟨_, rfl⟩
  | natural small kind => rw [kind]; exact ⟨_, rfl⟩
  | @text t ts s kind =>
    rw [kind]
    change Answers ((readKey s).mapError _) (readKey s).toOption
    cases readKey s with
    | ok secret => rfl
    | error reason => exact ⟨_, rfl⟩
  | unwanted kind value =>
    have hnone : Field.secretOf v = none := Field.setting_unwanted value .masterKey
    rw [hnone]
    split
    · next s hs => exact absurd hs (kind.text s)
    · exact ⟨_, rfl⟩

theorem readRoot_answers (h : ReadsAs rest v (t :: ts)) :
    Answers (readRoot t) (Field.rootOf v) := by
  unfold readRoot
  cases h with
  | null kind => rw [kind]; rfl
  | natural small kind => rw [kind]; exact ⟨_, rfl⟩
  | text kind => rw [kind]; rfl
  | unwanted kind value =>
    have hnone : Field.rootOf v = none := Field.setting_unwanted value .storageRoot
    rw [hnone]
    split
    · next hnull => exact absurd hnull kind.null
    · next s hs => exact absurd hs (kind.text s)
    · exact ⟨_, rfl⟩

/-- Reading a value into a draft, whatever it is read with. -/
theorem Answers.map {α β : Type} {r : Except Refusal α} {x : Option α}
    (h : Answers r x) (f : α → β) :
    Answers (r >>= fun a => pure (f a)) (x.map f) := by
  cases x with
  | none =>
    obtain ⟨e, rfl⟩ := h
    exact ⟨e, rfl⟩
  | some a =>
    obtain rfl : r = .ok a := h
    rfl

theorem readValue_answers (h : ReadsAs rest v (t :: ts)) (d : Draft) (f : Field) :
    Answers (readValue d t f) ((f.setting v).map (d.set f)) := by
  cases f with
  | masterKey => exact (readSecret_answers h).map _
  | capacity | depthLimit | nameLimit => exact (readBound_answers h).map _
  | storageRoot => exact (readRoot_answers h).map _

end Values

/-- A key is read as the field that it names, unless that field is set already. -/
theorem readField_answers {t : Token} {name : String} (kind : t.kind = .text name) (d : Draft) :
    Answers (readField d t) ((Field.ofName? name).filter fun f => !d.has f) := by
  unfold readField
  rw [kind]
  dsimp only
  cases Field.ofName? name with
  | none => exact ⟨_, rfl⟩
  | some f => cases hf : d.has f <;> simp [hf, Answers, Option.filter]

/-- What a reader makes of a member: a draft with which it goes on after the
next token, or a refusal. -/
theorem readMembers_cons {rest : List Char} {v : Json.Value} {key colon value : Token}
    {ts : List Token} {name : String} (hkey : key.kind = .text name) (hcolon : colon.kind = .colon)
    (hvalue : ReadsAs rest v (value :: ts)) (d : Draft) :
    match d.add (name, v) with
    | some d' => ∀ next more, ts = next :: more → readMembers d (key :: colon :: value :: ts) =
        if next.kind = .objectEnd then (closeObject d' next).map (·, more)
        else if next.kind = .comma then readMembers d' more
        else .error (next.refuse .objectEndExpected)
    | none => ∃ e, readMembers d (key :: colon :: value :: ts) = .error e := by
  have hfield := readField_answers hkey d
  cases hname : (Field.ofName? name).filter fun f => !d.has f with
  | none =>
    have hadd : d.add (name, v) = none := by
      unfold Draft.add
      cases hof : Field.ofName? name with
      | none => rfl
      | some f =>
        rw [hof] at hname
        have hset : d.has f = true := by simpa [Option.filter] using hname
        simp [hset]
    rw [hname] at hfield
    obtain ⟨e, he⟩ := hfield
    rw [hadd]
    exact ⟨e, by rw [readMembers, he]; rfl⟩
  | some f =>
    rw [hname] at hfield
    have hread : readField d key = .ok f := hfield
    have hadd : d.add (name, v) = (f.setting v).map (d.set f) := by
      obtain ⟨hof, hset⟩ := Option.filter_eq_some_iff.1 hname
      have hset : d.has f = false := by simpa using hset
      simp [Draft.add, hof, hset]
    have hanswer := readValue_answers hvalue d f
    rw [hadd]
    cases hput : (f.setting v).map (d.set f) with
    | none =>
      rw [hput] at hanswer
      obtain ⟨e, he⟩ := hanswer
      refine ⟨e, ?_⟩
      cases ts <;> simp [readMembers, hread, hcolon, he, bind, Except.bind]
    | some d' =>
      rw [hput] at hanswer
      have hok : readValue d value f = .ok d' := hanswer
      rintro next more rfl
      simp only [readMembers, hread, hcolon, hok, bind, Except.bind, ne_eq,
        not_true_eq_false, if_false]
      cases closeObject d' next <;> rfl

section Objects

variable {s rest : List Char} {ts : List Token} {ms : Members}

theorem first_of_members (h : SpellsMembers s ms) (hs : Streams (s ++ rest) ts) :
    ∃ t ts' k, ts = t :: ts' ∧ t.kind = .text k := by
  cases h with
  | @one w k _ _ _ _ key _ beforeKey spellsKey | @more w k _ _ _ _ _ key _ _ beforeKey spellsKey =>
    simp only [List.append_assoc, List.cons_append] at hs
    obtain ⟨t, ts', hts, hkind, -⟩ := (hs.blank beforeKey).quoted spellsKey
    exact ⟨t, ts', _, hts, hkind⟩

theorem tokens_of_member {w k w' x s y key after : List Char} {v : Json.Value} (beforeKey : Blank w)
    (spellsKey : SpellsText k key) (afterKey : Blank w') (before : Blank x) (spells : Spells s v)
    (ends : Number.Ends (y ++ after))
    (hs : Streams (w ++ '"' :: k ++ '"' :: w' ++ ':' :: x ++ s ++ y ++ after) ts) :
    ∃ t colon value ts', ts = t :: colon :: value :: ts' ∧ t.kind = .text (String.ofList key) ∧
      colon.kind = .colon ∧
      ReadsAs (y ++ after) v (value :: ts') := by
  simp only [List.append_assoc, List.cons_append] at hs
  obtain ⟨t, ts₁, rfl, hkey, hs⟩ := (hs.blank beforeKey).quoted spellsKey
  obtain ⟨colon, ts₂, rfl, hcolon, hs⟩ :=
    (hs.blank afterKey).mark .colon (by decide) (fun _ => rfl) rfl
  have hvalue := ReadsAs.of_spells spells ends (hs.blank before)
  cases hvalue with
  | null | natural | text | unwanted =>
    exact ⟨t, colon, _, _, rfl, hkey, hcolon, by constructor <;> assumption⟩

theorem ends_of_blank {y more : List Char} (blank : Blank y) {c : Char}
    (hc : c = ',' ∨ c = '\x7d') :
    Number.Ends (y ++ c :: more) := by
  intro d hd
  have hmem : d = c ∨ d ∈ y := by
    cases y with
    | nil => exact .inl (Option.some.inj hd).symm
    | cons e y => exact .inr (by rw [← Option.some.inj hd]; exact List.mem_cons_self)
  rcases hmem with rfl | hmem
  · rcases hc with rfl | rfl <;> decide
  · rcases blank d hmem with rfl | rfl | rfl | rfl <;> decide

/-- A value that means something to a field is followed by the tokens after it. -/
theorem streams_of_setting {v : Json.Value} {value : Token} {f : Field} {x : f.Setting}
    (told : f.setting v = some x) (h : ReadsAs rest v (value :: ts)) : Streams rest ts := by
  cases h with
  | null _ others | natural _ _ others | text _ others => exact others
  | unwanted _ unwanted =>
    rw [Field.setting_unwanted unwanted f] at told
    cases told

theorem reads_member {w k w' x s y key more : List Char} {v : Json.Value} (beforeKey : Blank w)
    (spellsKey : SpellsText k key) (afterKey : Blank w') (before : Blank x)
    (spells : Spells s v) (after : Blank y) {c : Char} (hc : c = ',' ∨ c = '\x7d')
    (hs : Streams (w ++ '"' :: k ++ '"' :: w' ++ ':' :: x ++ s ++ y ++ c :: more) ts) (d : Draft) :
    match d.add (String.ofList key, v) with
    | some d' => ∃ next ts', Streams more ts' ∧
        readMembers d ts = if c = ',' then readMembers d' ts'
          else (closeObject d' next).map (·, ts')
    | none => ∃ e, readMembers d ts = .error e := by
  obtain ⟨t, colon, value, ts, rfl, hkey, hcolon, hvalue⟩ :=
    tokens_of_member beforeKey spellsKey afterKey before spells (ends_of_blank after hc) hs
  have hread := readMembers_cons hkey hcolon hvalue d
  cases hadd : d.add (String.ofList key, v) with
  | none =>
    rw [hadd] at hread
    exact hread
  | some d' =>
    rw [hadd] at hread
    obtain ⟨f, x, -, -, told, -⟩ := Draft.add_eq_some_iff.1 hadd
    have hmark := (streams_of_setting told hvalue).blank after
    rcases hc with rfl | rfl
    · obtain ⟨next, ts', rfl, hnext, hmore⟩ := hmark.mark .comma (by decide) (fun _ => rfl) rfl
      refine ⟨next, ts', hmore, ?_⟩
      rw [hread next ts' rfl, hnext, if_neg (by decide), if_pos rfl, if_pos rfl]
    · obtain ⟨next, ts', rfl, hnext, hmore⟩ := hmark.mark .objectEnd (by decide) (fun _ => rfl) rfl
      refine ⟨next, ts', hmore, ?_⟩
      rw [hread next ts' rfl, hnext, if_pos rfl, if_neg (by decide)]

/-- What comes of reading the members of an object from some draft on. -/
def Reads (d : Draft) (ms : Members) (rest : List Char) (ts : List Token) : Prop :=
  match d.fill ms with
  | some d' => ∃ t ts', Streams rest ts' ∧ readMembers d ts = (closeObject d' t).map (·, ts')
  | none => ∃ e, readMembers d ts = .error e

/-- Members are read one after the other into the draft that they fill. -/
theorem reads_members : ∀ {s : List Char} {ms : Members} {ts : List Token}, SpellsMembers s ms →
    Streams (s ++ '\x7d' :: rest) ts → ∀ d, Reads d ms rest ts
  | _, _, ts, @SpellsMembers.one _ _ _ _ _ _ key v beforeKey spellsKey afterKey before
    spells after, hs, d => by
    have hread := reads_member beforeKey spellsKey afterKey before spells after (.inr rfl) hs d
    unfold Reads
    rw [Draft.fill]
    cases hadd : d.add (String.ofList key, v) with
    | none =>
      rw [hadd] at hread
      exact hread
    | some d' =>
      rw [hadd] at hread
      exact hread
  | _, _, ts, @SpellsMembers.more _ _ _ _ _ _ _ key v _ beforeKey spellsKey afterKey before spells
      after others, hs, d => by
    rw [List.append_assoc, List.cons_append] at hs
    have hread := reads_member beforeKey spellsKey afterKey before spells after (.inl rfl) hs d
    unfold Reads
    rw [Draft.fill]
    cases hadd : d.add (String.ofList key, v) with
    | none =>
      rw [hadd] at hread
      exact hread
    | some d' =>
      rw [hadd] at hread
      obtain ⟨_, ts', hrest, hread⟩ := hread
      rw [if_pos rfl] at hread
      have hothers := reads_members others hrest d'
      unfold Reads at hothers
      rw [hread]
      exact hothers

theorem readDocument_object {text : String} (h : IsObject text ms) :
    match Draft.fill {} ms with
    | some d => ∃ t, readDocument (tokens text.toList) = closeObject d t
    | none => ∃ e, readDocument (tokens text.toList) = .error e := by
  obtain ⟨w, s, w', before, spells, after, htext⟩ := h
  have hs := streams_tokens text.toList
  generalize tokens text.toList = ts at hs ⊢
  rw [htext, List.append_assoc] at hs
  have hs := hs.blank before
  cases spells with
  | @emptyObject inside blank =>
    simp only [List.append_assoc, List.cons_append, List.nil_append] at hs
    obtain ⟨t, ts₁, rfl, hopen, hs⟩ := hs.mark .objectStart (by decide) (fun _ => rfl) rfl
    obtain ⟨t', ts₂, rfl, hclose, hs⟩ :=
      (hs.blank blank).mark .objectEnd (by decide) (fun _ => rfl) rfl
    refine ⟨t', ?_⟩
    simp only [readDocument, hopen, readObject, hclose, if_true]
    rfl
  | @object inside _ members =>
    simp only [List.append_assoc, List.cons_append, List.nil_append] at hs
    obtain ⟨t, ts₁, rfl, hopen, hs⟩ := hs.mark .objectStart (by decide) (fun _ => rfl) rfl
    obtain ⟨key, ts₂, k, rfl, hkey⟩ := first_of_members members hs
    have hobject : readObject (key :: ts₂) = readMembers {} (key :: ts₂) := by
      rw [readObject, if_neg (by rw [hkey]; exact nofun)]
    have hreads := reads_members members hs {}
    unfold Reads at hreads
    cases hfill : Draft.fill {} ms with
    | none =>
      rw [hfill] at hreads
      obtain ⟨e, he⟩ := hreads
      refine ⟨e, ?_⟩
      simp only [readDocument, hopen, hobject, he]
      rfl
    | some d =>
      rw [hfill] at hreads
      obtain ⟨t', ts', hrest, hread⟩ := hreads
      refine ⟨t', ?_⟩
      rw [← List.append_nil w'] at hrest
      obtain rfl := (hrest.blank after).nil
      simp only [readDocument, hopen, hobject, hread]
      cases closeObject d t' <;> rfl

end Objects

section Descriptions

variable {ms : Members} {c : Configuration}

theorem value_unique (once : (ms.map Prod.fst).Nodup) {name : String}
    {v v' : Json.Value} (h : (name, v) ∈ ms) (h' : (name, v') ∈ ms) : v = v' :=
  congrArg Prod.snd (List.inj_on_of_nodup_map once h h' rfl)

def slotOf {α : Type} (ms : Members) (name : String) (x : α) : Option α :=
  if name ∈ ms.map Prod.fst then some x else none

theorem slotOf_getD {α : Type} {name : String} {x usual : α}
    (h : name ∉ ms.map Prod.fst → x = usual) :
    (slotOf ms name x).getD usual = x := by
  unfold slotOf
  split
  · rfl
  · next hnot => exact (h hnot).symm

theorem slotOf_of_mem {α : Type} {name : String} {v : Json.Value} (h : (name, v) ∈ ms) (x : α) :
    slotOf ms name x = some x := if_pos (List.mem_map_of_mem h)

namespace Bounds

variable {name : String} {usual n : Nat}

theorem of_slot {slot : Option Nat}
    (given : ∀ v, (name, v) ∈ ms → ∃ x, Field.boundOf v = some x ∧ slot = some x)
    (others : name ∉ ms.map Prod.fst → slot = none) : Bounds ms name usual (slot.getD usual) := by
  by_cases hname : name ∈ ms.map Prod.fst
  · obtain ⟨⟨_, v⟩, hv, rfl⟩ := List.mem_map.1 hname
    obtain ⟨x, hx, rfl⟩ := given v hv
    cases v with
    | natural n =>
      change (if n < Number.bound then some n else none) = some x at hx
      obtain ⟨small, hn⟩ := Option.ite_none_right_eq_some.1 hx
      obtain rfl := Option.some.inj hn
      exact .inl ⟨hv, small⟩
    | null | boolean | number | text | list | object => cases hx
  · rw [others hname]
    exact .inr ⟨hname, rfl⟩

theorem boundOf (h : Bounds ms name usual n) (once : (ms.map Prod.fst).Nodup)
    {v : Json.Value} (hv : (name, v) ∈ ms) :
    Field.boundOf v = some n := by
  obtain ⟨hn, small⟩ | ⟨hnot, -⟩ := h
  · rw [value_unique once hv hn]
    exact if_pos small
  · exact absurd (List.mem_map_of_mem hv) hnot

theorem usual_of_not_mem (h : Bounds ms name usual n) (hnot : name ∉ ms.map Prod.fst) :
    n = usual := by
  obtain ⟨hn, -⟩ | ⟨-, rfl⟩ := h
  · exact absurd (List.mem_map_of_mem hn) hnot
  · rfl

theorem eq_zero (h : Bounds ms name usual n) (once : (ms.map Prod.fst).Nodup)
    (hv : (name, .natural 0) ∈ ms) : n = 0 := by
  have hzero : Field.boundOf (.natural 0) = some 0 := rfl
  have hn := h.boundOf once hv
  rw [hzero] at hn
  exact (Option.some.inj hn).symm

end Bounds

namespace Roots

variable {name : String} {root : Option String}

theorem of_slot {slot : Option (Option String)}
    (given : ∀ v, (name, v) ∈ ms → ∃ x, Field.rootOf v = some x ∧ slot = some x)
    (others : name ∉ ms.map Prod.fst → slot = none) : Roots ms name (slot.getD none) := by
  by_cases hname : name ∈ ms.map Prod.fst
  · obtain ⟨⟨_, v⟩, hv, rfl⟩ := List.mem_map.1 hname
    obtain ⟨x, hx, rfl⟩ := given v hv
    cases v with
    | null =>
      cases hx
      exact .inr (.inl ⟨hv, rfl⟩)
    | text path =>
      cases hx
      exact .inl ⟨path, hv, rfl⟩
    | natural | boolean | number | list | object => cases hx
  · rw [others hname]
    exact .inr (.inr ⟨hname, rfl⟩)

theorem rootOf (h : Roots ms name root) (once : (ms.map Prod.fst).Nodup)
    {v : Json.Value} (hv : (name, v) ∈ ms) :
    Field.rootOf v = some root := by
  obtain ⟨path, hpath, rfl⟩ | ⟨hnull, rfl⟩ | ⟨hnot, -⟩ := h
  · rw [value_unique once hv hpath]
    rfl
  · rw [value_unique once hv hnull]
    rfl
  · exact absurd (List.mem_map_of_mem hv) hnot

theorem none_of_not_mem (h : Roots ms name root) (hnot : name ∉ ms.map Prod.fst) : root = none := by
  obtain ⟨path, hpath, -⟩ | ⟨-, rfl⟩ | ⟨-, rfl⟩ := h
  · exact absurd (List.mem_map_of_mem hpath) hnot
  · rfl
  · rfl

end Roots

theorem mem_names_iff {k : String} : k ∈ names ↔ ∃ f : Field, k = f.name := by
  constructor
  · intro h
    obtain ⟨f, -, rfl⟩ := List.mem_map.1 (show k ∈ Field.all.map Field.name from h)
    exact ⟨f, rfl⟩
  · rintro ⟨f, rfl⟩
    exact List.mem_map.2 ⟨f, f.mem_all, rfl⟩

theorem secretOf_eq_some_iff {v : Json.Value} {secret : MasterSecret} :
    Field.secretOf v = some secret ↔ ∃ digits, v = .text digits ∧ secret.Spelled digits := by
  cases v with
  | text s =>
    have hread : (readKey s).toOption = some secret ↔ readKey s = .ok secret := by
      cases readKey s <;> simp [Except.toOption]
    rw [Field.secretOf, hread, readKey_ok_iff]
    exact ⟨fun h => ⟨s, rfl, h⟩, fun ⟨_, hs, h⟩ => Json.Value.text.inj hs ▸ h⟩
  | null | boolean | natural | number | list | object => exact ⟨nofun, fun ⟨_, h, _⟩ => nomatch h⟩

/-- The draft of a configuration, as far as members set it. -/
def draftOf (ms : Members) (c : Configuration) : Draft where
  secret := some c.secret
  capacity := slotOf ms "buffer_capacity" c.capacity
  depthLimit := slotOf ms "max_call_depth" c.depthLimit
  nameLimit := slotOf ms "max_name_len" c.nameLimit
  storageRoot := slotOf ms "storage_root" c.storageRoot

namespace Describes

theorem filled (h : Describes ms c) : Draft.Filled {} ms (draftOf ms c) where
  known m hm := mem_names_iff.1 (h.known m hm)
  once := h.once
  fresh f _ := Draft.get_empty f
  given f v hv := by
    cases f with
    | masterKey =>
      obtain ⟨digits, hdigits, hspelled⟩ := h.secret
      rw [value_unique h.once hv hdigits]
      exact ⟨c.secret, secretOf_eq_some_iff.2 ⟨digits, rfl, hspelled⟩, rfl⟩
    | capacity => exact ⟨_, h.capacity.boundOf h.once hv, slotOf_of_mem hv _⟩
    | depthLimit => exact ⟨_, h.depthLimit.boundOf h.once hv, slotOf_of_mem hv _⟩
    | nameLimit => exact ⟨_, h.nameLimit.boundOf h.once hv, slotOf_of_mem hv _⟩
    | storageRoot => exact ⟨_, h.storageRoot.rootOf h.once hv, slotOf_of_mem hv _⟩
  others f hf := by
    cases f with
    | masterKey =>
      obtain ⟨digits, hdigits, -⟩ := h.secret
      exact absurd (List.mem_map_of_mem hdigits) hf
    | capacity | depthLimit | nameLimit | storageRoot => exact if_neg hf

theorem complete (h : Describes ms c) (missing : Refusal) :
    (draftOf ms c).complete missing = .ok c := by
  have hcapacity := slotOf_getD h.capacity.usual_of_not_mem
  have hdepth := slotOf_getD h.depthLimit.usual_of_not_mem
  have hname := slotOf_getD h.nameLimit.usual_of_not_mem
  have hroot := slotOf_getD h.storageRoot.none_of_not_mem
  change Except.ok
    (Configuration.mk ⟨_, (slotOf _ _ _).getD 8192, (slotOf _ _ _).getD 8, (slotOf _ _ _).getD 64⟩
    ((slotOf _ _ _).getD none)) = _
  rw [hcapacity, hdepth, hname, hroot]

/-- What a draft is completed to is described by the members that it was filled with. -/
theorem of_filled {d : Draft} {missing : Refusal} (h : Draft.Filled {} ms d)
    (done : d.complete missing = .ok c)
    (positiveCapacity : 0 < c.capacity) (positiveNameLimit : 0 < c.nameLimit) : Describes ms c := by
  unfold Draft.complete at done
  split at done
  · cases done
  next secret hsecret =>
  obtain rfl := Except.ok.inj done
  refine ⟨fun m hm => mem_names_iff.2 (h.known m hm), h.once, ?_, ?_, ?_, ?_, ?_,
    positiveCapacity, positiveNameLimit⟩
  · have hmem : Field.masterKey.name ∈ ms.map Prod.fst := by
      by_contra hnot
      have hnone : d.secret = none := h.others .masterKey hnot
      rw [hsecret] at hnone
      cases hnone
    obtain ⟨⟨_, v⟩, hv, hname⟩ := List.mem_map.1 hmem
    obtain rfl := hname
    obtain ⟨x, hx, hget⟩ := h.given .masterKey v hv
    obtain rfl : secret = x := Option.some.inj (hsecret.symm.trans hget)
    obtain ⟨digits, rfl, hspelled⟩ := secretOf_eq_some_iff.1 hx
    exact ⟨digits, hv, hspelled⟩
  · exact Bounds.of_slot (h.given .capacity) (h.others .capacity)
  · exact Bounds.of_slot (h.given .depthLimit) (h.others .depthLimit)
  · exact Bounds.of_slot (h.given .nameLimit) (h.others .nameLimit)
  · exact Roots.of_slot (h.given .storageRoot) (h.others .storageRoot)

theorem not_refused (h : Describes ms c) : ¬ Refused ms := by
  rintro (⟨hm, other⟩ | again | missing | ⟨hv, bad⟩ | hv | hv)
  · exact other (h.known _ hm)
  · exact again h.once
  · obtain ⟨digits, hdigits, -⟩ := h.secret
    exact missing (List.mem_map_of_mem hdigits)
  · obtain ⟨digits, hdigits, hspelled⟩ := h.secret
    exact bad digits (value_unique h.once hv hdigits) hspelled.hasDigits
  · exact absurd (h.capacity.eq_zero h.once hv) (Nat.ne_of_gt h.positiveCapacity)
  · exact absurd (h.nameLimit.eq_zero h.once hv) (Nat.ne_of_gt h.positiveNameLimit)

theorem perm {ms' : Members} (h : Describes ms c) (same : ms'.Perm ms) : Describes ms' c := by
  have hmem : ∀ {m : String × Json.Value}, m ∈ ms' ↔ m ∈ ms := same.mem_iff
  have hkeys : ∀ {k : String}, k ∈ ms'.map Prod.fst ↔ k ∈ ms.map Prod.fst :=
    (same.map Prod.fst).mem_iff
  obtain ⟨known, once, secret, capacity, depthLimit, nameLimit, storageRoot, hcapacity, hname⟩ := h
  refine ⟨fun m hm => known m (hmem.1 hm), (same.map Prod.fst).nodup_iff.2 once, ?_, ?_, ?_,
    ?_, ?_, hcapacity, hname⟩
  · simpa only [hmem] using secret
  · simpa only [Bounds, hmem, hkeys] using capacity
  · simpa only [Bounds, hmem, hkeys] using depthLimit
  · simpa only [Bounds, hmem, hkeys] using nameLimit
  · simpa only [Roots, hmem, hkeys] using storageRoot

end Describes

theorem check_eq_ok_iff : c.check = .ok () ↔ 0 < c.capacity ∧ 0 < c.nameLimit := by
  unfold check
  split
  · next h => simp [h]
  · split
    · next h => simp [h]
    · next h h' => simp [Nat.pos_of_ne_zero h, Nat.pos_of_ne_zero h']

theorem ofJson_eq_ok_iff {text : String} :
    ofJson text = .ok c ↔ readDocument (tokens text.toList) = .ok c ∧
      0 < c.capacity ∧ 0 < c.nameLimit := by
  rw [← check_eq_ok_iff]
  unfold ofJson
  cases readDocument (tokens text.toList) with
  | error e => exact ⟨nofun, nofun⟩
  | ok c' =>
    constructor
    · intro h
      cases hcheck : c'.check with
      | error e =>
        simp only [Except.mapError, bind, Except.bind, hcheck] at h
        cases h
      | ok u =>
        simp only [Except.mapError, bind, Except.bind, hcheck] at h
        obtain rfl := Except.ok.inj h
        exact ⟨rfl, hcheck⟩
    · rintro ⟨h, hcheck⟩
      obtain rfl := Except.ok.inj h
      simp only [Except.mapError, bind, Except.bind, hcheck]
      rfl

theorem ofJson_total (text : String) :
    (∃ c, ofJson text = .ok c) ∨ ∃ reason, ofJson text = .error (.configuration reason) := by
  unfold ofJson
  cases readDocument (tokens text.toList) with
  | error e => exact .inr ⟨_, rfl⟩
  | ok c =>
    cases hcheck : c.check with
    | error e => exact .inr ⟨e, by simp only [Except.mapError, bind, Except.bind, hcheck]⟩
    | ok u => exact .inl ⟨c, by simp only [Except.mapError, bind, Except.bind, hcheck]; rfl⟩

/-- An object is read as the configuration that its members describe. -/
theorem ofJson_object_iff {text : String} (h : IsObject text ms) :
    ofJson text = .ok c ↔ Describes ms c := by
  rw [ofJson_eq_ok_iff]
  have hread := readDocument_object h
  constructor
  · rintro ⟨hok, hcapacity, hname⟩
    cases hfill : Draft.fill {} ms with
    | none =>
      rw [hfill] at hread
      obtain ⟨e, he⟩ := hread
      rw [hok] at he
      cases he
    | some d =>
      rw [hfill] at hread
      obtain ⟨t, ht⟩ := hread
      exact .of_filled (Draft.fill_eq_some_iff.1 hfill) (ht.symm.trans hok) hcapacity hname
  · intro hc
    rw [Draft.fill_eq_some_iff.2 hc.filled] at hread
    obtain ⟨t, ht⟩ := hread
    exact ⟨ht.trans (hc.complete _), hc.positiveCapacity, hc.positiveNameLimit⟩

/-- A configuration document that is an object is read as what its members describe,
in whatever order they come and however they are spelled; an object that describes
nothing is refused as a configuration, and bounds are never accepted as zero. -/
theorem documents_are_read_faithfully (text : String) :
    (∀ ms, IsObject text ms →
      (∀ c, ofJson text = .ok c ↔ Describes ms c) ∧
      (Refused ms → ∃ reason, ofJson text = .error (.configuration reason)) ∧
      ∀ text' ms', IsObject text' ms' → ms'.Perm ms → ∀ c,
        ofJson text' = .ok c ↔ ofJson text = .ok c) ∧
    ∀ c, ofJson text = .ok c → 0 < c.capacity ∧ 0 < c.nameLimit := by
  refine ⟨fun ms h =>
    ⟨fun c => ofJson_object_iff h, fun refused => ?_, fun text' ms' h' same c => ?_⟩,
    fun c hok => ?_⟩
  · rcases ofJson_total text with ⟨c, hok⟩ | refusal
    · exact absurd refused ((ofJson_object_iff h).1 hok).not_refused
    · exact refusal
  · rw [ofJson_object_iff h, ofJson_object_iff h']
    exact ⟨fun hc => hc.perm same.symm, fun hc => hc.perm same⟩
  · exact (ofJson_eq_ok_iff.1 hok).2

/-- A document with a member before the secret, blanks, and digits of both cases. -/
theorem spaced_document_is_read :
    let document := "\x7b \"max_call_depth\" : 3,\"master_key\":" ++
      "\" aAaAaAaAaAaAaAaAaAaAaAaAaAaAaAaAaAaAaAaAaAaAaAaAaAaAaAaAaAaAaAaA\"\n\x7d\t"
    let members : Members := [("max_call_depth", .natural 3),
      ("master_key", .text " aAaAaAaAaAaAaAaAaAaAaAaAaAaAaAaAaAaAaAaAaAaAaAaAaAaAaAaAaAaAaAaA")]
    let c : Configuration := { secret := ⟨bytes (List.replicate 32 0xAA), rfl⟩, depthLimit := 3 }
    IsObject document members ∧ Describes members c ∧ ofJson document = .ok c := by
  intro document members c
  have none : Blank [] := by decide
  have space : Blank [' '] := by decide
  have isObject : IsObject document members := by
    refine ⟨[], _, ['\t'], none,
      .object (.more space (.self (s := "max_call_depth".toList) (by decide)) space space
      (.natural (s := ['3']) (by decide)) none
      (.one none (.self (s := "master_key".toList) (by decide)) none none (.text
        (.self (s := " aAaAaAaAaAaAaAaAaAaAaAaAaAaAaAaAaAaAaAaAaAaAaAaAaAaAaAaAaAaAaAaA".toList)
          (by decide)))
          (by decide : Blank ['\n']))), by decide, by decide⟩
  have spells : ∀ n, SpellsBytes (List.replicate n ['a', 'A']).flatten (List.replicate n 0xAA) := by
    intro n
    induction n with
    | zero => exact .nil
    | succ n ih => exact .cons (i := 10) (j := 10) ⟨by decide, .inl rfl⟩ ⟨by decide, .inr rfl⟩ ih
  have spelled :
      c.secret.Spelled " aAaAaAaAaAaAaAaAaAaAaAaAaAaAaAaAaAaAaAaAaAaAaAaAaAaAaAaAaAaAaAaA" := by
    have hcodes : codes c.secret.key = List.replicate 32 0xAA := codes_bytes _
    exact ⟨[' '], (List.replicate 32 ['a', 'A']).flatten, [],
      by decide, hcodes ▸ spells 32, fun _ => nofun, by decide⟩
  have described : Describes members c :=
    { known := by decide
      once := by decide
      secret := ⟨_, List.mem_cons_of_mem _ List.mem_cons_self, spelled⟩
      capacity := .inr ⟨by decide, rfl⟩
      depthLimit := .inl ⟨List.mem_cons_self, by decide⟩
      nameLimit := .inr ⟨by decide, rfl⟩
      storageRoot := .inr (.inr ⟨by decide, rfl⟩)
      positiveCapacity := by decide
      positiveNameLimit := by decide }
  exact ⟨isObject, described,
    (((documents_are_read_faithfully document).1 members isObject).1 c).2 described⟩

end Descriptions

end SealedLua.Configuration
