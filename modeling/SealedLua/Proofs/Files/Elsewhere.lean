import SealedLua.Proofs.Files.Entries

/-!
# Files that are elsewhere

A change at a path leaves every file that is not below the path, and a
directory that is made takes the place of no file.
-/

namespace SealedLua.FileTree

open Function FilePath

variable {t t' u : FileTree} {path parts : List String} {data : ByteArray}

theorem find_file_cons {name : String} {rest : List String} {entries : List (String × FileTree)}
    {child : FileTree}
    (hlimit : name.utf8ByteSize ≤ nameLimit) (hchild : child? entries name = some child)
    (hfile : child.find rest = .ok (some (.file data))) :
    (directory entries).find (name :: rest) = .ok (some (.file data)) := by
  rw [find_cons_of_child hlimit hchild, hfile]

/-- An entry that is given to another name leaves what is below this one. -/
theorem find_withEntry_of_ne {name other : String} {rest : List String}
    {entries : List (String × FileTree)} {entry : Option FileTree} (hne : name ≠ other)
    (hfile : (directory entries).find (name :: rest) = .ok (some (.file data))) :
    (directory (withEntry entries other entry)).find (name :: rest) = .ok (some (.file data)) := by
  obtain ⟨es, child, heq, hlimit, hchild, hrest⟩ := find_cons_eq_some hfile
  cases heq
  refine find_file_cons hlimit ?_ hrest
  rw [child?_withEntry, update_of_ne hne, hchild]

theorem find_of_alter {f : Option FileTree → Except FileFailure (Option FileTree)}
    (h : t.alter f path = .ok t')
    {q : List String} (helse : ¬path <+: q) (hfile : t.find q = .ok (some (.file data))) :
    t'.find q = .ok (some (.file data)) := by
  induction path generalizing t t' q with
  | nil => exact absurd List.nil_prefix helse
  | cons name rest ih =>
    obtain ⟨entries, entry, rfl, hlimit, rfl, hbelow⟩ := exists_entry_of_alter_cons h
    cases q with
    | nil => cases hfile
    | cons n q =>
      by_cases hname : n = name
      · subst hname
        rcases hbelow with ⟨rfl, -⟩ | ⟨-, child, child', hchild, hbelow, rfl⟩
        · exact absurd ((List.prefix_append [n] q)) helse
        · rw [find_cons_of_child hlimit hchild] at hfile
          have helse' : ¬rest <+: q := fun hprefix => helse (List.cons_prefix_cons.2 ⟨rfl, hprefix⟩)
          refine find_file_cons hlimit ?_ (ih hbelow helse' hfile)
          rw [child?_withEntry, update_self]
      · exact find_withEntry_of_ne hname hfile

theorem find_of_withDirectories (h : t.withDirectories path = .ok t') {q : List String}
    (hfile : t.find q = .ok (some (.file data))) : t'.find q = .ok (some (.file data)) := by
  induction path generalizing t t' q with
  | nil =>
    cases t with
    | file old => cases h
    | directory entries =>
      cases h
      exact hfile
  | cons name rest ih =>
    cases t with
    | file old => cases h
    | directory entries =>
      by_cases hlimit : nameLimit < name.utf8ByteSize
      · unfold withDirectories at h
        simp only [if_pos hlimit] at h
        cases h
      · unfold withDirectories at h
        simp only [if_neg hlimit] at h
        cases hbelow : ((child? entries name).getD (directory [])).withDirectories rest with
        | error e =>
          rw [hbelow] at h
          cases h
        | ok child' =>
          rw [hbelow] at h
          cases h
          cases q with
          | nil => cases hfile
          | cons n q =>
            by_cases hname : n = name
            · subst hname
              obtain ⟨es, child, heq, -, hchild, hrest⟩ := find_cons_eq_some hfile
              cases heq
              rw [hchild, Option.getD_some] at hbelow
              refine find_file_cons (Nat.not_lt.1 hlimit) ?_ (ih hbelow hrest)
              rw [child?_withEntry, update_self]
            · exact find_withEntry_of_ne hname hfile

/-- Every file that is not below the parts is in the second tree as it is in the first. -/
def KeepsElsewhere (parts : List String) (t t' : FileTree) : Prop :=
  ∀ q data, ¬parts <+: q → t.find q = .ok (some (.file data)) → t'.find q = .ok (some (.file data))

namespace KeepsElsewhere

theorem refl (parts : List String) (t : FileTree) : KeepsElsewhere parts t t :=
  fun _ _ _ hfile => hfile

theorem trans (h : KeepsElsewhere parts t t') (h' : KeepsElsewhere parts t' u) :
    KeepsElsewhere parts t u :=
  fun q data helse hfile => h' q data helse (h q data helse hfile)

theorem of_alter {f : Option FileTree → Except FileFailure (Option FileTree)}
    (hbelow : parts <+: path) (h : t.alter f path = .ok t') : KeepsElsewhere parts t t' :=
  fun _ _ helse hfile => find_of_alter h (fun hprefix => helse (hbelow.trans hprefix)) hfile

theorem read (h : KeepsElsewhere parts t t') {place : String} {p : FilePath}
    (hpath : ofString place = .ok p)
    (helse : ¬parts <+: p.parts) (hread : t.read place = .ok data) : t'.read place = .ok data := by
  unfold FileTree.read at hread ⊢
  obtain ⟨_, hpath', hread⟩ := exists_of_bind hread
  cases hpath.symm.trans hpath'
  obtain ⟨found, hfound, hread⟩ := exists_of_bind hread
  rcases found with _ | (old | _)
  · cases hread
  · rw [hpath]
    split_ifs at hread with hplain
    cases hread
    simp [h _ _ helse hfound, bind, Except.bind, hplain]
  · cases hread

theorem of_change {f : FilePath → Option FileTree → Except FileFailure (Option FileTree)}
    {place : String} {p : FilePath}
    {x : Except FileFailure Unit} (hpath : ofString place = .ok p) (hbelow : parts <+: p.parts)
    (h : t.change place f = (x, t')) : KeepsElsewhere parts t t' := by
  unfold change at h
  dsimp only at h
  split at h
  · next u haltered =>
    cases h
    obtain ⟨_, hpath', haltered⟩ := exists_of_bind haltered
    cases hpath.symm.trans hpath'
    exact of_alter hbelow haltered
  · cases h
    exact refl parts t

theorem of_makeDirectories {place : String} {x : Except FileFailure Unit}
    (h : t.makeDirectories place = (x, t')) :
    KeepsElsewhere parts t t' := by
  unfold makeDirectories at h
  split at h
  · cases h
    exact refl parts t
  · split at h
    · next u hmade =>
      cases h
      obtain ⟨p, -, hmade⟩ := exists_of_bind hmade
      exact fun q data _ hfile => find_of_withDirectories hmade hfile
    · cases h
      exact refl parts t

theorem of_renamed {source target : String} {p q : FilePath} (hsource : ofString source = .ok p)
    (htarget : ofString target = .ok q) (hp : parts <+: p.parts) (hq : parts <+: q.parts)
    (h : t.renamed source target = .ok u) : KeepsElsewhere parts t u := by
  unfold renamed at h
  obtain ⟨_, hsource', h⟩ := exists_of_bind h
  cases hsource.symm.trans hsource'
  obtain ⟨_, htarget', h⟩ := exists_of_bind h
  cases htarget.symm.trans htarget'
  obtain ⟨_, -, h⟩ := exists_of_bind h
  obtain ⟨_, -, h⟩ := exists_of_bind h
  obtain ⟨found, -, h⟩ := exists_of_bind h
  cases found with
  | none => cases h
  | some moved =>
    obtain ⟨replaced, -, h⟩ := exists_of_bind h
    split_ifs at h
    · cases h
      exact refl parts t
    · obtain ⟨_, -, h⟩ := exists_of_bind h
      obtain ⟨v, htaken, hgiven⟩ := exists_of_bind h
      exact (of_alter hp htaken).trans (of_alter hq hgiven)

theorem of_rename {source target : String} {p q : FilePath} {x : Except FileFailure Unit}
    (hsource : ofString source = .ok p) (htarget : ofString target = .ok q) (hp : parts <+: p.parts)
    (hq : parts <+: q.parts)
    (h : t.rename source target = (x, t')) : KeepsElsewhere parts t t' := by
  unfold rename at h
  cases hrenamed : t.renamed source target with
  | error e =>
    rw [hrenamed] at h
    cases h
    exact refl parts t
  | ok u =>
    rw [hrenamed] at h
    cases h
    exact of_renamed hsource htarget hp hq hrenamed

end KeepsElsewhere

end SealedLua.FileTree
