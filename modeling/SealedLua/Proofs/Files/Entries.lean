import SealedLua.Proofs.Files.Paths
import Mathlib.Logic.Function.Basic

/-!
# Entries of a directory

What is done to an entry of a directory deep in a tree comes to what is done to
the list of the directory's entries.
-/

namespace SealedLua.FileTree

open Function FilePath

variable {t : FileTree} {parts : List String} {entries : List (String × FileTree)} {name : String}

theorem child?_withEntry (entries : List (String × FileTree)) (name : String)
    (entry : Option FileTree) :
    child? (withEntry entries name entry) = update (child? entries) name entry := by
  have hothers : ∀ other ≠ name, child? (entries.filter (·.1 != name)) other =
      child? entries other := by
    intro other hne
    simp only [child?, List.find?_filter]
    congr 2
    funext e
    by_cases he : e.1 = other
    · simp [he, hne]
    · simp [he]
  have hgone : child? (entries.filter (·.1 != name)) name = none := by
    simp [child?, List.find?_eq_none]
  funext other
  by_cases h : other = name
  · subst h
    rw [update_self]
    cases entry with
    | none => exact hgone
    | some u => simp [withEntry, child?]
  · rw [update_of_ne h, ← hothers other h]
    cases entry with
    | none => rfl
    | some u => simp [withEntry, child?, Ne.symm h]

theorem exists_of_bind {ε α β : Type} {x : Except ε α} {f : α → Except ε β}
    {b : β} (h : x >>= f = .ok b) :
    ∃ a, x = .ok a ∧ f a = .ok b := by
  cases x with
  | error e => cases h
  | ok a => exact ⟨a, rfl, h⟩

theorem find_cons_of_child {child : FileTree} (hlimit : name.utf8ByteSize ≤ nameLimit)
    (hchild : child? entries name = some child) (rest : List String) :
    (directory entries).find (name :: rest) = child.find rest := by
  simp [find, hchild, Nat.not_lt.2 hlimit]

theorem find_cons_eq_some {u : FileTree} {rest : List String}
    (h : t.find (name :: rest) = .ok (some u)) :
    ∃ entries child, t = directory entries ∧ name.utf8ByteSize ≤ nameLimit ∧
      child? entries name = some child ∧
      child.find rest = .ok (some u) := by
  cases t with
  | file data => cases h
  | directory entries =>
    by_cases hlimit : nameLimit < name.utf8ByteSize
    · unfold find at h
      simp only [if_pos hlimit] at h
      cases h
    · cases hchild : child? entries name with
      | none => cases rest <;> simp [find, hlimit, hchild] at h
      | some child =>
        rw [find_cons_of_child (Nat.not_lt.1 hlimit) hchild] at h
        exact ⟨entries, child, rfl, Nat.not_lt.1 hlimit, hchild, h⟩

variable {f : Option FileTree → Except FileFailure (Option FileTree)}

theorem alter_singleton (hlimit : name.utf8ByteSize ≤ nameLimit) :
    (directory entries).alter f [name] =
      (f (child? entries name)).map fun entry => directory (withEntry entries name entry) := by
  rw [alter, if_neg (Nat.not_lt.2 hlimit)]
  cases f (child? entries name) <;> rfl

theorem alter_cons_of_child {child : FileTree} {rest : List String}
    (hlimit : name.utf8ByteSize ≤ nameLimit)
    (hchild : child? entries name = some child) (hrest : rest ≠ []) :
    (directory entries).alter f (name :: rest) =
      (child.alter f rest).map fun child' => directory (withEntry entries name (some child')) := by
  obtain ⟨next, more, rfl⟩ := List.exists_cons_of_ne_nil hrest
  rw [alter, if_neg (Nat.not_lt.2 hlimit)]
  simp only [hchild]
  cases child.alter f (next :: more) <;> rfl

theorem exists_entry_of_alter_cons {t' : FileTree} {rest : List String}
    (h : t.alter f (name :: rest) = .ok t') :
    ∃ entries entry, t = directory entries ∧ name.utf8ByteSize ≤ nameLimit ∧
      t' = directory (withEntry entries name entry) ∧
      (rest = [] ∧ f (child? entries name) = .ok entry ∨ rest ≠ [] ∧ ∃ child child',
        child? entries name = some child ∧
        child.alter f rest = .ok child' ∧ entry = some child') := by
  cases t with
  | file old => cases h
  | directory entries =>
    by_cases hlimit : nameLimit < name.utf8ByteSize
    · unfold alter at h
      simp only [if_pos hlimit] at h
      cases h
    · have hfits := Nat.not_lt.1 hlimit
      cases rest with
      | nil =>
        rw [alter, if_neg hlimit] at h
        obtain ⟨entry, hf, hentry⟩ := exists_of_bind h
        cases hentry
        exact ⟨entries, entry, rfl, hfits, rfl, .inl ⟨rfl, hf⟩⟩
      | cons next more =>
        rw [alter, if_neg hlimit] at h
        split at h
        · cases h
        · next child hchild =>
          obtain ⟨child', hbelow, hentry⟩ := exists_of_bind h
          cases hentry
          exact ⟨entries, some child', rfl, hfits, rfl,
            .inr ⟨List.cons_ne_nil _ _, child, child', hchild, hbelow, rfl⟩⟩

/-- The directory with the entries is in the tree, below the parts. -/
def HasDirectory (t : FileTree) (parts : List String) (entries : List (String × FileTree)) : Prop :=
  t.find parts = .ok (some (directory entries))

namespace HasDirectory

theorem nil : t.HasDirectory [] entries ↔ t = directory entries := by
  simp [HasDirectory, find]

theorem find_entry (h : t.HasDirectory parts entries) (hlimit : name.utf8ByteSize ≤ nameLimit) :
    t.find (parts ++ [name]) = .ok (child? entries name) := by
  induction parts generalizing t with
  | nil =>
    rw [nil.1 h]
    cases hchild : child? entries name with
    | none => simp [find, hchild, Nat.not_lt.2 hlimit]
    | some child => exact find_cons_of_child hlimit hchild []
  | cons part rest ih =>
    obtain ⟨es, child, rfl, hpart, hchild, hrest⟩ := find_cons_eq_some h
    rw [List.cons_append, find_cons_of_child hpart hchild]
    exact ih hrest

theorem alter_entry_of_error {e : FileFailure} (h : t.HasDirectory parts entries)
    (hlimit : name.utf8ByteSize ≤ nameLimit)
    (hf : f (child? entries name) = .error e) : t.alter f (parts ++ [name]) = .error e := by
  induction parts generalizing t with
  | nil =>
    rw [nil.1 h, List.nil_append, alter_singleton hlimit, hf]
    rfl
  | cons part rest ih =>
    obtain ⟨es, child, rfl, hpart, hchild, hrest⟩ := find_cons_eq_some h
    rw [List.cons_append, alter_cons_of_child hpart hchild (by simp), ih hrest]
    rfl

theorem alter_entry_of_ok {entry : Option FileTree} (h : t.HasDirectory parts entries)
    (hlimit : name.utf8ByteSize ≤ nameLimit) (hf : f (child? entries name) = .ok entry) :
    ∃ t', t.alter f (parts ++ [name]) = .ok t' ∧
      t'.HasDirectory parts (withEntry entries name entry) := by
  induction parts generalizing t with
  | nil =>
    refine ⟨directory (withEntry entries name entry), ?_, nil.2 rfl⟩
    rw [nil.1 h, List.nil_append, alter_singleton hlimit, hf]
    rfl
  | cons part rest ih =>
    obtain ⟨es, child, rfl, hpart, hchild, hrest⟩ := find_cons_eq_some h
    obtain ⟨child', hbelow, hdirectory⟩ := ih hrest
    refine ⟨directory (withEntry es part (some child')), ?_, ?_⟩
    · rw [List.cons_append, alter_cons_of_child hpart hchild (by simp), hbelow]
      rfl
    · have hfound : child? (withEntry es part (some child')) part = some child' := by
        rw [child?_withEntry, update_self]
      rw [HasDirectory, find_cons_of_child hpart hfound]
      exact hdirectory

/-- A change that succeeds is that of an entry of a directory that is there. -/
theorem exists_entry_of_alter {t' : FileTree} (h : t.alter f (parts ++ [name]) = .ok t') :
    ∃ entries entry, t.HasDirectory parts entries ∧ name.utf8ByteSize ≤ nameLimit ∧
      f (child? entries name) = .ok entry ∧
        t'.HasDirectory parts (withEntry entries name entry) := by
  induction parts generalizing t t' with
  | nil =>
    obtain ⟨entries, entry, rfl, hlimit, rfl, ⟨-, hf⟩ | ⟨hne, -⟩⟩ := exists_entry_of_alter_cons h
    · exact ⟨entries, entry, nil.2 rfl, hlimit, hf, nil.2 rfl⟩
    · exact absurd rfl hne
  | cons part rest ih =>
    obtain ⟨es, entry, rfl, hlimit, rfl, ⟨hempty, -⟩ | ⟨-, child, child', hchild, hbelow, rfl⟩⟩ :=
      exists_entry_of_alter_cons h
    · simp at hempty
    · obtain ⟨entries, entry, hdirectory, hname, hf, hdirectory'⟩ := ih hbelow
      have hfound : child? (withEntry es part (some child')) part = some child' := by
        rw [child?_withEntry, update_self]
      refine ⟨entries, entry, ?_, hname, hf, ?_⟩
      · rw [HasDirectory, find_cons_of_child hlimit hchild]
        exact hdirectory
      · rw [HasDirectory, find_cons_of_child hlimit hfound]
        exact hdirectory'

/-- There is no entry of a name that is too long, and none can be made. -/
theorem alter_entry_of_long (h : t.HasDirectory parts entries)
    (hlong : nameLimit < name.utf8ByteSize) :
    t.alter f (parts ++ [name]) = .error .nameTooLong := by
  induction parts generalizing t with
  | nil =>
    rw [nil.1 h, List.nil_append, alter, if_pos hlong]
  | cons part rest ih =>
    obtain ⟨es, child, rfl, hpart, hchild, hrest⟩ := find_cons_eq_some h
    rw [List.cons_append, alter_cons_of_child hpart hchild (by simp), ih hrest]
    rfl

section Paths

variable {root : String} (hroot : Leads root parts)

include hroot

theorem exists_root (h : t.HasDirectory parts entries) (hne : root ≠ "") :
    t.exists root = .ok true := by
  obtain ⟨rfl, -⟩ | ⟨d, hpath⟩ := hroot
  · exact absurd rfl hne
  · unfold HasDirectory at h
    simp [«exists», hpath, bind, Except.bind, h]

theorem change_of_long {f : FilePath → Option FileTree → Except FileFailure (Option FileTree)}
    (h : t.HasDirectory parts entries) (hname : Bare name) (hlong : nameLimit < name.utf8ByteSize) :
    t.change (join root name) f = (.error .nameTooLong, t) := by
  unfold change
  rw [ofString_join hroot hname]
  simp [h.alter_entry_of_long hlong, bind, Except.bind]

theorem exists_entry_of_change
    {f : FilePath → Option FileTree → Except FileFailure (Option FileTree)} {t' : FileTree}
    (hname : Bare name) (h : t.change (join root name) f = (.ok (), t')) :
    ∃ entries entry, t.HasDirectory parts entries ∧ name.utf8ByteSize ≤ nameLimit ∧
      f ⟨parts ++ [name], false⟩ (child? entries name) = .ok entry ∧
        t'.HasDirectory parts (withEntry entries name entry) := by
  unfold change at h
  rw [ofString_join hroot hname] at h
  cases haltered : t.alter (f ⟨parts ++ [name], false⟩) (parts ++ [name]) with
  | error e => simp [haltered, bind, Except.bind] at h
  | ok u =>
    simp only [haltered, bind, Except.bind, Prod.mk.injEq, true_and] at h
    rw [← h]
    exact exists_entry_of_alter haltered

variable (hname : Plain name) (h : t.HasDirectory parts entries)

include hname h

theorem read_of_none (hchild : child? entries name = none) :
    t.read (join root name) = .error .notFound := by
  unfold FileTree.read
  simp [ofString_join hroot hname.bare, h.find_entry hname.limit, hchild, bind, Except.bind]

theorem read_of_file {data : ByteArray} (hchild : child? entries name = some (.file data)) :
    t.read (join root name) = .ok data := by
  unfold FileTree.read
  simp [ofString_join hroot hname.bare, h.find_entry hname.limit, hchild, bind, Except.bind]

variable {f : FilePath → Option FileTree → Except FileFailure (Option FileTree)}

theorem change_of_error {e : FileFailure}
    (hf : f ⟨parts ++ [name], false⟩ (child? entries name) = .error e) :
    t.change (join root name) f = (.error e, t) := by
  unfold change
  rw [ofString_join hroot hname.bare]
  simp [h.alter_entry_of_error hname.limit hf, bind, Except.bind]

theorem change_of_ok {entry : Option FileTree}
    (hf : f ⟨parts ++ [name], false⟩ (child? entries name) = .ok entry) :
    ∃ t', t.change (join root name) f = (.ok (), t') ∧
      t'.HasDirectory parts (withEntry entries name entry) := by
  obtain ⟨t', halter, hdirectory⟩ := h.alter_entry_of_ok hname.limit hf
  refine ⟨t', ?_, hdirectory⟩
  unfold change
  rw [ofString_join hroot hname.bare]
  simp [halter, bind, Except.bind]

end Paths

section Renaming

variable {root source target : String} (hroot : Leads root parts) (hsource : Plain source)
  (htarget : Plain target) (h : t.HasDirectory parts entries)

theorem checkParent_entry (h : t.HasDirectory parts entries) (name : String) (d : Bool) :
    t.checkParent ⟨parts ++ [name], d⟩ = .ok () := by
  unfold HasDirectory at h
  simp [checkParent, h, bind, Except.bind]

include hroot hsource htarget h

theorem rename_of_none (hchild : child? entries source = none) :
    t.rename (join root source) (join root target) = (.error .notFound, t) := by
  have hrenamed : t.renamed (join root source) (join root target) = .error .notFound := by
    unfold renamed
    rw [ofString_join hroot hsource.bare, ofString_join hroot htarget.bare]
    simp [h.checkParent_entry, h.find_entry hsource.limit, hchild, bind, Except.bind]
  rw [rename, hrenamed]

theorem rename_of_directory {data : ByteArray} {below : List (String × FileTree)}
    (hchild : child? entries source = some (.file data))
    (hreplaced : child? entries target = some (.directory below)) :
    t.rename (join root source) (join root target) = (.error .isADirectory, t) := by
  have hne : source ≠ target := by
    rintro rfl
    rw [hchild] at hreplaced
    cases hreplaced
  have hrenamed : t.renamed (join root source) (join root target) = .error .isADirectory := by
    unfold renamed
    rw [ofString_join hroot hsource.bare, ofString_join hroot htarget.bare]
    simp [h.checkParent_entry, h.find_entry hsource.limit, h.find_entry htarget.limit, hchild,
      hreplaced, isDirectory, hne, Ne.symm hne, mayReplace, bind, Except.bind]
  rw [rename, hrenamed]

/-- A file takes the name of no other file, of another file or of itself. -/
theorem rename_of_file {data : ByteArray} (hchild : child? entries source = some (.file data))
    (hreplaced : ∀ u ∈ child? entries target, u.isDirectory = false) :
    ∃ t' entries', t.rename (join root source) (join root target) = (.ok (), t') ∧
      t'.HasDirectory parts entries' ∧
      child? entries' = update (update (child? entries) source none) target
        (some (.file data)) := by
  by_cases heq : source = target
  · subst heq
    have hrenamed : t.renamed (join root source) (join root source) = .ok t := by
      unfold renamed
      rw [ofString_join hroot hsource.bare]
      simp [h.checkParent_entry, h.find_entry hsource.limit, hchild, isDirectory, bind, Except.bind]
    refine ⟨t, entries, by rw [rename, hrenamed], h, ?_⟩
    rw [update_idem, ← hchild, update_eq_self]
  · obtain ⟨t₁, htaken, hdirectory₁⟩ :=
      h.alter_entry_of_ok (f := fun _ => .ok none) hsource.limit rfl
    obtain ⟨t₂, hgiven, hdirectory₂⟩ :=
      hdirectory₁.alter_entry_of_ok (f := fun _ => .ok (some (.file data))) htarget.limit rfl
    have hmay : mayReplace (.file data) (child? entries target) = .ok () := by
      cases hchild' : child? entries target with
      | none => rfl
      | some u =>
        have hfile := hreplaced u hchild'
        cases u with
        | file _ => rfl
        | directory _ => cases hfile
    have hrenamed : t.renamed (join root source) (join root target) = .ok t₂ := by
      unfold renamed
      rw [ofString_join hroot hsource.bare, ofString_join hroot htarget.bare]
      simp [h.checkParent_entry, h.find_entry hsource.limit, h.find_entry htarget.limit,
        hchild, isDirectory, hmay, heq, Ne.symm heq, htaken, hgiven, bind, Except.bind]
    refine ⟨t₂, _, by rw [rename, hrenamed], hdirectory₂, ?_⟩
    rw [child?_withEntry, child?_withEntry]

end Renaming

end HasDirectory

end SealedLua.FileTree
