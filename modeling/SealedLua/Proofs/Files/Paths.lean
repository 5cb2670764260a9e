import SealedLua.Files.Tree
import Mathlib.Data.String.Basic

/-!
# Paths of entries

The path of an entry of a directory has the parts of the directory and then the
entry.  Paths are taken apart at their slashes by their characters.
-/

namespace SealedLua.FilePath

open String

/-- Splitting goes through a text from left to right; `l` is behind it, and `m` is
the piece it is in. -/
theorem splitOnAux_slash (l m r : List Char) (pieces : List String) :
    splitOnAux (ofList (l ++ m ++ r)) "/" ⟨utf8Len l⟩ ⟨utf8Len l + utf8Len m⟩ 0 pieces =
      pieces.reverse ++ (List.splitOnPPrepend (· == '/') r m.reverse).map ofList := by
  induction r generalizing l m pieces with
  | nil =>
    have hend : Pos.Raw.atEnd (ofList (l ++ m ++ [])) ⟨utf8Len l + utf8Len m⟩ = true := by
      simpa using atEnd_of_valid (l ++ m) []
    unfold splitOnAux
    rw [if_pos hend, extract_of_valid]
    simp
  | cons c r ih =>
    have hend : ¬Pos.Raw.atEnd (ofList (l ++ m ++ c :: r)) ⟨utf8Len l + utf8Len m⟩ = true := by
      rw [← utf8Len_append, atEnd_of_valid (l ++ m) (c :: r)]
      exact List.cons_ne_nil c r
    have hget : Pos.Raw.get (ofList (l ++ m ++ c :: r)) ⟨utf8Len l + utf8Len m⟩ = c := by
      rw [← utf8Len_append]
      exact get_of_valid (l ++ m) (c :: r)
    have hnext : Pos.Raw.next (ofList (l ++ m ++ c :: r)) ⟨utf8Len l + utf8Len m⟩ =
        ⟨utf8Len l + utf8Len m + c.utf8Size⟩ := by
      rw [← utf8Len_append]
      exact next_of_valid (l ++ m) c r
    have hslash : Pos.Raw.get "/" 0 = '/' := by decide
    unfold splitOnAux
    rw [if_neg hend, hget, hslash]
    by_cases hc : c = '/'
    · subst hc
      have hlast : Pos.Raw.atEnd "/" (Pos.Raw.next "/" 0) = true := by decide
      have hone : (Pos.Raw.next "/" 0).byteIdx = 1 := by decide
      have hsize : '/'.utf8Size = 1 := by decide
      have hpiece :
      (Pos.Raw.mk (utf8Len l + utf8Len m + '/'.utf8Size)).unoffsetBy (Pos.Raw.next "/" 0) =
          ⟨utf8Len l + utf8Len m⟩ := by
        apply Pos.Raw.ext
        rw [Pos.Raw.byteIdx_unoffsetBy, hone, hsize]
        exact Nat.add_sub_cancel _ _
      have hrest := ih (l ++ m ++ ['/']) [] (ofList m :: pieces)
      have htext : l ++ m ++ ['/'] ++ [] ++ r = l ++ m ++ '/' :: r := by simp
      have hplace : utf8Len (l ++ m ++ ['/']) = utf8Len l + utf8Len m + '/'.utf8Size := by
        simp [Nat.add_assoc]
      rw [htext, hplace, utf8Len_nil, Nat.add_zero] at hrest
      rw [if_pos (beq_self_eq_true _), hnext]
      have hsplit : List.splitOnPPrepend (· == '/') ('/' :: r) m.reverse =
          m :: List.splitOnPPrepend (· == '/') r [] := by
        simp [List.splitOnPPrepend_cons_eq_if]
      simp only [hlast, if_true]
      rw [hpiece, extract_of_valid, hrest, hsplit]
      simp
    · have hne : (c == '/') = false := by simpa using hc
      have hrest := ih l (m ++ [c]) pieces
      have htext : l ++ (m ++ [c]) ++ r = l ++ m ++ c :: r := by simp
      have hplace : utf8Len l + utf8Len (m ++ [c]) = utf8Len l + utf8Len m + c.utf8Size := by
        simp [Nat.add_assoc]
      have hback : (Pos.Raw.mk (utf8Len l + utf8Len m)).unoffsetBy 0 = ⟨utf8Len l + utf8Len m⟩ :=
        rfl
      rw [htext, hplace] at hrest
      have hsplit : List.splitOnPPrepend (· == '/') (c :: r) m.reverse =
          List.splitOnPPrepend (· == '/') r (m ++ [c]).reverse := by
        simp [List.splitOnPPrepend_cons_eq_if, hc]
      rw [if_neg (by rw [hne]; exact Bool.false_ne_true), hback, hnext, hrest, hsplit]

theorem splitOn_slash (s : String) : s.splitOn "/" = (s.toList.splitOn '/').map ofList := by
  have hpieces := splitOnAux_slash [] [] s.toList []
  simp only [List.nil_append, ofList_toList] at hpieces
  exact hpieces

theorem splitOn_append (s name : String) (h : '/' ∉ name.toList) :
    (s ++ "/" ++ name).splitOn "/" = s.splitOn "/" ++ [name] := by
  have htext : (s ++ "/" ++ name).toList = s.toList ++ '/' :: name.toList := by simp
  rw [splitOn_slash, splitOn_slash, htext, List.splitOn_append_cons_self,
    List.splitOn_eq_singleton h]
  simp

theorem splitOn_of_notMem {name : String} (h : '/' ∉ name.toList) : name.splitOn "/" = [name] := by
  rw [splitOn_slash, List.splitOn_eq_singleton h]
  simp

/-- A piece of a path that can only be a name, be it too long or not. -/
structure Bare (name : String) : Prop where
  nonempty : name ≠ ""
  chars : ∀ c ∈ name.toList, c ≠ '/' ∧ c ≠ '.' ∧ c ≠ '\x00'

/-- A name that can only be that of an entry. -/
structure Plain (name : String) : Prop where
  nonempty : name ≠ ""
  chars : ∀ c ∈ name.toList, c ≠ '/' ∧ c ≠ '.' ∧ c ≠ '\x00'
  limit : name.utf8ByteSize ≤ FileTree.nameLimit

theorem Plain.bare {name : String} (h : Plain name) : Bare name := ⟨h.nonempty, h.chars⟩

/-- The parts, the last one first, after one more piece of a path. -/
def step (parts : List String) (piece : String) : List String :=
  if piece == "" || piece == "." then parts else if piece == ".." then parts.drop 1
    else piece :: parts

def ofPieces (pieces : List String) : FilePath :=
  ⟨(pieces.foldl step []).reverse, ["", ".", ".."].contains (pieces.getLastD "")⟩

/-- A path that can be looked up is neither empty nor absolute, and has no zero byte in it. -/
structure Relative (path : String) : Prop where
  nonempty : path ≠ ""
  zeros : '\x00' ∉ path.toList
  slash : path.toList.head? ≠ some '/'

theorem startsWith_slash (path : String) : path.startsWith "/" = true ↔
    path.toList.head? = some '/' := by
  rw [startsWith_string_iff]
  cases h : path.toList with
  | nil => simp
  | cons c rest => simp [eq_comm]

theorem ofString_of_relative {path : String} (h : Relative path) :
    ofString path = .ok (ofPieces (path.splitOn "/")) := by
  have hzeros : path.toList.contains '\x00' = false := by simpa using h.zeros
  have hslash : path.startsWith "/" = false := by
    rw [← Bool.not_eq_true, startsWith_slash]
    exact h.slash
  have hempty : path.isEmpty = false := by simpa using h.nonempty
  unfold ofString
  rw [hzeros, hempty, hslash]
  rfl

theorem relative_of_ofString {path : String} {p : FilePath} (h : ofString path = .ok p) :
    Relative path ∧ p = ofPieces (path.splitOn "/") := by
  unfold ofString at h
  split at h
  · cases h
  · rename_i hzeros
    split at h
    · cases h
    · rename_i hshape
      obtain ⟨hempty, hslash⟩ := not_or.1 (by simpa only [Bool.or_eq_true] using hshape)
      cases h
      refine ⟨⟨by simpa using hempty, by simpa using hzeros, ?_⟩, rfl⟩
      rwa [startsWith_slash] at hslash

namespace Bare

variable {name : String} (h : Bare name)

include h

theorem slash_notMem : '/' ∉ name.toList := fun hmem => (h.chars _ hmem).1 rfl

theorem ne_of_dot {special : String} (hdot : '.' ∈ special.toList) : name ≠ special := by
  rintro rfl
  exact (h.chars _ hdot).2.1 rfl

theorem step (parts : List String) : step parts name = name :: parts := by
  have hdot : name ≠ "." := h.ne_of_dot (by decide)
  have hdots : name ≠ ".." := h.ne_of_dot (by decide)
  simp [FilePath.step, h.nonempty, hdot, hdots]

theorem ofPieces_concat (pieces : List String) :
    ofPieces (pieces ++ [name]) = ⟨(ofPieces pieces).parts ++ [name], false⟩ := by
  have hdot : name ≠ "." := h.ne_of_dot (by decide)
  have hdots : name ≠ ".." := h.ne_of_dot (by decide)
  simp [ofPieces, List.foldl_append, h.step, h.nonempty, hdot, hdots]

theorem relative : Relative name where
  nonempty := h.nonempty
  zeros hmem := (h.chars _ hmem).2.2 rfl
  slash hhead := h.slash_notMem (List.mem_of_head? hhead)

theorem ofString : ofString name = .ok ⟨[name], false⟩ := by
  rw [ofString_of_relative h.relative, splitOn_of_notMem h.slash_notMem]
  exact congrArg Except.ok (h.ofPieces_concat [])

end Bare

theorem Plain.ofString {name : String} (h : Plain name) : ofString name = .ok ⟨[name], false⟩ :=
  h.bare.ofString

theorem Relative.append {root name : String} (h : Relative root) (hname : '\x00' ∉ name.toList) :
    Relative (root ++ name) where
  nonempty heq := h.nonempty (append_eq_empty_iff.1 heq).1
  zeros := by
    rw [toList_append, List.mem_append]
    rintro (hmem | hmem)
    · exact h.zeros hmem
    · exact hname hmem
  slash := by
    have hne : root.toList ≠ [] := by simpa using h.nonempty
    rw [toList_append, List.head?_append_of_ne_nil _ hne]
    exact h.slash

/-- The root leads to the directory with the parts; the empty root is the
directory that everything is below. -/
def Leads (root : String) (parts : List String) : Prop :=
  root = "" ∧ parts = [] ∨ ∃ directory, ofString root = .ok ⟨parts, directory⟩

theorem eq_append_slash {root : String} (h : root.endsWith "/" = true) :
    ∃ front : String, root = front ++ "/" := by
  obtain ⟨front, hfront⟩ := Slice.endsWith_string_iff.1 h
  have hroot : front ++ ['/'] = root.toList := by simpa using hfront
  refine ⟨ofList front, ?_⟩
  rw [← ofList_toList (s := root), ← hroot, ofList_append]

theorem ofString_join {root name : String} {parts : List String}
    (h : Leads root parts) (hname : Bare name) :
    ofString (join root name) = .ok ⟨parts ++ [name], false⟩ := by
  have hzeros : '\x00' ∉ name.toList := hname.relative.zeros
  rcases h with ⟨rfl, rfl⟩ | ⟨directory, hroot⟩
  · have hjoin : join "" name = name := rfl
    rw [hjoin]
    exact hname.ofString
  · obtain ⟨hrelative, hpieces⟩ := relative_of_ofString hroot
    have hnonempty : root.isEmpty = false := by simpa using hrelative.nonempty
    unfold join
    rw [hnonempty]
    by_cases hslash : root.endsWith "/" = true
    · obtain ⟨front, rfl⟩ := eq_append_slash hslash
      -- The piece after the last slash of the root is empty and leaves the parts as they are.
      have hparts : parts = (ofPieces (front.splitOn "/")).parts := by
        have hlast : (front ++ "/").splitOn "/" = front.splitOn "/" ++ [""] := by
          simpa using splitOn_append front "" (by decide)
        have heq := congrArg FilePath.parts hpieces
        rw [hlast] at heq
        simpa [ofPieces, List.foldl_append, step] using heq
      rw [if_neg Bool.false_ne_true, if_pos hslash, ofString_of_relative (hrelative.append hzeros),
        splitOn_append _ _ hname.slash_notMem, hname.ofPieces_concat, hparts]
    · have hparts : parts = (ofPieces (root.splitOn "/")).parts := congrArg FilePath.parts hpieces
      have hzeros' : '\x00' ∉ ("/" ++ name).toList := by simpa using hzeros
      rw [if_neg Bool.false_ne_true, if_neg hslash,
        ofString_of_relative (append_assoc ▸ hrelative.append hzeros'),
        splitOn_append _ _ hname.slash_notMem, hname.ofPieces_concat, hparts]

end SealedLua.FilePath
