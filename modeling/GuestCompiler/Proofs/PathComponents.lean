import GuestCompiler.Proofs.Containment
import Mathlib.Data.List.Basic

/-!
# The components of paths

The components of a path are those of the pieces between its separators. An empty piece counts only
where the path begins, so repeated and trailing separators make no difference, and a file's name
comes after the components of its directory however the directory is written
(`components_join_file`).
-/
namespace GuestCompiler.Path

section Separators

/-- The components of a path by the pieces between its separators. -/
def ofPieces : List (List Char) → List Component
  | ['.'] :: rest => .current :: rest.filterMap ofPiece
  | [] :: rest => (if rest = [] then [] else [.root]) ++ rest.filterMap ofPiece
  | pieces => pieces.filterMap ofPiece

theorem components_eq_ofPieces (p : Path) : p.components = ofPieces (p.text.toList.splitOn '/') :=
  rfl

theorem ofPieces_cons {piece : List Char} (hempty : piece ≠ []) (hdot : piece ≠ ['.'])
    (rest : List (List Char)) : ofPieces (piece :: rest) = (piece :: rest).filterMap ofPiece := by
  unfold ofPieces
  split
  · rename_i heq
    exact absurd (List.cons.inj heq).1 hdot
  · rename_i heq
    exact absurd (List.cons.inj heq).1 hempty
  · rfl

/-- An empty piece counts only where the path begins. -/
theorem ofPieces_skip {ps qs : List (List Char)} (hps : ps ≠ []) (hmore : ps ++ qs ≠ [[]]) :
    ofPieces (ps ++ [] :: qs) = ofPieces (ps ++ qs) := by
  obtain ⟨piece, rest, rfl⟩ := List.exists_cons_of_ne_nil hps
  have hskip : (rest ++ [] :: qs).filterMap ofPiece = (rest ++ qs).filterMap ofPiece := by
    rw [List.filterMap_append, List.filterMap_append, List.filterMap_cons_none rfl]
  rw [List.cons_append, List.cons_append] at *
  by_cases hempty : piece = []
  · subst hempty
    have hrest : rest ++ qs ≠ [] := fun hnil => hmore (by rw [hnil])
    simp only [ofPieces, hskip, if_neg hrest]
    simp
  · by_cases hdot : piece = ['.']
    · subst hdot
      simp only [ofPieces, hskip]
    · rw [ofPieces_cons hempty hdot, ofPieces_cons hempty hdot, List.filterMap_cons,
        List.filterMap_cons, hskip]

theorem splitOn_ne_blank {cs : List Char} (h : cs ≠ []) : cs.splitOn '/' ≠ [[]] := by
  intro hsingle
  have hjoined := congrArg (['/'].intercalate ·) hsingle
  simp only [List.intercalate_splitOn, List.intercalate_singleton] at hjoined
  exact h hjoined

/-- Separators that follow each other are as one. -/
theorem components_slashes (a b : String) :
    components ⟨a ++ "//" ++ b⟩ = components ⟨a ++ "/" ++ b⟩ := by
  have hone : (a ++ "/" ++ b).toList.splitOn '/' =
      a.toList.splitOn '/' ++ b.toList.splitOn '/' := by
    rw [← List.splitOn_append_cons_self]
    simp
  have htwo : (a ++ "//" ++ b).toList.splitOn '/' =
      a.toList.splitOn '/' ++ [] :: b.toList.splitOn '/' := by
    have hslash : ('/' :: b.toList).splitOn '/' = [] :: b.toList.splitOn '/' :=
      List.splitOn_append_cons_self [] b.toList
    rw [← hslash, ← List.splitOn_append_cons_self]
    simp
  rw [components_eq_ofPieces, components_eq_ofPieces, hone, htwo]
  apply ofPieces_skip (List.splitOn_ne_nil '/' _)
  intro hsingle
  have hlength := congrArg List.length hsingle
  have ha := List.length_pos_of_ne_nil (List.splitOn_ne_nil '/' a.toList)
  have hb := List.length_pos_of_ne_nil (List.splitOn_ne_nil '/' b.toList)
  rw [List.length_append, List.length_singleton] at hlength
  omega

/-- A separator at the end counts only where the path is nothing else. -/
theorem components_trailing {a : String} (ha : a ≠ "") :
    components ⟨a ++ "/"⟩ = components ⟨a⟩ := by
  have hslash : (a ++ "/").toList.splitOn '/' = a.toList.splitOn '/' ++ [] :: [] := by
    have happend := List.splitOn_append_cons_self (a := '/') a.toList []
    simpa using happend
  have hpieces : a.toList.splitOn '/' ++ [] ≠ [[]] := by
    rw [List.append_nil]
    exact splitOn_ne_blank (by simpa using ha)
  rw [components_eq_ofPieces, components_eq_ofPieces, hslash,
    ofPieces_skip (List.splitOn_ne_nil '/' _) hpieces, List.append_nil]

end Separators

section Files

variable {file : String}

theorem isAbsolute_of_not_mem (h : '/' ∉ file.toList) : isAbsolute ⟨file⟩ = false :=
  beq_eq_false_iff_ne.2 fun hhead => h (List.mem_of_head? hhead)

theorem ofPiece_of_length {cs : List Char} (h : 2 < cs.length) :
    ofPiece cs = some (.name (String.ofList cs)) := by
  unfold ofPiece
  split <;> first | rfl | simp at h

/-- A last piece is read by itself, where it is not the first one too. -/
theorem ofPieces_concat {ps : List (List Char)} (hps : ps ≠ []) (hmore : ps ≠ [[]])
    {piece : List Char} {c : Component} (hpiece : ofPiece piece = some c) :
    ofPieces (ps ++ [piece]) = ofPieces ps ++ [c] := by
  obtain ⟨first, rest, rfl⟩ := List.exists_cons_of_ne_nil hps
  have hlast (qs : List (List Char)) :
      (qs ++ [piece]).filterMap ofPiece = qs.filterMap ofPiece ++ [c] := by
    rw [List.filterMap_append, List.filterMap_cons_some hpiece, List.filterMap_nil]
  by_cases hempty : first = []
  · subst hempty
    have hrest : rest ≠ [] := fun hnil => hmore (by rw [hnil])
    simp [ofPieces, hlast, hrest]
  · by_cases hdot : first = ['.']
    · subst hdot
      simp [ofPieces, hlast]
    · rw [List.cons_append, ofPieces_cons hempty hdot, ofPieces_cons hempty hdot,
        ← List.cons_append, hlast]

/-- A file that is no dot or two comes after the components of its directory. -/
theorem components_join_file (p : Path) (hslash : '/' ∉ file.toList) (hlength : 2 < file.length) :
    (p.join file).components = p.components ++ [.name file] := by
  have hpiece : ofPiece file.toList = some (.name file) := by
    rw [ofPiece_of_length hlength, String.ofList_toList]
  have hfile : file.toList.splitOn '/' = [file.toList] := List.splitOn_eq_singleton hslash
  have hne : file.toList ≠ [] := fun hnil => by simp [hnil, ofPiece] at hpiece
  have hdirectory := List.splitOn_ne_nil '/' p.text.toList
  rw [components_eq_ofPieces, components_eq_ofPieces, toList_join (isAbsolute_of_not_mem hslash)]
  by_cases hempty : p.text.toList = []
  · have hdot : file.toList ≠ ['.'] := fun hdot => by simp [hdot, ofPiece] at hpiece
    have hsep : p.separator = "" := if_pos (.inl hempty)
    rw [hsep, hempty, String.toList_empty, List.nil_append, List.nil_append, hfile,
      ofPieces_cons hne hdot, List.filterMap_cons_some hpiece]
    rfl
  by_cases hlast : p.text.toList.getLast? = some '/'
  · -- The separator at the end of the directory leaves an empty piece, which is skipped.
    have hsep : p.separator = "" := if_pos (.inr hlast)
    obtain ⟨front, hfront⟩ := List.getLast?_eq_some_iff.1 hlast
    have hpieces : p.text.toList.splitOn '/' = front.splitOn '/' ++ [[]] := by
      rw [hfront, List.splitOn_append_cons_self]
      rfl
    have hfrontne := List.splitOn_ne_nil '/' front
    have hboth : (p.text.toList ++ p.separator.toList ++ file.toList).splitOn '/' =
        front.splitOn '/' ++ [file.toList] := by
      rw [hsep, hfront, ← hfile, ← List.splitOn_append_cons_self]
      simp
    have hsingle : front.splitOn '/' ++ [file.toList] ≠ [[]] := fun hsingle =>
      hne (by simpa using congrArg List.getLast? hsingle)
    have hskip : ofPieces (front.splitOn '/' ++ [] :: [file.toList]) =
        ofPieces (front.splitOn '/' ++ [file.toList]) := ofPieces_skip hfrontne hsingle
    have hmore : front.splitOn '/' ++ [[]] ≠ [[]] := by simp [hfrontne]
    have hnonempty : front.splitOn '/' ++ [[]] ≠ [] :=
      List.append_ne_nil_of_left_ne_nil hfrontne _
    rw [hboth, hpieces, ← ofPieces_concat hnonempty hmore hpiece, ← hskip, List.append_assoc,
      List.singleton_append]
  · have hsep : p.separator = "/" := if_neg (by simp [hempty, hlast])
    have hboth : (p.text.toList ++ p.separator.toList ++ file.toList).splitOn '/' =
        p.text.toList.splitOn '/' ++ [file.toList] := by
      rw [hsep, ← hfile, ← List.splitOn_append_cons_self]
      simp
    rw [hboth, ofPieces_concat hdirectory (splitOn_ne_blank hempty) hpiece]

end Files

end GuestCompiler.Path
