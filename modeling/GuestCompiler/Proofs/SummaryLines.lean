import GuestCompiler.Summary

/-!
# Lines of summaries

A summary is made in steps that add lines at the level that has been reached. Its text is all these
lines with newlines between, from the first one on that is not empty: as long as there is no text, a
line is not put on a new line. So an empty line at the front is lost where another line follows it,
and nothing is lost otherwise (`run_text`).
-/
namespace GuestCompiler.Summary

/-- What is done to a summary. -/
inductive Step
  | add (line : String)
  | descend
  | ascend
  | addList (heading : String) (items : List String)
  deriving DecidableEq

/-- A line behind two spaces for each level. -/
def indented (level : Nat) (line : String) : String :=
  String.ofList (List.replicate (2 * level) ' ' ++ line.toList)

namespace Step

def apply (s : Summary) : Step → Summary
  | add line => s.add line
  | descend => s.descend
  | ascend => s.ascend
  | addList heading items => s.addList heading items

/-- The level after a step; there is none below the outermost. -/
def next (level : Nat) : Step → Nat
  | descend => level + 1
  | ascend => level - 1
  | _ => level

/-- The lines that a step adds. -/
def lines (level : Nat) : Step → List String
  | add line => [indented level line]
  | descend => []
  | ascend => []
  | addList heading items =>
    if items = [] then [] else indented level heading :: items.map (indented (level + 1))

end Step

def run (s : Summary) (steps : List Step) : Summary := steps.foldl Step.apply s

/-- The lines that some steps add from a level on. -/
def lines : Nat → List Step → List String
  | _, [] => []
  | level, step :: steps => step.lines level ++ lines (step.next level) steps

/-- An empty line is followed by another one, and nothing is before it. -/
def BlankFirst (ls : List String) : Prop := ls.head? = some "" ∧ 1 < ls.length

instance (ls : List String) : Decidable (BlankFirst ls) :=
  inferInstanceAs (Decidable (ls.head? = some "" ∧ 1 < ls.length))

/-- The lines from the first one on that is not empty. -/
def shown (ls : List String) : List String := ls.dropWhile (· == "")

section Shown

variable {ls : List String}

theorem shown_of_head (h : ls.head? ≠ some "") : shown ls = ls :=
  List.dropWhile_beq_eq_self_of_head?_ne h

theorem shown_blank (rest : List String) : shown ("" :: rest) = shown rest := rfl

theorem blankFirst_blank {rest : List String} : BlankFirst ("" :: rest) ↔ rest ≠ [] := by
  simp [BlankFirst, List.length_pos_iff]

theorem intercalate_shown_eq_empty : "\n".intercalate (shown ls) = "" ↔ shown ls = [] := by
  constructor
  · intro htext
    have hfirst := List.head?_dropWhile_not (· == "") ls
    rw [← shown] at hfirst
    cases hshown : shown ls with
    | nil => rfl
    | cons first rest =>
      have hne : first ≠ "" := by simpa [hshown] using hfirst
      rw [hshown] at htext
      cases rest with
      | nil => exact absurd htext hne
      | cons second rest => simp [String.intercalate_cons_cons] at htext
  · intro hnil
    rw [hnil, String.intercalate_nil]

/-- A text is never longer without the empty lines at its front. -/
theorem length_intercalate_shown_le (ls : List String) :
    ("\n".intercalate (shown ls)).length ≤ ("\n".intercalate ls).length := by
  induction ls with
  | nil => exact Nat.le_refl _
  | cons first rest ih =>
    by_cases hfirst : first = ""
    · subst hfirst
      rw [shown_blank]
      refine Nat.le_trans ih ?_
      cases rest with
      | nil => exact Nat.le_refl _
      | cons second rest =>
        rw [String.intercalate_cons_cons, String.length_append]
        omega
    · have hshown : shown (first :: rest) = first :: rest := shown_of_head (by simpa using hfirst)
      exact Nat.le_of_eq (by rw [hshown])

/-- A line is lost where there is a newline more than in the text. -/
theorem intercalate_shown_eq_iff :
    "\n".intercalate (shown ls) = "\n".intercalate ls ↔ ¬ BlankFirst ls := by
  by_cases hhead : ls.head? = some ""
  · obtain ⟨rest, rfl⟩ := List.head?_eq_some_iff.1 hhead
    rw [shown_blank, blankFirst_blank, Decidable.not_not]
    constructor
    · intro htext
      refine Decidable.byContradiction fun hrest => ?_
      have hshorter := length_intercalate_shown_le rest
      have hnewline : ("" ++ "\n").length = 1 := rfl
      rw [htext, String.intercalate_cons_of_ne_nil hrest, String.length_append] at hshorter
      omega
    · rintro rfl
      rfl
  · rw [shown_of_head hhead]
    exact iff_of_true rfl fun hblank => hhead hblank.1

theorem length_shown_blank (rest : List String) :
    (shown ("" :: rest)).length < ("" :: rest).length :=
  Nat.lt_succ_of_le (List.dropWhile_sublist (l := rest) (· == "")).length_le

/-- Lines that have no newlines are as many in the text, but for the empty ones at its front. -/
theorem length_splitOn_shown (hne : ls ≠ []) (hls : ∀ line ∈ ls, '\n' ∉ line.toList) :
    (("\n".intercalate (shown ls)).toList.splitOn '\n').length = ls.length ↔ ¬ BlankFirst ls := by
  rw [String.toList_intercalate]
  by_cases hnone : shown ls = []
  · -- The empty text is one line, and all lines are empty.
    have hhead : ls.head? = some "" :=
      Decidable.byContradiction fun hhead => hne ((shown_of_head hhead).symm.trans hnone)
    obtain ⟨rest, rfl⟩ := List.head?_eq_some_iff.1 hhead
    have hlength : (([] : List Char).splitOn '\n').length = 1 := rfl
    rw [hnone, List.map_nil, List.intercalate_nil, hlength, blankFirst_blank, Decidable.not_not,
      List.length_cons, ← List.length_eq_zero_iff]
    omega
  · have hpieces : ∀ piece ∈ (shown ls).map String.toList, '\n' ∉ piece := by
      intro piece hpiece
      obtain ⟨line, hline, rfl⟩ := List.mem_map.1 hpiece
      exact hls line ((List.dropWhile_sublist _).subset hline)
    have hsplit := List.splitOn_intercalate '\n' hpieces (by simpa using hnone)
    have hnewline : "\n".toList = ['\n'] := rfl
    rw [hnewline, hsplit, List.length_map]
    by_cases hhead : ls.head? = some ""
    · obtain ⟨rest, rfl⟩ := List.head?_eq_some_iff.1 hhead
      have hrest : rest ≠ [] := by
        rintro rfl
        exact hnone rfl
      exact iff_of_false (Nat.ne_of_lt (length_shown_blank rest))
        (not_not_intro (blankFirst_blank.2 hrest))
    · rw [shown_of_head hhead]
      exact iff_of_true rfl fun hblank => hhead hblank.1

end Shown

section Steps

variable {s : Summary} {ls : List String}

def Shows (s : Summary) (ls : List String) : Prop := s.text = "\n".intercalate (shown ls)

theorem text_add (s : Summary) (line : String) : (s.add line).text =
    (if s.text = "" then "" else s.text ++ "\n") ++ indented s.level line := by
  rw [indented, String.ofList_append, String.ofList_toList, ← String.append_assoc]
  rfl

theorem Shows.add (h : s.Shows ls) (line : String) :
    (s.add line).Shows (ls ++ [indented s.level line]) := by
  rw [Shows, text_add, shown, List.dropWhile_append, ← shown]
  by_cases hempty : shown ls = []
  · -- Nothing has been shown yet, so that the line begins the text.
    have htext : s.text = "" := h.trans (intercalate_shown_eq_empty.2 hempty)
    rw [if_pos htext, hempty, String.empty_append]
    by_cases hline : indented s.level line = ""
    · simp [hline]
    · simp [hline]
  · have htext : s.text ≠ "" := fun htext =>
      hempty (intercalate_shown_eq_empty.1 (h.symm.trans htext))
    rw [if_neg htext, if_neg (by simpa using hempty),
      String.intercalate_append_of_ne_nil hempty (List.cons_ne_nil _ _),
      String.intercalate_singleton, ← h]

theorem Shows.foldl_add (h : s.Shows ls) (items : List String) :
    (items.foldl Summary.add s).Shows (ls ++ items.map (indented s.level)) ∧
      (items.foldl Summary.add s).level = s.level := by
  induction items generalizing s ls with
  | nil => simpa using h
  | cons item items ih =>
    have hlevel : (s.add item).level = s.level := rfl
    have hrest := ih (h.add item)
    rw [hlevel, List.append_assoc] at hrest
    exact hrest

theorem Shows.apply (h : s.Shows ls) (step : Step) :
    (step.apply s).Shows (ls ++ step.lines s.level) ∧
      (step.apply s).level = step.next s.level := by
  cases step with
  | add line => exact ⟨h.add line, rfl⟩
  | descend =>
    rw [Step.lines, List.append_nil]
    exact ⟨h, rfl⟩
  | ascend =>
    rw [Step.lines, List.append_nil]
    exact ⟨h, rfl⟩
  | addList heading items =>
    rw [Step.lines, Step.apply, addList]
    by_cases hnone : items = []
    · rw [if_pos hnone, if_pos hnone, List.append_nil]
      exact ⟨h, rfl⟩
    · rw [if_neg hnone, if_neg hnone]
      have hheading : Shows (s.add heading).descend (ls ++ [indented s.level heading]) :=
        h.add heading
      obtain ⟨hitems, hlevel⟩ := hheading.foldl_add items
      rw [List.append_assoc] at hitems
      exact ⟨hitems, congrArg (· - 1) hlevel⟩

theorem Shows.run (h : s.Shows ls) (steps : List Step) :
    (s.run steps).Shows (ls ++ Summary.lines s.level steps) := by
  induction steps generalizing s ls with
  | nil => simpa [Summary.lines, Summary.run] using h
  | cons step steps ih =>
    obtain ⟨hstep, hlevel⟩ := h.apply step
    have hrest := ih hstep
    rw [hlevel, List.append_assoc] at hrest
    exact hrest

end Steps

/-- The text of any steps is the lines that they add from the first one on that is not empty. It is
all of the lines, and where none of them is broken as many, just when none is lost. -/
theorem run_text (steps : List Step) :
    (run {} steps).text = "\n".intercalate ((lines 0 steps).dropWhile (· == "")) ∧
    ((run {} steps).text = "\n".intercalate (lines 0 steps) ↔ ¬ BlankFirst (lines 0 steps)) ∧
    (lines 0 steps ≠ [] → (∀ line ∈ lines 0 steps, '\n' ∉ line.toList) →
      (((run {} steps).text.toList.splitOn '\n').length = (lines 0 steps).length ↔
        ¬ BlankFirst (lines 0 steps))) := by
  have hempty : Shows {} [] := rfl
  have htext : (run {} steps).text = "\n".intercalate (shown (lines 0 steps)) := hempty.run steps
  refine ⟨htext, ?full, ?count⟩
  case full =>
    rw [htext]
    exact intercalate_shown_eq_iff
  case count =>
    intro hne hlines
    rw [htext]
    exact length_splitOn_shown hne hlines

/-- Steps with more ascents than descents, and with an empty line that is not the first. -/
theorem unbalanced_text :
    (run {} [.ascend, .add "Top", .addList "Items:" ["a", ""], .ascend, .descend, .add "b"]).text =
        "Top\nItems:\n  a\n  \n  b" ∧
      ((run {} [.ascend, .add "Top", .addList "Items:" ["a", ""], .ascend, .descend,
        .add "b"]).text.toList.splitOn '\n').length = 5 := by
  obtain ⟨-, hfull, hcount⟩ := run_text
    [.ascend, .add "Top", .addList "Items:" ["a", ""], .ascend, .descend, .add "b"]
  refine ⟨(hfull.2 (by decide)).trans (by decide), ?_⟩
  exact (hcount (by decide) (by decide)).2 (by decide)

/-- The empty line at the front is lost, and with it the newline after it. -/
theorem blank_first_lost :
    (run {} [.add "", .add "x"]).text = "x" ∧
      "\n".intercalate (lines 0 [.add "", .add "x"]) = "\nx" := by decide

end GuestCompiler.Summary
