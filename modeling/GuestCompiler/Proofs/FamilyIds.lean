import GuestCompiler.Proofs.DottedNames

/-!
# Ids given out by family

Families share one set of ids, and a family may be called anything: its name may hold dots and
numbers, or begin with the name of another one. As a number has no dot, an id still tells its family
and its number apart (`nth_inj`), and so no two ids that are given out are the same
(`allocated_unique`).
-/
namespace GuestCompiler.FamilyCounts

/-- The family of an id is what is before its last dot. -/
theorem nth_inj {family other : String} {m n : Nat} :
    nth family m = nth other n ↔ family = other ∧ m = n := by
  constructor
  · intro h
    have hpieces (f : String) (k : Nat) : (nth f k).toList.splitOn '.' =
        f.toList.splitOn '.' ++ [(toString k).toList] := by
      have htext : (nth f k).toList = f.toList ++ '.' :: (toString k).toList := by simp [nth]
      rw [htext, List.splitOn_append_cons_self, List.splitOn_eq_singleton (noDot_toString k)]
    have hsplit : family.toList.splitOn '.' ++ [(toString m).toList] =
        other.toList.splitOn '.' ++ [(toString n).toList] := by
      rw [← hpieces, ← hpieces, h]
    have hfront : family.toList.splitOn '.' = other.toList.splitOn '.' :=
      (List.append_inj' hsplit rfl).1
    have hchars : family.toList = other.toList :=
      calc family.toList
        _ = ['.'].intercalate (family.toList.splitOn '.') := (List.intercalate_splitOn '.').symm
        _ = ['.'].intercalate (other.toList.splitOn '.') := by rw [hfront]
        _ = other.toList := List.intercalate_splitOn '.'
    have hfamily : family = other := String.toList_inj.1 hchars
    subst hfamily
    exact ⟨rfl, nth_injective family h⟩
  · rintro ⟨rfl, rfl⟩
    rfl

/-- The counts after some families have each been given an id. -/
def run (c : FamilyCounts) (families : List String) : FamilyCounts := families.foldl advance c

/-- The ids that some families are given, one after the other. -/
def allocated : FamilyCounts → List String → List String
  | _, [] => []
  | c, family :: rest => c.next family :: allocated (c.advance family) rest

theorem count_run (c : FamilyCounts) (families : List String) (family : String) :
    (c.run families).count family = c.count family + families.count family := by
  induction families generalizing c with
  | nil => rfl
  | cons other rest ih =>
    have hrest : (c.run (other :: rest)).count family = ((c.advance other).run rest).count family :=
      rfl
    rw [hrest, ih, count_advance]
    by_cases hfamily : family = other
    · subst hfamily
      rw [if_pos rfl, List.count_cons_self]
      omega
    · rw [if_neg hfamily, List.count_cons_of_ne (Ne.symm hfamily)]

theorem length_allocated (c : FamilyCounts) (families : List String) :
    (c.allocated families).length = families.length := by
  induction families generalizing c with
  | nil => rfl
  | cons family rest ih => rw [allocated, List.length_cons, ih, List.length_cons]

/-- An id that is given out has a number that its family had not reached before. -/
theorem exists_number_of_mem {c : FamilyCounts} {families : List String} {id : String}
    (h : id ∈ c.allocated families) : ∃ family n, id = nth family n ∧ c.count family ≤ n := by
  induction families generalizing c with
  | nil => cases h
  | cons other rest ih =>
    rcases List.mem_cons.1 h with rfl | hrest
    · exact ⟨other, c.count other, rfl, Nat.le_refl _⟩
    · obtain ⟨family, n, hid, hn⟩ := ih hrest
      refine ⟨family, n, hid, ?_⟩
      rw [count_advance] at hn
      split at hn
      · rename_i hfamily
        subst hfamily
        omega
      · exact hn

theorem nodup_allocated (c : FamilyCounts) (families : List String) :
    (c.allocated families).Nodup := by
  induction families generalizing c with
  | nil => exact List.nodup_nil
  | cons family rest ih =>
    rw [allocated, List.nodup_cons]
    refine ⟨fun hmem => ?_, ih (c.advance family)⟩
    obtain ⟨other, n, hid, hn⟩ := exists_number_of_mem hmem
    obtain ⟨rfl, rfl⟩ := nth_inj.1 hid
    rw [count_advance, if_pos rfl] at hn
    omega

/-- A family's own ids have the numbers from its count on. -/
theorem allocated_of_family (c : FamilyCounts) (families : List String) (family : String) :
    ((families.zip (c.allocated families)).filter (·.1 == family)).map (·.2) =
      (List.range' (c.count family) (families.count family)).map (nth family) := by
  induction families generalizing c with
  | nil => rfl
  | cons other rest ih =>
    rw [allocated, List.zip_cons_cons]
    by_cases hother : other = family
    · subst hother
      rw [List.filter_cons_of_pos (by simp), List.map_cons, ih, count_advance, if_pos rfl,
        List.count_cons_self, List.range'_succ, List.map_cons]
      rfl
    · rw [List.filter_cons_of_neg (by simp [hother]), ih, count_advance,
        if_neg (Ne.symm hother), List.count_cons_of_ne hother]

/-- Whatever families are given ids, in whatever order: no id is given out twice, those of a family
are its name with the numbers from 0 on, and its count is how many it was given. -/
theorem allocated_unique (families : List String) :
    (allocated ∅ families).Nodup ∧
    (allocated ∅ families).length = families.length ∧
    ∀ family,
      ((families.zip (allocated ∅ families)).filter (·.1 == family)).map (·.2) =
        (List.range (families.count family)).map (fun n => family ++ "." ++ toString n) ∧
      (run ∅ families).count family = families.count family := by
  refine ⟨nodup_allocated ∅ families, length_allocated ∅ families, fun family => ⟨?ids, ?count⟩⟩
  case ids =>
    rw [allocated_of_family, count_empty, ← List.range_eq_range']
    rfl
  case count => rw [count_run, count_empty, Nat.zero_add]

example : allocated ∅ ["usb", "usb.0", "usb", "usb.0"] =
    ["usb.0", "usb.0.0", "usb.1", "usb.0.1"] := by decide +kernel

end GuestCompiler.FamilyCounts
