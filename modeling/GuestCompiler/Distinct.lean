/-!
# First occurrences

A list with only the first of the elements that share a key, in order. No key is left twice, and
where none comes twice an element is what its key finds.
-/
namespace GuestCompiler

variable {α κ : Type} [DecidableEq κ]

def distinctBy (key : α → κ) (xs : List α) : List α :=
  xs.foldl (fun kept x => if key x ∈ kept.map key then kept else kept ++ [x]) []

theorem distinctBy_concat (key : α → κ) (xs : List α) (x : α) :
    distinctBy key (xs ++ [x]) =
      if key x ∈ (distinctBy key xs).map key then distinctBy key xs
      else distinctBy key xs ++ [x] := by
  rw [distinctBy, List.foldl_append]
  rfl

theorem nodup_map_foldl_distinct (key : α → κ) (xs kept : List α) (h : (kept.map key).Nodup) :
    ((xs.foldl (fun kept x => if key x ∈ kept.map key then kept else kept ++ [x]) kept).map
      key).Nodup := by
  induction xs generalizing kept with
  | nil => exact h
  | cons x rest ih =>
    rw [List.foldl_cons]
    apply ih
    split
    · exact h
    · rename_i hx
      rw [List.map_append, List.nodup_append]
      refine ⟨h, by simp, fun a ha b hb => ?_⟩
      rw [List.map_singleton, List.mem_singleton] at hb
      exact fun hab => hx (hb ▸ hab ▸ ha)

theorem nodup_map_distinctBy (key : α → κ) (xs : List α) : ((distinctBy key xs).map key).Nodup :=
  nodup_map_foldl_distinct key xs [] List.nodup_nil

/-- Where no key comes twice, an element is found by its key. -/
theorem find?_of_mem_of_nodup {key : α → κ} {xs : List α} {x : α} (hxs : (xs.map key).Nodup)
    (hx : x ∈ xs) : xs.find? (key · == key x) = some x := by
  induction xs with
  | nil => cases hx
  | cons y ys ih =>
    rw [List.map_cons, List.nodup_cons] at hxs
    obtain ⟨hnew, hys⟩ := hxs
    rw [List.find?_cons]
    rcases List.mem_cons.1 hx with rfl | hmem
    · simp
    · have hne : key y ≠ key x := fun heq => hnew (heq ▸ List.mem_map_of_mem hmem)
      rw [beq_eq_false_iff_ne.2 hne]
      exact ih hys hmem

end GuestCompiler
