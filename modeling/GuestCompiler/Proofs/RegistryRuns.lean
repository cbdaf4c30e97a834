import GuestCompiler.Distinct
import GuestCompiler.Proofs.Registry

/-!
# Registries as lists

Whatever entries a registry was to take, one after the other, it is the list of those that a list
alone would take: with a name, and with no name that is there already (`Registry.accept`). What is
found in it is found in the list, positions in its index are positions in the list, and what is
refused leaves entries and index as they are (`Registry.run_refines`).
-/
namespace GuestCompiler.Registry

open Edit

variable {α : Type} [Named α]

/-- What becomes of a list that is to take an entry. -/
def accept (kept : List α) (entry : α) : List α :=
  if Named.name entry = "" ∨ Named.name entry ∈ kept.map Named.name then kept else kept ++ [entry]

/-- The registry that was to take some entries, refused ones among them. -/
def run (r : Registry α) (entries : List α) : Registry α :=
  entries.foldl (fun r entry => Edit.state (add entry r)) r

/-- A registry that is a list of entries for all who use it. -/
structure Refines (r : Registry α) (kept : List α) : Prop where
  /-- In order, and so as many. -/
  entries : r.entries = kept
  /-- A name is at its position in the list, so that no position is beyond the end. -/
  index : ∀ name position,
    r.index.get? name = some position ↔ (kept.map Named.name)[position]? = some name
  found : ∀ name, r.find? name = kept.find? (Named.name · == name)
  known : ∀ name, r.contains name = kept.any (Named.name · == name)
  named : "" ∉ kept.map Named.name
  distinct : (kept.map Named.name).Nodup
  refused : ∀ entry, (∃ e r', add entry r = .error e r') ↔
    Named.name entry = "" ∨ Named.name entry ∈ kept.map Named.name
  unchanged : ∀ entry e r', add entry r = .error e r' →
    r' = r ∧ r.Refusal (Named.name entry) e
  added : ∀ entry name r', add entry r = .ok name r' →
    r'.entries = kept ++ [entry] ∧ r'.find? name = some entry

section Sound

variable {r : Registry α}

theorem Sound.find?_eq (h : r.Sound) (name : String) :
    r.find? name = r.entries.find? (Named.name · == name) := by
  cases hfound : r.find? name with
  | some entry =>
    obtain ⟨position, hindex, hentry⟩ := find?_eq_some.1 hfound
    have hname : r.names[position]? = some name := (h.get?_index name position).1 hindex
    rw [names, List.getElem?_map, hentry, Option.map_some, Option.some_inj] at hname
    subst hname
    exact (find?_of_mem_of_nodup h.nodup_names (List.mem_of_getElem? hentry)).symm
  | none =>
    refine (List.find?_eq_none.2 fun entry hentry hname => ?_).symm
    -- An entry of the name would be found through its position.
    obtain ⟨position, hposition⟩ := List.getElem?_of_mem hentry
    have hindex : r.index.get? name = some position := by
      rw [h.get?_index, names, List.getElem?_map, hposition, Option.map_some, eq_of_beq hname]
    rw [find?_eq_some.2 ⟨position, hindex, hposition⟩] at hfound
    cases hfound

theorem Sound.contains_eq (h : r.Sound) (name : String) :
    r.contains name = r.entries.any (Named.name · == name) := by
  rw [Bool.eq_iff_iff, h.contains_iff, List.any_eq_true, names, List.mem_map]
  simp only [beq_iff_eq]

/-- What has been taken had a name, and a new one. -/
theorem Sound.new_of_insert {entry : α} (h : (r.insert entry).Sound) :
    ¬ (Named.name entry = "" ∨ Named.name entry ∈ r.names) := by
  rintro (hempty | hold)
  · exact h.named (by simp [hempty])
  · have hnodup := h.nodup_names
    rw [names_insert, List.nodup_append] at hnodup
    exact hnodup.2.2 _ hold _ List.mem_cons_self rfl

theorem Refusal.reason {name : String} {e : Error} (h : r.Refusal name e) :
    name = "" ∨ name ∈ r.names := by
  cases h with
  | unnamed hempty => exact .inl hempty
  | taken hold => exact .inr hold

/-- A sound registry answers to an entry what a list would. -/
theorem Sound.refused_iff (h : r.Sound) (entry : α) : (∃ e r', add entry r = .error e r') ↔
    Named.name entry = "" ∨ Named.name entry ∈ r.names := by
  refine (meets_add h entry).refused_iff ?_ ?_
  · rintro name r' ⟨-, rfl, hsound⟩
    exact hsound.new_of_insert
  · rintro e r' ⟨-, hrefusal⟩
    exact hrefusal.reason

theorem Sound.refines (h : r.Sound) : r.Refines r.entries where
  entries := rfl
  index := h.get?_index
  found := h.find?_eq
  known := h.contains_eq
  named := h.named
  distinct := h.nodup_names
  refused := h.refused_iff
  unchanged entry _ _ hadd := (meets_add h entry).error hadd
  added entry name r' hadd := by
    obtain ⟨rfl, rfl, hsound⟩ := (meets_add h entry).ok hadd
    refine ⟨rfl, ?_⟩
    rw [hsound.find?_eq]
    exact find?_of_mem_of_nodup hsound.nodup_names (List.mem_append_right _ List.mem_cons_self)

/-- One entry more is to be taken. -/
theorem Sound.state_add (h : r.Sound) (entry : α) : (Edit.state (add entry r)).Sound ∧
    (Edit.state (add entry r)).entries = accept r.entries entry := by
  refine (meets_add h entry).state
    (P := fun r' => r'.Sound ∧ r'.entries = accept r.entries entry) ?_ ?_
  · rintro name r' ⟨-, rfl, hsound⟩
    have hnew := hsound.new_of_insert
    rw [names] at hnew
    rw [accept, if_neg hnew]
    exact ⟨hsound, rfl⟩
  · rintro e r' ⟨rfl, hrefusal⟩
    have hreason := hrefusal.reason
    rw [names] at hreason
    rw [accept, if_pos hreason]
    exact ⟨h, rfl⟩

theorem Sound.run (h : r.Sound) (entries : List α) :
    (r.run entries).Sound ∧ (r.run entries).entries = entries.foldl accept r.entries := by
  induction entries generalizing r with
  | nil => exact ⟨h, rfl⟩
  | cons entry entries ih =>
    obtain ⟨hsound, hkept⟩ := h.state_add entry
    have hrest := ih hsound
    rw [hkept] at hrest
    exact hrest

end Sound

/-- After any entries, refused ones among them, a registry that began empty is the list of the ones
that were accepted. -/
theorem run_refines (label : String) (entries : List α) :
    Refines (run { label := label } entries) (entries.foldl accept []) := by
  obtain ⟨hsound, hkept⟩ := (sound_empty (α := α) label).run entries
  have hrefines := hsound.refines
  rw [hkept] at hrefines
  exact hrefines

end GuestCompiler.Registry
