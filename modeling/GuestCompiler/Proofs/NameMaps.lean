import GuestCompiler.NameMap
import Mathlib.Data.List.Perm.Basic

/-!
# What a map finds

Entries in ascending order are in no other order, so a map is known by what it finds under each name
(`ext_of_get?`). Filling a map up is associative, and what it has been filled up with adds nothing
when it comes again.
-/
namespace GuestCompiler.NameMap

variable {α : Type} {m n : NameMap α}

theorem lookup_eq_some_iff {es : List (String × α)} (h : es.Pairwise fun a b => a.1 < b.1)
    {name : String} {a : α} : es.lookup name = some a ↔ (name, a) ∈ es := by
  induction es with
  | nil => simp
  | cons e es ih =>
    obtain ⟨hall, hrest⟩ := List.pairwise_cons.1 h
    rw [lookup_cons_ite, List.mem_cons]
    by_cases hname : name = e.1
    · subst hname
      -- No other entry has the name of the first one.
      have hnot : (e.1, a) ∉ es := fun hmem => String.lt_irrefl e.1 (hall (e.1, a) hmem)
      simp [hnot, Prod.ext_iff, eq_comm]
    · have hne : (name, a) ≠ e := fun heq => hname (congrArg Prod.fst heq)
      rw [if_neg hname, ih hrest]
      exact (or_iff_right hne).symm

theorem mem_entries_iff {name : String} {a : α} :
    (name, a) ∈ m.entries ↔ m.get? name = some a :=
  (lookup_eq_some_iff m.ascending).symm

theorem mem_values_iff {a : α} : a ∈ m.values ↔ ∃ name, m.get? name = some a := by
  simp only [values, List.mem_map, Prod.exists, mem_entries_iff, exists_eq_right]

theorem nodup_entries (m : NameMap α) : m.entries.Nodup := by
  refine List.Pairwise.imp ?_ m.ascending
  rintro e _ hlt rfl
  exact String.lt_irrefl e.1 hlt

theorem ext_of_get? (h : ∀ name, m.get? name = n.get? name) : m = n := by
  obtain ⟨ms, hms⟩ := m
  obtain ⟨ns, hns⟩ := n
  have hmem : ∀ e : String × α, e ∈ ms ↔ e ∈ ns := fun e => by
    rw [← lookup_eq_some_iff hms, ← lookup_eq_some_iff hns]
    exact iff_of_eq (congrArg (· = some e.2) (h e.1))
  have hperm : ms.Perm ns :=
    (List.perm_ext_iff_of_nodup (nodup_entries ⟨ms, hms⟩) (nodup_entries ⟨ns, hns⟩)).2 hmem
  have heq : ms = ns := hperm.eq_of_pairwise
    (fun _ _ _ _ hlt hgt => absurd hgt (String.lt_asymm hlt)) hms hns
  subst heq
  rfl

/-- All that a map finds, another one finds too. -/
def Le (m n : NameMap α) : Prop := ∀ name a, m.get? name = some a → n.get? name = some a

section Filling

variable (k : NameMap α)

theorem le_fill (m n : NameMap α) : m.Le (m.fill n) := fun name a h => by
  rw [get?_fill, h, Option.some_or]

theorem fill_assoc : (m.fill n).fill k = m.fill (n.fill k) :=
  ext_of_get? fun name => by simp only [get?_fill, Option.or_assoc]

theorem fill_fill : (m.fill n).fill n = m.fill n :=
  ext_of_get? fun name => by simp only [get?_fill, Option.or_assoc, Option.or_self]

/-- A map without new names fills nothing in. -/
theorem fill_eq_self (h : ∀ name, n.contains name = true → m.contains name = true) :
    m.fill n = m := by
  refine ext_of_get? fun name => ?_
  rw [get?_fill]
  cases hm : m.get? name with
  | some a => rfl
  | none =>
    have hn := h name
    simp only [contains, hm, Option.isSome_none, Bool.false_eq_true, imp_false,
      Bool.not_eq_true, Option.isSome_eq_false_iff, Option.isNone_iff_eq_none] at hn
    rw [hn, Option.or_none]

end Filling

end GuestCompiler.NameMap
