import GuestCompiler.Proofs.TreeSteps
import Mathlib.Data.List.Nodup
import Mathlib.Data.List.Perm.Basic
import Std.Data.String.ToNat

/-!
# Numbers within a family

The devices that are numbered by family are listed in `Topology.numbered`. In any topology that
steps lead to, the ids of a family are those that it has given out, each once (`Covers`), and of the
devices in the order in which they were made (`DeviceTree.made`) those of a family bear the numbers
0, 1, 2 and so on (`DeviceTree.made_in_order`).
-/
namespace GuestCompiler

namespace FamilyCounts

variable {c : FamilyCounts} {ids ids' : List (String × String)}

/-- The id of a number, from 0. -/
def nth (family : String) (n : Nat) : String := family ++ "." ++ toString n

theorem nth_injective (family : String) {m n : Nat} (h : nth family m = nth family n) : m = n :=
  Nat.repr_injective ((String.append_right_inj (family ++ ".")).1 h)

@[simp] theorem count_empty (family : String) : count ∅ family = 0 := rfl

theorem count_advance (c : FamilyCounts) (family other : String) :
    (c.advance family).count other =
      if other = family then c.count family + 1 else c.count other := by
  rw [count, advance, NameMap.get?_insert]
  by_cases h : other = family
  · rw [if_pos h, if_pos h]
    rfl
  · rw [if_neg h, if_neg h]
    rfl

/-- Among ids with their families, those of each family are the ones that it has given out. -/
def Covers (c : FamilyCounts) (ids : List (String × String)) : Prop :=
  ∀ family, ((ids.filter (·.1 == family)).map (·.2)).Perm
    ((List.range (c.count family)).map (nth family))

theorem covers_empty : Covers ∅ [] := fun _ => .refl _

theorem Covers.perm (h : c.Covers ids) (hperm : ids.Perm ids') : c.Covers ids' := fun family =>
  ((hperm.filter _).map _).symm.trans (h family)

theorem Covers.advance (h : c.Covers ids) (family : String) :
    (c.advance family).Covers ((family, c.next family) :: ids) := by
  intro other
  rw [count_advance]
  by_cases hother : other = family
  · subst hother
    rw [if_pos rfl, List.filter_cons_of_pos (by simp), List.range_succ, List.map_append]
    exact ((h other).cons _).trans (List.perm_append_singleton _ _).symm
  · rw [if_neg hother, List.filter_cons_of_neg (by simp [Ne.symm hother])]
    exact h other

theorem Covers.exists_number (h : c.Covers ids) {x : String × String} (hx : x ∈ ids) :
    ∃ n < c.count x.1, x.2 = nth x.1 n := by
  have hmem : x.2 ∈ (ids.filter (·.1 == x.1)).map (·.2) :=
    List.mem_map_of_mem (List.mem_filter.2 ⟨hx, by simp⟩)
  obtain ⟨n, hn, hid⟩ := List.mem_map.1 ((h x.1).mem_iff.1 hmem)
  exact ⟨n, List.mem_range.1 hn, hid.symm⟩

theorem Covers.next_not_mem (h : c.Covers ids) (family : String) :
    (family, c.next family) ∉ ids := by
  intro hmem
  obtain ⟨n, hn, hid⟩ := h.exists_number hmem
  have hcount : c.count family = n := nth_injective family hid
  exact Nat.ne_of_gt hn hcount

theorem Covers.nodup (h : c.Covers ids) : ids.Nodup := by
  refine List.nodup_iff_count_le_one.2 fun x => ?_
  have hfamily : ((ids.filter (·.1 == x.1)).map (·.2)).Nodup :=
    (h x.1).nodup_iff.2 (List.nodup_range.map fun _ _ hid => nth_injective _ hid)
  calc ids.count x
      = (ids.filter (·.1 == x.1)).count x := (List.count_filter (by simp)).symm
    _ ≤ ((ids.filter (·.1 == x.1)).map (·.2)).count x.2 := List.count_le_count_map
    _ ≤ 1 := List.nodup_iff_count_le_one.1 hfamily x.2

end FamilyCounts

open FamilyCounts

/-- A device and the one behind it, each with its family; a root port has none. -/
def TopLevel.numbered : TopLevel → List (String × String)
  | rootPort port => port.downstream.toList.map fun d => (d.family, d.id)
  | panic id _ => [("panic", id)]
  | display id _ _ => [("qxl", id)]
  | tpm _ => []
  | cdrom id _ _ _ => [("sata", id)]

namespace Topology

def numbered (t : Topology) : List (String × String) := t.devices.flatMap TopLevel.numbered

/-- At most one numbered device more, with the next number of its family. -/
def Numbers (t t' : Topology) : Prop :=
  t'.numbered.Perm t.numbered ∧ t'.counts = t.counts ∨ ∃ family,
    t'.numbered.Perm ((family, t.counts.next family) :: t.numbered) ∧
      t'.counts = t.counts.advance family

variable {t t' : Topology}

theorem numbered_concat (t : Topology) (d : TopLevel) (counts : FamilyCounts)
    (functions sata : Nat) :
    numbered ⟨t.devices ++ [d], counts, functions, sata⟩ = t.numbered ++ d.numbered := by
  simp [numbered]

theorem numbered_withRoot (t : Topology) : t.withRoot.numbered = t.numbered :=
  (t.numbered_concat _ _ _ _).trans (List.append_nil _)

theorem Change.numbers (h : t.Change t') : t.Numbers t' := by
  have hlast (ids : List (String × String)) (x : String × String) : (ids ++ [x]).Perm (x :: ids) :=
    List.perm_append_singleton x ids
  cases h with
  | root _ => exact .inl ⟨.of_eq t.numbered_withRoot, rfl⟩
  | panic _ => exact .inr ⟨"panic", .trans (.of_eq (t.numbered_concat _ _ _ _)) (hlast _ _), rfl⟩
  | display _ => exact .inr ⟨"qxl", .trans (.of_eq (t.numbered_concat _ _ _ _)) (hlast _ _), rfl⟩
  | tpm _ =>
    exact .inl ⟨.of_eq ((t.numbered_concat _ _ _ _).trans (List.append_nil _)), rfl⟩
  | cdrom _ _ _ =>
    exact .inr ⟨"sata", .trans (.of_eq (t.numbered_concat _ _ _ _)) (hlast _ _), rfl⟩
  | @behind before after port family device ht hfree hnew =>
    refine .inr ⟨family, ?_, rfl⟩
    rw [numbered, numbered, ht]
    simp [TopLevel.numbered, hfree, hnew.family, hnew.id]
  | @endpoint before after port c e ht hc _ _ =>
    refine .inl ⟨.of_eq ?_, rfl⟩
    rw [numbered, numbered, ht]
    simp [TopLevel.numbered, hc, Downstream.family, Downstream.id]

theorem Course.numbers (h : t.Course t') : t.Numbers t' := by
  cases h with
  | still => exact .inl ⟨.refl _, rfl⟩
  | change hchange => exact hchange.numbers
  | shared _ hchange =>
    have hnumbers := hchange.numbers
    rw [Numbers, numbered_withRoot] at hnumbers
    exact hnumbers

theorem Numbers.covers (h : t.Numbers t') (ht : t.counts.Covers t.numbered) :
    t'.counts.Covers t'.numbered := by
  rcases h with ⟨hperm, hcounts⟩ | ⟨family, hperm, hcounts⟩
  · rw [hcounts]
    exact ht.perm hperm.symm
  · rw [hcounts]
    exact (ht.advance family).perm hperm.symm

theorem covers_empty : ({} : Topology).counts.Covers ({} : Topology).numbered :=
  FamilyCounts.covers_empty

/-- The numbered devices that there were not before. -/
def newcomers (t t' : Topology) : List (String × String) :=
  t'.numbered.filter (· ∉ t.numbered)

theorem newcomers_of_perm (h : t'.numbered.Perm t.numbered) : t.newcomers t' = [] := by
  refine List.filter_eq_nil_iff.2 fun x hx => ?_
  simpa using h.mem_iff.1 hx

theorem newcomers_of_perm_cons {x : String × String} (hx : x ∉ t.numbered)
    (h : t'.numbered.Perm (x :: t.numbered)) : t.newcomers t' = [x] := by
  refine List.perm_singleton.1 ((h.filter _).trans (.of_eq ?_))
  rw [List.filter_cons_of_pos (by simpa using hx)]
  exact congrArg _ (List.filter_eq_nil_iff.2 fun y hy => by simpa using hy)

end Topology

namespace DeviceTree

/-- The numbered devices that steps make, in the order in which they are made. -/
def made : DeviceTree → List TreeStep → List (String × String)
  | _, [] => []
  | t, step :: steps =>
    let t' := Edit.state (step.edit t)
    t.topology.newcomers t'.topology ++ made t' steps

variable {t : DeviceTree}

/-- Steps make the devices that are new after them. -/
theorem run_numbered (ht : t.topology.counts.Covers t.topology.numbered) (steps : List TreeStep) :
    (t.run steps).topology.numbered.Perm (t.topology.numbered ++ t.made steps) := by
  induction steps generalizing t with
  | nil => simp [made]
  | cons step steps ih =>
    have hnumbers := (step.course_state t).numbers
    refine (ih (hnumbers.covers ht)).trans ?_
    rw [made, ← List.append_assoc]
    refine List.Perm.append_right _ ?_
    rcases hnumbers with ⟨hperm, -⟩ | ⟨family, hperm, -⟩
    · rw [Topology.newcomers_of_perm hperm, List.append_nil]
      exact hperm
    · rw [Topology.newcomers_of_perm_cons (ht.next_not_mem family) hperm]
      exact hperm.trans (List.perm_append_singleton _ _).symm

/-- A family goes on counting where it stands. -/
theorem made_from (ht : t.topology.counts.Covers t.topology.numbered) (steps : List TreeStep)
    (family : String) : ∃ n,
      (t.run steps).topology.counts.count family = t.topology.counts.count family + n ∧
      ((t.made steps).filter (·.1 == family)).map (·.2) =
        (List.range' (t.topology.counts.count family) n).map (nth family) := by
  induction steps generalizing t with
  | nil => exact ⟨0, rfl, rfl⟩
  | cons step steps ih =>
    have hnumbers := (step.course_state t).numbers
    obtain ⟨n, hcount, hmade⟩ := ih (hnumbers.covers ht)
    rw [run_cons, made, List.filter_append, List.map_append, hmade, hcount]
    rcases hnumbers with ⟨hperm, hcounts⟩ | ⟨other, hperm, hcounts⟩
    · refine ⟨n, by rw [hcounts], ?_⟩
      rw [Topology.newcomers_of_perm hperm, hcounts]
      rfl
    · rw [Topology.newcomers_of_perm_cons (ht.next_not_mem other) hperm, hcounts, count_advance]
      by_cases hother : family = other
      · subst hother
        refine ⟨n + 1, by rw [if_pos rfl]; omega, ?_⟩
        rw [if_pos rfl, List.filter_cons_of_pos (by simp), List.range'_succ]
        rfl
      · refine ⟨n, by rw [if_neg hother], ?_⟩
        rw [if_neg hother, List.filter_cons_of_neg (by simp [Ne.symm hother])]
        rfl

/-- Of the devices that steps make from the start, those of a family have the numbers from 0 on. -/
theorem made_in_order (steps : List TreeStep) (family : String) :
    (((made {} steps).filter (·.1 == family)).map (·.2)) =
      (List.range ((run {} steps).topology.counts.count family)).map (nth family) := by
  obtain ⟨n, hcount, hmade⟩ := @made_from {} Topology.covers_empty steps family
  have hzero : ({} : DeviceTree).topology.counts.count family = 0 := rfl
  rw [hmade, hcount, hzero, Nat.zero_add, List.range_eq_range']

end DeviceTree

end GuestCompiler
