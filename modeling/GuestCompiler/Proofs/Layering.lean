import GuestCompiler.Proofs.Identities
import GuestCompiler.Proofs.NameMaps
import Mathlib.Data.List.Induction

/-!
# Layers of definitions

Laying one definition over another is associative, whatever is set in them, and a layer that lies
under a definition already adds nothing when it comes again (`Definition.layering_overlay`). Each
group of settings has these two laws because each of its fields has them.
-/
namespace GuestCompiler

/-- An operation that puts the second value below the first: layers can be taken together in any
way, and a layer below adds nothing twice. -/
structure Layering {α : Type} (op : α → α → α) : Prop where
  assoc : ∀ a b c, op (op a b) c = op a (op b c)
  again : ∀ a b, op (op a b) b = op a b

namespace Layering

variable {α : Type} {op : α → α → α}

theorem foldl_op (h : Layering op) (a b : α) (bs : List α) :
    bs.foldl op (op a b) = op a (bs.foldl op b) := by
  have hassoc : Std.Associative op := ⟨h.assoc⟩
  exact List.foldl_assoc

/-- Layers that lie below already add nothing, even all of them together. -/
theorem foldl_foldl (h : Layering op) (a : α) (bs : List α) :
    bs.foldl op (bs.foldl op a) = bs.foldl op a := by
  cases bs with
  | nil => rfl
  | cons b bs => rw [List.foldl_cons, List.foldl_cons, h.foldl_op, h.foldl_op, h.again]

end Layering

section Fields

theorem layering_pick {α : Type} (unset : α → Prop) [DecidablePred unset] :
    Layering fun a b : α => if unset a then b else a where
  assoc a b c := by by_cases ha : unset a <;> simp [ha]
  again a b := by by_cases ha : unset a <;> simp [ha]

theorem layering_orText : Layering orText := layering_pick (· = "")

theorem layering_orNumber (α : Type) [OfNat α 0] [DecidableEq α] : Layering (orNumber (α := α)) :=
  layering_pick (· = 0)

theorem layering_or : Layering or := ⟨Bool.or_assoc, fun a b => by cases a <;> cases b <;> rfl⟩

theorem NameMap.layering_fill {α : Type} : Layering (NameMap.fill (α := α)) :=
  ⟨fun _ _ _ => fill_assoc _, fun _ _ => fill_fill⟩

section Lists

variable {α κ : Type} [DecidableEq κ] {key : α → κ} {xs ys : List α}

theorem mem_map_distinctBy (key : α → κ) (xs : List α) (k : κ) :
    k ∈ (distinctBy key xs).map key ↔ k ∈ xs.map key := by
  rw [distinctBy_eq_firsts]
  induction xs with
  | nil => rfl
  | cons x xs ih =>
    by_cases hk : k = key x
    · simp [firsts, hk]
    · -- Under another key than that of the head nothing of the rest is left out.
      have hrest : k ∈ ((firsts key xs).filter fun y => key y ≠ key x).map key ↔
          k ∈ (firsts key xs).map key := by
        simp only [List.mem_map, List.mem_filter, ne_eq, decide_eq_true_eq]
        exact exists_congr fun y => and_congr_left fun hy => and_iff_left (hy ▸ hk)
      rw [firsts, List.map_cons, List.map_cons, List.mem_cons, List.mem_cons, hrest, ih]

theorem distinctBy_eq_self_iff : distinctBy key xs = xs ↔ (xs.map key).Nodup := by
  refine ⟨fun h => ?_, fun h => ?_⟩
  · rw [← h]
    exact nodup_map_distinctBy key xs
  · rw [distinctBy_eq_firsts, firsts_eq_self h]

/-- Nothing comes behind a list that has each key once, and all keys that could come. -/
theorem distinctBy_append_eq_left (hnodup : (xs.map key).Nodup)
    (hmem : ∀ y ∈ ys, key y ∈ xs.map key) : distinctBy key (xs ++ ys) = xs := by
  induction ys using List.reverseRecOn with
  | nil => rw [List.append_nil, distinctBy_eq_self_iff.2 hnodup]
  | append_singleton ys y ih =>
    obtain ⟨hys, hy⟩ := List.forall_mem_append.1 hmem
    rw [← List.append_assoc, distinctBy_concat, ih hys,
      if_pos (hy y (List.mem_singleton_self y))]

theorem mem_map_of_distinctBy_append (h : distinctBy key (xs ++ ys) = xs) {y : α} (hy : y ∈ ys) :
    key y ∈ xs.map key := by
  rw [← h, mem_map_distinctBy]
  exact List.mem_map_of_mem (List.mem_append_right xs hy)

theorem distinctBy_append_distinctBy (key : α → κ) (xs ys : List α) :
    distinctBy key (xs ++ distinctBy key ys) = distinctBy key (xs ++ ys) := by
  simp only [distinctBy_eq_firsts]
  induction xs with
  | nil => exact firsts_eq_self (nodup_map_firsts key ys)
  | cons x xs ih => rw [List.cons_append, List.cons_append, firsts, firsts, ih]

theorem layering_distinctBy (key : α → κ) :
    Layering fun xs ys : List α => distinctBy key (xs ++ ys) where
  assoc xs ys zs := by
    rw [distinctBy_append, distinctBy_append_distinctBy, List.append_assoc]
  again xs ys := by
    refine distinctBy_append_eq_left (nodup_map_distinctBy key _) fun y hy => ?_
    exact (mem_map_distinctBy ..).2 (List.mem_map_of_mem (List.mem_append_right xs hy))

end Lists

end Fields

section Groups

theorem Firmware.layering_overlay : Layering Firmware.overlay := by
  have hvolume := layering_pick fun v : Volume => v.isEmpty = true
  exact ⟨fun a b c => congrArg₂ mk (hvolume.assoc _ _ _) (hvolume.assoc _ _ _),
    fun a b => congrArg₂ mk (hvolume.again _ _) (hvolume.again _ _)⟩

theorem Cpu.layering_overlay : Layering Cpu.overlay where
  assoc a b c := by simp only [overlay, layering_orText.assoc, (layering_orNumber UInt32).assoc]
  again a b := by simp only [overlay, layering_orText.again, (layering_orNumber UInt32).again]

theorem Qmp.layering_overlay : Layering Qmp.overlay where
  assoc a b c := by
    simp only [overlay, layering_or.assoc, (layering_distinctBy (id : String → String)).assoc]
  again a b := by
    simp only [overlay, layering_or.again, (layering_distinctBy (id : String → String)).again]

theorem Agent.layering_overlay : Layering Agent.overlay where
  assoc a b c := by
    simp only [overlay, layering_or.assoc, layering_orText.assoc, (layering_orNumber UInt16).assoc]
  again a b := by
    simp only [overlay, layering_or.again, layering_orText.again, (layering_orNumber UInt16).again]

theorem Spice.layering_overlay : Layering Spice.overlay where
  assoc a b c := by
    simp only [overlay, layering_or.assoc, layering_orText.assoc, (layering_orNumber UInt16).assoc,
      (layering_orNumber UInt32).assoc]
  again a b := by
    simp only [overlay, layering_or.again, layering_orText.again, (layering_orNumber UInt16).again,
      (layering_orNumber UInt32).again]

theorem Attributes.layering_overlay : Layering Attributes.overlay where
  assoc a b c := by
    simp only [overlay, Firmware.layering_overlay.assoc, Cpu.layering_overlay.assoc,
      Qmp.layering_overlay.assoc, Agent.layering_overlay.assoc, Spice.layering_overlay.assoc,
      layering_or.assoc, (layering_orNumber UInt32).assoc]
  again a b := by
    simp only [overlay, Firmware.layering_overlay.again, Cpu.layering_overlay.again,
      Qmp.layering_overlay.again, Agent.layering_overlay.again, Spice.layering_overlay.again,
      layering_or.again, (layering_orNumber UInt32).again]

theorem Group.layering_overlay : Layering Group.overlay where
  assoc a b c := by simp only [overlay, layering_orText.assoc, (layering_orNumber UInt32).assoc]
  again a b := by simp only [overlay, layering_orText.again, (layering_orNumber UInt32).again]

end Groups

namespace Definition

theorem layering_overlay : Layering overlay where
  assoc a b c := by
    simp only [overlay, NameMap.layering_fill.assoc, Group.layering_overlay.assoc,
      Attributes.layering_overlay.assoc, (layering_distinctBy Volume.name).assoc,
      (layering_distinctBy Connection.name).assoc, (layering_distinctBy Device.name).assoc]
  again a b := by
    simp only [overlay, NameMap.layering_fill.again, Group.layering_overlay.again,
      Attributes.layering_overlay.again, (layering_distinctBy Volume.name).again,
      (layering_distinctBy Connection.name).again, (layering_distinctBy Device.name).again]

/-- The first definition over all others, with nothing above it. -/
theorem merge_cons (d : Definition) (ds : List Definition) :
    merge (d :: ds) = ({} : Definition).overlay (ds.foldl overlay d) :=
  layering_overlay.foldl_op {} d ds

theorem empty_overlay_merge (defs : List Definition) :
    ({} : Definition).overlay (merge defs) = merge defs := by
  cases defs with
  | nil => rfl
  | cons d ds => rw [merge_cons, ← layering_overlay.assoc]; rfl

theorem foldl_overlay_merge (d : Definition) (ds : List Definition) :
    ds.foldl overlay (merge (d :: ds)) = merge (d :: ds) :=
  layering_overlay.foldl_foldl _ ds

end Definition

end GuestCompiler
