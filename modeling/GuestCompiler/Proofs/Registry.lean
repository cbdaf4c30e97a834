import GuestCompiler.Host.CharDevice
import GuestCompiler.Host.Block
import GuestCompiler.Proofs.Edit

/-!
# Registries and their lists

A sound registry is its list of entries: the index answers the position of each name in the list.
Adding to one appends to the list or changes nothing, and is refused only for want of a name or
because the name is taken. A block graph has in addition every backing node before the node that it
backs.
-/
namespace GuestCompiler

open Edit

namespace Registry

variable {α : Type} [Named α]

def names (r : Registry α) : List String := r.entries.map Named.name

/-- The index gives the position of every name in the list, and no name is empty. -/
structure Sound (r : Registry α) : Prop where
  get?_index : ∀ name position,
    r.index.get? name = some position ↔ r.names[position]? = some name
  named : "" ∉ r.names

theorem sound_empty (label : String) : Sound ({ label := label } : Registry α) where
  get?_index name position := by simp [names]
  named := by simp [names]

@[simp] theorem names_insert (r : Registry α) (entry : α) :
    (r.insert entry).names = r.names ++ [Named.name entry] := by
  simp [names, insert]

@[simp] theorem length_names (r : Registry α) : r.names.length = r.entries.length :=
  List.length_map ..

theorem Sound.contains_iff {r : Registry α} (h : r.Sound) (name : String) :
    r.contains name = true ↔ name ∈ r.names := by
  rw [contains, NameMap.contains, Option.isSome_iff_exists, List.mem_iff_getElem?]
  exact exists_congr (h.get?_index name)

omit [Named α] in
theorem find?_eq_some {r : Registry α} {name : String} {entry : α} : r.find? name = some entry ↔
    ∃ position, r.index.get? name = some position ∧ r.entries[position]? = some entry :=
  Option.bind_eq_some_iff

/-- A name that stood at two positions would have both as its index. -/
theorem Sound.nodup_names {r : Registry α} (h : r.Sound) : r.names.Nodup := by
  rw [List.nodup_iff_pairwise_ne, List.pairwise_iff_getElem]
  intro i j hi hj hij heq
  have hfirst := (h.get?_index r.names[i] i).2 (List.getElem?_eq_getElem hi)
  have hsecond := (h.get?_index r.names[i] j).2 (heq ▸ List.getElem?_eq_getElem hj)
  have hpos : i = j := Option.some.inj (hfirst.symm.trans hsecond)
  omega

theorem Sound.insert {r : Registry α} (h : r.Sound) {entry : α} (hname : Named.name entry ≠ "")
    (hnew : Named.name entry ∉ r.names) : (r.insert entry).Sound where
  get?_index name position := by
    have hindex : (r.insert entry).index.get? name =
        if name = Named.name entry then some r.names.length else r.index.get? name := by
      rw [length_names]
      exact NameMap.get?_insert ..
    rw [hindex, names_insert, List.getElem?_append]
    -- The entry's own name is at the end; any other name is where it was.
    by_cases hentry : name = Named.name entry
    · subst hentry
      rw [if_pos rfl]
      split
      · rename_i hlt
        refine ⟨fun heq => ?_, fun heq => absurd (List.mem_of_getElem? heq) hnew⟩
        exact absurd (Option.some.inj heq) (by omega)
      · rename_i hge
        refine ⟨fun heq => by simp [← Option.some.inj heq], fun heq => ?_⟩
        obtain ⟨hlen, -⟩ := List.getElem?_eq_some_iff.1 heq
        rw [List.length_singleton] at hlen
        exact congrArg some (by omega)
    · rw [if_neg hentry, h.get?_index]
      split
      · rfl
      · rename_i hge
        rw [List.getElem?_eq_none (by omega)]
        refine ⟨nofun, fun heq => ?_⟩
        exact absurd (List.mem_singleton.1 (List.mem_of_getElem? heq)) hentry
  named := by
    rw [names_insert, List.mem_append, List.mem_singleton]
    rintro (hold | hentry)
    · exact h.named hold
    · exact hname hentry.symm

/-- Why a registry takes no entry of a name. -/
inductive Refusal (r : Registry α) (name : String) : Error → Prop
  | unnamed : name = "" → Refusal r name (.invalidArgument (.unnamed r.label))
  | taken : name ∈ r.names → Refusal r name (.duplicateName r.label name)

theorem meets_add {r : Registry α} (h : r.Sound) (entry : α) : Meets (add entry) r
    (fun name r' => name = Named.name entry ∧ r' = r.insert entry ∧ r'.Sound)
    (fun e r' => r' = r ∧ Refusal r (Named.name entry) e) := by
  unfold Meets add
  by_cases hname : Named.name entry = ""
  · rw [if_pos hname]
    exact ⟨rfl, .unnamed hname⟩
  · rw [if_neg hname]
    by_cases hold : r.contains (Named.name entry) = true
    · rw [if_pos hold]
      exact ⟨rfl, .taken ((h.contains_iff _).1 hold)⟩
    · rw [if_neg hold]
      exact ⟨rfl, rfl, h.insert hname fun hmem => hold ((h.contains_iff _).2 hmem)⟩

theorem Refusal.mem_of_isDuplicateName {r : Registry α} {name : String} {e : Error}
    (h : Refusal r name e) (he : e.isDuplicateName = true) : name ∈ r.names := by
  cases h with
  | unnamed _ => exact absurd he (by simp [Error.isDuplicateName, Error.root])
  | taken hmem => exact hmem

end Registry

namespace BlockGraph

/-- A sound registry in which what backs a node stands before it. -/
structure Sound (g : BlockGraph) : Prop where
  registry : Registry.Sound g
  backed : ∀ (i : Nat) node backing, g.entries[i]? = some node → node.backing? = some backing →
    backing ∈ (g.entries.take i).map BlockNode.name

theorem sound_empty : Sound .empty where
  registry := Registry.sound_empty _
  backed i node backing hnode := by simp [empty] at hnode

theorem Sound.insert {g : BlockGraph} (h : g.Sound) {node : BlockNode}
    (hr : (Registry.insert g node).Sound)
    (hbacking : ∀ backing, node.backing? = some backing → backing ∈ g.names) :
    Sound (Registry.insert g node) where
  registry := hr
  backed i other backing hother hback := by
    simp only [Registry.insert] at hother ⊢
    rcases Nat.lt_trichotomy i g.entries.length with hlt | heq | hgt
    · rw [List.getElem?_append_left hlt] at hother
      rw [List.take_append_of_le_length (Nat.le_of_lt hlt)]
      exact h.backed i other backing hother hback
    · subst heq
      rw [List.getElem?_concat_length] at hother
      rw [List.take_left]
      exact hbacking backing (Option.some.inj hother ▸ hback)
    · rw [List.getElem?_eq_none (by simp; omega)] at hother
      cases hother

/-- Why a graph takes no node. -/
inductive Refusal (g : BlockGraph) (node : BlockNode) : Error → Prop
  | unbacked (backing : String) : node.backing? = some backing → backing ∉ g.names →
    Refusal g node (.unresolved "block node" ("block node " ++ node.name) backing)
  | refused (e : Error) : Registry.Refusal g node.name e → Refusal g node e

theorem meets_add {g : BlockGraph} (h : g.Sound) (node : BlockNode) : Meets (add node) g
    (fun name g' => name = node.name ∧ g' = Registry.insert g node ∧ g'.Sound)
    (fun e g' => g' = g ∧ Refusal g node e) := by
  have hadd (hbacking : ∀ backing, node.backing? = some backing → backing ∈ g.names) :
      Meets (Registry.add node) g
        (fun name g' => name = node.name ∧ g' = Registry.insert g node ∧ BlockGraph.Sound g')
        (fun e g' => g' = g ∧ Refusal g node e) := by
    refine (Registry.meets_add h.registry node).mono ?_ fun e g' ⟨hg, hr⟩ => ⟨hg, .refused e hr⟩
    rintro name g' ⟨hname, rfl, hr⟩
    exact ⟨hname, rfl, h.insert hr hbacking⟩
  cases hback : node.backing? with
  | none =>
    have hedit : add node g = Registry.add node g := by simp only [add, hback]
    exact .congr hedit (hadd (by simp [hback]))
  | some backing =>
    by_cases hmem : backing ∈ g.names
    · have hold := (h.registry.contains_iff backing).2 hmem
      have hedit : add node g = Registry.add node g := by simp only [add, hback, hold, if_true]
      exact .congr hedit (hadd (by simpa [hback] using hmem))
    · have hnew : ¬ g.contains backing = true := fun hold =>
        hmem ((h.registry.contains_iff backing).1 hold)
      simp only [Meets, add, hback, hnew]
      exact ⟨rfl, .unbacked backing hback hmem⟩

theorem Refusal.mem_of_isDuplicateName {g : BlockGraph} {node : BlockNode} {e : Error}
    (h : Refusal g node e) (he : e.isDuplicateName = true) : node.name ∈ g.names := by
  cases h with
  | unbacked _ _ _ => exact absurd he (by simp [Error.isDuplicateName, Error.root])
  | refused _ h => exact h.mem_of_isDuplicateName he

end BlockGraph

namespace CharDevices

/-- Why a character device is not taken. -/
inductive Refusal (r : CharDevices) (d : CharDevice) : Error → Prop
  | long : CharDevice.maxId < (Text.utf8 d.id).length →
    Refusal r d (.invalidArgument (.longCharDeviceId d.id CharDevice.maxId))
  | refused (e : Error) : Registry.Refusal r d.id e → Refusal r d e

theorem meets_add {r : CharDevices} (h : r.Sound) (d : CharDevice) : Meets (add d) r
    (fun id r' => id = d.id ∧ r' = Registry.insert r d ∧ r'.Sound)
    (fun e r' => r' = r ∧ Refusal r d e) := by
  unfold Meets add
  by_cases hlong : CharDevice.maxId < (Text.utf8 d.id).length
  · rw [if_pos hlong]
    exact ⟨rfl, .long hlong⟩
  · rw [if_neg hlong]
    exact (Registry.meets_add h d).mono (fun _ _ => id) fun e r' ⟨hr, hrefused⟩ =>
      ⟨hr, .refused e hrefused⟩

theorem Refusal.mem_of_isDuplicateName {r : CharDevices} {d : CharDevice} {e : Error}
    (h : Refusal r d e) (he : e.isDuplicateName = true) : d.id ∈ r.names := by
  cases h with
  | long _ => exact absurd he (by simp [Error.isDuplicateName, Error.root])
  | refused _ h => exact h.mem_of_isDuplicateName he

end CharDevices

end GuestCompiler
