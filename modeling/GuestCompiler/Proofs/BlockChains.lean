import GuestCompiler.Host.Resources
import GuestCompiler.Proofs.RegistryRuns

/-!
# Chains of block nodes

Nodes come into a graph one after the other, refused ones among them, and what backs a node has come
before it. So the nodes that back a node, the ones that back those and so on go towards the front of
the graph, in which order the options are written, and end at a node that gives access to the host:
no node backs itself, directly or through others (`BlockGraph.run_layered`).
-/
namespace GuestCompiler.BlockGraph

open Edit

/-- The graph that was to take some nodes, refused ones among them. -/
def run (nodes : List BlockNode) : BlockGraph :=
  nodes.foldl (fun g node => Edit.state (add node g)) .empty

/-- The node behind a node. -/
def behind? (g : BlockGraph) (node : BlockNode) : Option BlockNode :=
  node.backing?.bind g.find?

/-- What is reached from a node in some steps to the one behind. -/
def follow? (g : BlockGraph) : Nat → BlockNode → Option BlockNode
  | 0, node => some node
  | steps + 1, node => (g.behind? node).bind (follow? g steps)

theorem Sound.state_add {g : BlockGraph} (h : g.Sound) (node : BlockNode) :
    (Edit.state (add node g)).Sound := by
  refine (meets_add h node).state ?_ ?_
  · rintro name g' ⟨-, -, hsound⟩
    exact hsound
  · rintro e g' ⟨rfl, -⟩
    exact h

theorem sound_run (nodes : List BlockNode) : (run nodes).Sound := by
  have hrun {g : BlockGraph} (h : g.Sound) :
      (nodes.foldl (fun g node => Edit.state (add node g)) g).Sound := by
    induction nodes generalizing g with
    | nil => exact h
    | cons node nodes ih => exact ih (h.state_add node)
  exact hrun sound_empty

section Chains

variable {g : BlockGraph} {i : Nat} {node other : BlockNode}

/-- A node is found by its name. -/
theorem Sound.find?_name (h : g.Sound) (hi : g.entries[i]? = some node) :
    g.find? node.name = some node :=
  (h.registry.find?_eq node.name).trans
    (find?_of_mem_of_nodup h.registry.nodup_names (List.mem_of_getElem? hi))

/-- What backs a node is there, and nearer to the front. -/
theorem Sound.exists_behind (h : g.Sound) (hi : g.entries[i]? = some node) {backing : String}
    (hback : node.backing? = some backing) : ∃ j < i, ∃ other, g.entries[j]? = some other ∧
      other.name = backing ∧ g.behind? node = some other := by
  obtain ⟨other, hother, rfl⟩ := List.mem_map.1 (h.backed i node backing hi hback)
  obtain ⟨j, hj⟩ := List.getElem?_of_mem hother
  rw [List.getElem?_take] at hj
  split at hj
  · rename_i hlt
    exact ⟨j, hlt, other, hj, rfl, by rw [behind?, hback, Option.bind_some, h.find?_name hj]⟩
  · cases hj

/-- Every step goes towards the front. -/
theorem Sound.follow?_position (h : g.Sound) {steps : Nat} (hi : g.entries[i]? = some node)
    (hother : g.follow? steps node = some other) :
    ∃ j, j + steps ≤ i ∧ g.entries[j]? = some other := by
  induction steps generalizing i node with
  | zero =>
    rw [follow?, Option.some_inj] at hother
    subst hother
    exact ⟨i, Nat.le_refl _, hi⟩
  | succ steps ih =>
    rw [follow?, Option.bind_eq_some_iff] at hother
    obtain ⟨next, hnext, hother⟩ := hother
    cases hback : node.backing? with
    | none => rw [behind?, hback] at hnext; cases hnext
    | some backing =>
      obtain ⟨j, hlt, next', hj, -, hnext'⟩ := h.exists_behind hi hback
      rw [hnext', Option.some_inj] at hnext
      subst hnext
      obtain ⟨k, hk, hget⟩ := ih hj hother
      exact ⟨k, by omega, hget⟩

/-- By induction on the position: a node without one behind it is the end, and otherwise the chain
of the node behind is shorter. -/
theorem Sound.exists_end (h : g.Sound) (hi : g.entries[i]? = some node) :
    ∃ steps ≤ i, ∃ last ∈ g.entries, g.follow? steps node = some last ∧ last.backing? = none := by
  induction i using Nat.strongRecOn generalizing node with
  | ind i ih =>
    cases hback : node.backing? with
    | none => exact ⟨0, Nat.zero_le _, node, List.mem_of_getElem? hi, rfl, hback⟩
    | some backing =>
      obtain ⟨j, hlt, next, hj, -, hnext⟩ := h.exists_behind hi hback
      obtain ⟨steps, hsteps, last, hlast, hfollow, hend⟩ := ih j hlt hj
      refine ⟨steps + 1, by omega, last, hlast, ?_, hend⟩
      rw [follow?, hnext, Option.bind_some, hfollow]

/-- A node that came after itself would be at two positions. -/
theorem Sound.follow?_ne_self (h : g.Sound) (hi : g.entries[i]? = some node) (steps : Nat) :
    g.follow? (steps + 1) node ≠ some node := by
  intro hself
  obtain ⟨j, hj, hget⟩ := h.follow?_position hi hself
  have hfirst := List.getElem?_eq_some_iff.1 hget
  obtain ⟨hlt, -⟩ := hfirst
  have hsame : g.names[j]? = g.names[i]? := by
    rw [Registry.names, List.getElem?_map, List.getElem?_map, hget, hi]
  have hpos : j = i :=
    (List.getElem?_inj (by rw [Registry.length_names]; exact hlt) h.registry.nodup_names).1 hsame
  omega

theorem Sound.refused_iff (h : g.Sound) (node : BlockNode) :
    (∃ e g', add node g = .error e g') ↔
      (∃ backing, node.backing? = some backing ∧ backing ∉ g.names) ∨ node.name = "" ∨
        node.name ∈ g.names := by
  refine (meets_add h node).refused_iff ?_ ?_
  · rintro name g' ⟨-, rfl, hsound⟩ (⟨backing, hback, hmissing⟩ | hname)
    · have hmem := hsound.backed g.entries.length node backing (by simp [Registry.insert]) hback
      rw [Registry.insert, List.take_left] at hmem
      exact hmissing hmem
    · exact hsound.registry.new_of_insert hname
  · rintro e g' ⟨-, hrefusal⟩
    cases hrefusal with
    | unbacked backing hback hmissing => exact .inl ⟨backing, hback, hmissing⟩
    | refused _ hregistry => exact .inr hregistry.reason

theorem follow?_succ (g : BlockGraph) (steps : Nat) (node : BlockNode) :
    g.follow? (steps + 1) node = (g.follow? steps node).bind g.behind? := by
  induction steps generalizing node with
  | zero => simp [follow?]
  | succ steps ih =>
    rw [follow?, follow?, Option.bind_assoc]
    exact Option.bind_congr fun next _ => ih next

end Chains

theorem driver_of_backing?_eq_none {node : BlockNode} (h : node.backing? = none) :
    node.driver = "file" ∨ node.driver = "vvfat" := by
  cases node with
  | file _ _ _ => exact .inl rfl
  | directory _ _ _ _ => exact .inr rfl
  | raw _ _ _ => cases h

/-- The options of a graph's nodes are those of its order. -/
theorem blockdevs_options (r : Resources) : r.options.filter (·.kind = "blockdev") =
    r.blocks.entries.map fun node => ⟨"blockdev", node.parameters⟩ := by
  simp [Resources.options, List.filter_map, Function.comp_def]

/-- A graph whose nodes go back to the host, each to one that stands before it. -/
structure Layered (g : BlockGraph) : Prop where
  earlier : ∀ (i : Nat) node backing, g.entries[i]? = some node → node.backing? = some backing →
    ∃ j < i, ∃ other, g.entries[j]? = some other ∧ other.name = backing ∧
      g.behind? node = some other
  ends : ∀ node ∈ g.entries, ∃ steps, ∃ last ∈ g.entries, g.follow? steps node = some last ∧
    (last.driver = "file" ∨ last.driver = "vvfat") ∧ g.follow? (steps + 1) node = none
  acyclic : ∀ node ∈ g.entries, ∀ steps, g.follow? (steps + 1) node ≠ some node
  refused : ∀ node, (∃ e g', add node g = .error e g') ↔
    (∃ backing, node.backing? = some backing ∧ backing ∉ g.names) ∨ node.name = "" ∨
      node.name ∈ g.names
  unchanged : ∀ node e g', add node g = .error e g' → g' = g ∧ Refusal g node e
  added : ∀ node name g', add node g = .ok name g' →
    name = node.name ∧ g'.entries = g.entries ++ [node]
  written : ∀ r : Resources, r.blocks = g → r.options.filter (·.kind = "blockdev") =
    g.entries.map fun node => ⟨"blockdev", node.parameters⟩

theorem Sound.layered {g : BlockGraph} (h : g.Sound) : g.Layered where
  earlier _ _ _ hi hback := h.exists_behind hi hback
  ends node hnode := by
    obtain ⟨i, hi⟩ := List.getElem?_of_mem hnode
    obtain ⟨steps, -, last, hlast, hfollow, hend⟩ := h.exists_end hi
    refine ⟨steps, last, hlast, hfollow, driver_of_backing?_eq_none hend, ?_⟩
    rw [follow?_succ, hfollow, Option.bind_some, behind?, hend, Option.bind_none]
  acyclic node hnode := by
    obtain ⟨i, hi⟩ := List.getElem?_of_mem hnode
    exact h.follow?_ne_self hi
  refused := h.refused_iff
  unchanged node _ _ hadd := (meets_add h node).error hadd
  added node name g' hadd := by
    obtain ⟨hname, rfl, -⟩ := (meets_add h node).ok hadd
    exact ⟨hname, rfl⟩
  written r hr := hr ▸ blockdevs_options r

/-- After any nodes, refused ones among them, the graph has every node after the one behind it, so
that all chains end at the host and none comes back to where it began. -/
theorem run_layered (nodes : List BlockNode) : (run nodes).Layered := (sound_run nodes).layered

/-- A node that names itself, and one that comes before what backs it, are refused. -/
example : (run [.raw "disk" "disk" {}, .raw "top" "disk" {}, .file "disk" ⟨"/disk.img"⟩ {},
    .raw "top" "disk" {}, .raw "over" "top" {}]).names = ["disk", "top", "over"] := by decide

end GuestCompiler.BlockGraph
