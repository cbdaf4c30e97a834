import GuestCompiler.Proofs.EmissionOrder
import GuestCompiler.Proofs.Resolved

/-!
# Names of host interfaces

The interface for a connection goes by the machine's name and the connection's, without the
characters that a kernel does not take. Connections of a guest have names of their own, but names
that differ only in such characters come to one interface (`Machine.build_interfaces`).
-/
namespace GuestCompiler

open CommandOption

namespace Connection

/-- The characters that a kernel takes in the name of an interface. -/
def isLinkChar (ch : Char) : Bool := ch != '/' && !Text.isBlank ch && !Text.isControl ch

/-- What a text comes to in the name of an interface. -/
def linkText (text : String) : String := String.ofList (text.toList.filter isLinkChar)

theorem linkName_eq (machine : String) (c : Connection) :
    c.linkName machine = linkText machine ++ "-" ++ linkText c.name := by
  apply String.toList_injective
  simp only [linkName, linkText, String.toList_ofList, String.toList_append, List.filter_append]
  rfl

theorem linkName_eq_iff {machine : String} {c c' : Connection} :
    c.linkName machine = c'.linkName machine ↔ linkText c.name = linkText c'.name := by
  rw [linkName_eq, linkName_eq, String.append_right_inj]

/-- A text of characters that a kernel takes stays as it is. -/
theorem linkText_eq_self_iff {text : String} :
    linkText text = text ↔ ∀ ch ∈ text.toList, isLinkChar ch = true := by
  rw [← List.filter_eq_self]
  constructor
  · intro h
    have hlist := congrArg String.toList h
    rwa [linkText, String.toList_ofList] at hlist
  · intro h
    rw [linkText, h, String.ofList_toList]

/-- Connections share an interface where what is left of their names is the same, and only there. -/
theorem nodup_linkName_iff (machine : String) (cs : List Connection) :
    (cs.map (linkName machine)).Nodup ↔ (cs.map fun c => linkText c.name).Nodup := by
  unfold List.Nodup
  rw [List.pairwise_map, List.pairwise_map]
  have hne (c c' : Connection) :
      linkName machine c ≠ linkName machine c' ↔ linkText c.name ≠ linkText c'.name :=
    not_congr linkName_eq_iff
  simp only [hne]

end Connection

theorem CommandOption.valuesOf_eq_rows (os : List CommandOption) (kind first name : String) :
    valuesOf os kind name = (rows os kind [first, name]).flatMap fun row => row.tail.flatten := by
  simp [valuesOf, rows, table, columns, List.flatMap_map]

namespace Machine

variable {m : Machine} {catalog : Catalog} {locations : Locations} {d : Definition} {t : Target}

theorem nodup_connections (hd : m.resolve catalog = .ok d) :
    (d.connections.map Connection.name).Nodup := by
  let merged := Definition.merge (m.fragments catalog)
  have hnames : d.connections.map Connection.name = merged.connections.map Connection.name := by
    rw [eq_of_resolve hd]
    simp [Definition.populate, merged, Function.comp_def]
  have hfirsts : merged.connections = firsts Connection.name _ :=
    Definition.firsts_merge Definition.connections (fun _ _ => rfl) rfl (m.fragments catalog)
  rw [hnames, hfirsts]
  exact nodup_map_firsts _ _

theorem ifnames_of_build (hd : m.resolve catalog = .ok d)
    (h : m.build catalog locations = .ok t) :
    valuesOf t.options "netdev" "ifname" = d.connections.map (Connection.linkName m.name) := by
  have hcarries := carries_of_build hd h
  have hrows : rows t.options "netdev" ["id", "ifname"] =
      d.connections.mapIdx fun i c => [["net." ++ toString i], [c.linkName m.name]] := by
    rw [Target.interfaceRows_options hcarries.resources.taps, d.filterMap_network?]
    rfl
  rw [valuesOf_eq_rows _ _ "id", hrows, List.mapIdx_eq_zipIdx_map, List.flatMap_map]
  conv_rhs => rw [← List.zipIdx_map_fst 0 d.connections, List.map_map]
  exact List.map_eq_flatMap.symm

/-- The interfaces are those of the connections, which have names of their own. Two connections
share an interface exactly where their names differ in no more than the characters that are left
out, so that no interface is shared unless such characters are in a name. -/
theorem build_interfaces (h : m.build catalog locations = .ok t) :
    ∃ d, m.resolve catalog = .ok d ∧ (d.connections.map Connection.name).Nodup ∧
      valuesOf t.options "netdev" "ifname" = d.connections.map (Connection.linkName m.name) ∧
      (∀ c ∈ d.connections, ∀ c' ∈ d.connections, c.linkName m.name = c'.linkName m.name ↔
        Connection.linkText c.name = Connection.linkText c'.name) ∧
      ((valuesOf t.options "netdev" "ifname").Nodup ↔
        (d.connections.map fun c => Connection.linkText c.name).Nodup) ∧
      ((∀ c ∈ d.connections, ∀ ch ∈ c.name.toList, Connection.isLinkChar ch = true) →
        (valuesOf t.options "netdev" "ifname").Nodup) := by
  obtain ⟨d, hd, -⟩ := addDefinition_of_build h
  have hnames : (d.connections.map Connection.name).Nodup := nodup_connections hd
  have hvalues := ifnames_of_build hd h
  have hiff : (valuesOf t.options "netdev" "ifname").Nodup ↔
      (d.connections.map fun c => Connection.linkText c.name).Nodup := by
    rw [hvalues]
    exact Connection.nodup_linkName_iff m.name d.connections
  refine ⟨d, hd, hnames, hvalues, fun c _ c' _ => Connection.linkName_eq_iff, hiff, ?_⟩
  intro hclean
  apply hiff.2
  -- Nothing is left out of such names, which are told apart already.
  have hsame : (d.connections.map fun c => Connection.linkText c.name) =
      d.connections.map Connection.name :=
    List.map_congr_left fun c hc => Connection.linkText_eq_self_iff.2 (hclean c hc)
  rw [hsame]
  exact hnames

end Machine

namespace Sample

/-- A machine with two connections to the one network. -/
def bridged (first second : String) : Machine where
  name := "desk"
  definition := {
    connections := [{ name := first, network := "lan" }, { name := second, network := "lan" }] }

theorem bridged_interfaces : ∃ t, (bridged "lan 0" "lan1").build host {} = .ok t ∧
    (valuesOf t.options "netdev" "ifname").Nodup := by
  have hok : ((bridged "lan 0" "lan1").build host {}).toOption.any (fun _ => true) = true := by
    decide +kernel
  have hcleaned : ((bridged "lan 0" "lan1").resolve host).toOption.any (fun d =>
      decide (d.connections.map fun c => Connection.linkText c.name).Nodup) = true := by
    decide +kernel
  obtain ⟨t, ht, -⟩ := exists_of_any hok
  obtain ⟨d, hd, -, -, -, hiff, -⟩ := Machine.build_interfaces ht
  obtain ⟨d', hd', hnodup⟩ := exists_of_any hcleaned
  cases hd.symm.trans hd'
  exact ⟨t, ht, hiff.2 (of_decide_eq_true hnodup)⟩

/-- Two connections of different names, and one interface. -/
theorem bridged_shared : ∃ d t, (bridged "lan 0" "lan0").resolve host = .ok d ∧
    d.connections.map Connection.name = ["lan 0", "lan0"] ∧
    (bridged "lan 0" "lan0").build host {} = .ok t ∧
    valuesOf t.options "netdev" "ifname" = ["desk-lan0", "desk-lan0"] := by
  have hnames : ((bridged "lan 0" "lan0").resolve host).toOption.any (fun d =>
      decide (d.connections.map Connection.name = ["lan 0", "lan0"])) = true := by decide +kernel
  have hshared : ((bridged "lan 0" "lan0").build host {}).toOption.any (fun t =>
      decide (valuesOf t.options "netdev" "ifname" = ["desk-lan0", "desk-lan0"])) = true := by
    decide +kernel
  obtain ⟨d, hd, hnames⟩ := exists_of_any hnames
  obtain ⟨t, ht, hshared⟩ := exists_of_any hshared
  exact ⟨d, t, hd, of_decide_eq_true hnames, ht, of_decide_eq_true hshared⟩

end Sample

end GuestCompiler
