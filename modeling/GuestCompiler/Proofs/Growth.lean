import GuestCompiler.Proofs.BuildRuns
import GuestCompiler.Proofs.MachineInventory

/-!
# Growing definitions

Entries at the end of a definition come last in its build, so that a build of more entries goes on
from where the build of fewer ends. What goes on only adds: nodes, character devices and interfaces
come after those that are there, and devices come among those that are there, which keep their ids
and their places (`Machine.build_grows`).
-/
namespace GuestCompiler

open Edit CommandOption

section Places

/-- What a device is and where it is, in the parameters that are written for it. -/
def Parameter.place (ps : List Parameter) : List (List String) :=
  ["driver", "id", "bus", "addr"].map (Parameter.column ps)

def TopLevel.places (d : TopLevel) : List (List (List String)) :=
  d.allParameters.map Parameter.place

def Topology.places (t : Topology) : List (List (List String)) := t.devices.flatMap TopLevel.places

namespace Topology

variable {t t' : Topology}

theorem places_of_append {more : List TopLevel} (h : t'.devices = t.devices ++ more) :
    t.places.Sublist t'.places := by
  rw [places, places, h, List.flatMap_append]
  exact List.sublist_append_left ..

theorem places_of_split {before after : List TopLevel} {d d' : TopLevel}
    (ht : t.devices = before ++ d :: after) (ht' : t'.devices = before ++ d' :: after)
    (h : d.places.Sublist d'.places) : t.places.Sublist t'.places := by
  rw [places, places, ht, ht', List.flatMap_append, List.flatMap_append, List.flatMap_cons,
    List.flatMap_cons]
  exact (List.Sublist.refl _).append (h.append (.refl _))

end Topology

/-- A port's number of uses shows in the parameters of a USB controller, but not in its place. -/
theorem Controller.place_parameters (c : Controller) (es : List Endpoint) :
    Parameter.place { c with endpoints := es }.parameters = Parameter.place c.parameters := by
  obtain ⟨kind, id, parent, _⟩ := c
  cases kind <;> simp [Parameter.place, parameters, kindParameters, Parameter.number]

theorem Controller.endpointParameters_prefix (c : Controller) (e : Endpoint) :
    c.endpointParameters <+: { c with endpoints := c.endpoints ++ [e] }.endpointParameters := by
  rw [endpointParameters, endpointParameters, List.mapIdx_append]
  exact List.prefix_append ..

/-- A change leaves all devices in their places. -/
theorem Topology.Change.places {t t' : Topology} (h : t.Change t') :
    t.places.Sublist t'.places := by
  cases h with
  | behind ht hfree hnew =>
    refine Topology.places_of_split ht rfl ?_
    simp [TopLevel.places, TopLevel.allParameters, TopLevel.downstream?, hfree,
      TopLevel.parameters, RootPort.parameters]
  | @endpoint before after port c e ht hdown hroom hplace =>
    refine Topology.places_of_split ht rfl ?_
    have hends := (c.endpointParameters_prefix e).sublist.map Parameter.place
    simpa [TopLevel.places, TopLevel.allParameters, TopLevel.downstream?, hdown,
      TopLevel.parameters, RootPort.parameters, c.place_parameters] using hends
  | _ => exact Topology.places_of_append rfl

end Places

/-- A definition with more entries than another one, none of which come before an entry of that
one. -/
structure Definition.Grows (d d' : Definition) : Prop where
  vars : d'.vars = d.vars
  group : d'.group = d.group
  attributes : d'.attributes = d.attributes
  volumes : d.volumes <+: d'.volumes
  connections : d.connections <+: d'.connections
  devices : d.devices <+: d'.devices
  last_volumes : d.connections ≠ [] ∨ d.devices ≠ [] → d'.volumes = d.volumes
  last_connections : d.devices ≠ [] → d'.connections = d.connections

namespace Definition

variable {d d' : Definition}

theorem Grows.populate (h : d.Grows d') (machine : String) (seed : Seed) :
    (d.populate machine seed).Grows (d'.populate machine seed) where
  vars := h.vars
  group := congrArg (Group.populate machine seed) h.group
  attributes := h.attributes
  volumes := h.volumes.map _
  connections := h.connections.map _
  devices := h.devices.map _
  last_volumes hlast := congrArg (List.map (Volume.populate seed)) (h.last_volumes
    (hlast.imp (mt fun hnil => congrArg _ hnil) (mt fun hnil => congrArg _ hnil)))
  last_connections hlast := congrArg (List.map (Connection.populate seed)) (h.last_connections
    (mt (fun hnil => congrArg _ hnil) hlast))

end Definition

section Steps

variable {machine : MachineInfo} {catalog : Catalog}

/-- Entries that come after all others are the last ones to be built. -/
theorem Definition.entrySteps_append {vs vs' : List Volume} {cs cs' : List Connection}
    {ds ds' : List Device} (hvs : vs' = [] ∨ cs = [] ∧ ds = []) (hcs : cs' = [] ∨ ds = []) :
    entrySteps machine catalog (vs ++ vs') (cs ++ cs') (ds ++ ds') =
      entrySteps machine catalog vs cs ds ++ entrySteps machine catalog vs' cs' ds' := by
  rcases hcs with rfl | rfl
  · rcases hvs with rfl | ⟨rfl, rfl⟩ <;> simp [entrySteps]
  · rcases hvs with rfl | ⟨rfl, -⟩ <;> simp [entrySteps]

/-- The steps of a definition that has grown go on where the steps of the other one end. -/
theorem Definition.Grows.steps {d d' : Definition} (h : d.Grows d') (machine : MachineInfo)
    (catalog : Catalog) (locations : Locations) : ∃ more,
    d'.steps machine catalog locations = d.steps machine catalog locations ++ more := by
  obtain ⟨vs, hvs⟩ := h.volumes
  obtain ⟨cs, hcs⟩ := h.connections
  obtain ⟨ds, hds⟩ := h.devices
  have hlast : vs = [] ∨ d.connections = [] ∧ d.devices = [] := by
    by_contra hnot
    have heq := h.last_volumes (by tauto)
    simp_all
  have hlast' : cs = [] ∨ d.devices = [] := by
    by_contra hnot
    have heq := h.last_connections (by tauto)
    simp_all
  refine ⟨entrySteps machine catalog vs cs ds, ?_⟩
  simp only [Definition.steps, h.attributes, h.vars, ← hvs, ← hcs, ← hds,
    entrySteps_append hlast hlast', List.append_assoc]

end Steps

/-- Options that go on from others: nodes, character devices and interfaces come after the ones that
are there, and devices come among them. -/
structure CommandOption.Continues (os os' : List CommandOption) : Prop where
  devices : (rows os "device" ["driver", "id", "bus", "addr"]).Sublist
    (rows os' "device" ["driver", "id", "bus", "addr"])
  nodes : rows os "blockdev" ["node-name"] <+: rows os' "blockdev" ["node-name"]
  charDevices : rows os "chardev" ["id"] <+: rows os' "chardev" ["id"]
  interfaces : rows os "netdev" ["id"] <+: rows os' "netdev" ["id"]

/-- What comes after some steps only adds to what is there after them. -/
theorem BuildStep.run_continues {t : Target} (ht : t.Wired) (steps : List BuildStep) :
    Yields (run steps) t fun _ t' => Continues t.options t'.options := by
  refine meets_iff.2 ⟨fun _ t' hrun => ?_, fun _ _ _ => trivial⟩
  have hgrows := ((run_wired ht.onward steps).ok hrun).grown
  have hreached := (stable_iff.1 (run_reached steps) t t.reached_self).ok hrun
  have hplaces : t.tree.topology.places.Sublist t'.tree.topology.places :=
    Topology.keeps_of_changes (P := fun top => t.tree.topology.places.Sublist top.places)
      (fun _ _ hold hchange => hold.trans hchange.places) hreached.changes (.refl _)
  refine ⟨?devices, ?nodes, ?charDevices, ?interfaces⟩
  case devices =>
    rw [t.rows_options t.device_mem_sections, t'.rows_options t'.device_mem_sections]
    rw [List.map_flatMap, List.map_flatMap]
    exact hplaces
  case nodes =>
    rw [t.rows_options t.block_mem_sections, t'.rows_options t'.block_mem_sections]
    exact (hgrows.blocks.map _).map _
  case charDevices =>
    rw [t.rows_options t.charDevice_mem_sections, t'.rows_options t'.charDevice_mem_sections]
    exact (hgrows.charDevices.map _).map _
  case interfaces =>
    rw [t.rows_options t.tap_mem_sections, t'.rows_options t'.tap_mem_sections]
    exact (hgrows.taps.map _).map _

/-- Growing the definition of a machine moves nothing that the guest had before. -/
theorem Machine.build_grows {m m' : Machine} {catalog : Catalog} {locations : Locations}
    {d d' : Definition} {t t' : Target} (hinfo : m'.info = m.info)
    (hd : m.resolve catalog = .ok d) (hd' : m'.resolve catalog = .ok d') (hgrows : d.Grows d')
    (h : m.build catalog locations = .ok t) (h' : m'.build catalog locations = .ok t') :
    CommandOption.Continues t.options t'.options := by
  obtain ⟨_, hresolve, hrun⟩ := addDefinition_of_build h
  cases hd.symm.trans hresolve
  obtain ⟨_, hresolve', hrun'⟩ := addDefinition_of_build h'
  cases hd'.symm.trans hresolve'
  obtain ⟨more, hsteps⟩ := hgrows.steps m.info catalog locations
  rw [hinfo, Build.addDefinition_eq, hsteps, BuildStep.run_append, ← Build.addDefinition_eq]
    at hrun'
  -- The longer build goes on from where the shorter one ends.
  have hcontinues : Yields (do
      Build.addDefinition m.info d catalog locations
      BuildStep.run more) {} fun _ t' => Continues t.options t'.options := by
    refine meets_bind.2 ?_
    rw [Meets, hrun]
    exact BuildStep.run_continues (wired_of_build h) more
  exact hcontinues.ok hrun'

namespace Sample

/-- The machine with something on every bus, on one network more. -/
def station : Machine := { desktop with definition := { desktop.definition with
  connections := desktop.definition.connections ++ [{ name := "eth1", network := "lan" }] } }

theorem desktop_grows : ∃ t t', desktop.build host {} = .ok t ∧ station.build host {} = .ok t' ∧
    CommandOption.Continues t.options t'.options := by
  have hgrows : (Definition.merge [desktop.definition]).Grows
      (Definition.merge [station.definition]) := by
    constructor <;> decide
  have hinfo : station.info = desktop.info := rfl
  have hd : desktop.resolve host = .ok ((Definition.merge [desktop.definition]).populate
      desktop.name desktop.info.seed) := rfl
  have hd' : station.resolve host = .ok ((Definition.merge [station.definition]).populate
      desktop.name desktop.info.seed) := rfl
  have hok : (station.build host {}).toOption.any (fun _ => true) = true := by decide +kernel
  obtain ⟨t, ht⟩ := exists_build_desktop
  obtain ⟨t', ht', -⟩ := exists_of_any hok
  exact ⟨t, t', ht, ht', Machine.build_grows hinfo hd hd' (hgrows.populate _ _) ht ht'⟩

end Sample

end GuestCompiler
