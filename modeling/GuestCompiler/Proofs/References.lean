import GuestCompiler.Proofs.Options
import GuestCompiler.Proofs.WiringBuild

/-!
# References between options

The options of a build refer to one another by name: drives to block nodes, ports and monitors to
character devices, network cards to interfaces, and so on. Every reference is to exactly one option
of the same command line, and what has to be made first, a backing node or a bus, stands before what
refers to it. This is wiring, read off the options.
-/
namespace GuestCompiler

namespace CommandOption

/-- A place for a device: the root complex, an onboard port, or the bus of a root port or of a
controller among the options before. -/
inductive BusKnown (before : List CommandOption) : String → Prop
  | rootComplex : BusKnown before "pcie.0"
  | onboard (n : Nat) : n < 6 → BusKnown before ("ide." ++ toString n)
  | rootPort (o : CommandOption) (id : String) : o ∈ before →
    o.has "device" "driver" RootPort.driver = true → o.has "device" "id" id = true →
    BusKnown before id
  | controller (o : CommandOption) (kind : ControllerKind) (id : String) : o ∈ before →
    o.has "device" "driver" kind.driver = true → o.has "device" "id" id = true →
    BusKnown before (id ++ ".0")

/-- Exactly one option of a kind has the parameter. -/
def Once (os : List CommandOption) (kind name value : String) : Prop :=
  os.countP (·.has kind name value) = 1

structure ReferencesResolve (os : List CommandOption) : Prop where
  drive : ∀ o ∈ os, ∀ v, o.has "device" "drive" v = true → Once os "blockdev" "node-name" v
  file : ∀ before o after v, os = before ++ o :: after → o.has "blockdev" "file" v = true →
    Once os "blockdev" "node-name" v ∧ ∃ o' ∈ before, o'.has "blockdev" "node-name" v = true
  charDevice : ∀ o ∈ os, ∀ kind ∈ ["mon", "tpmdev", "device"], ∀ v,
    o.has kind "chardev" v = true → Once os "chardev" "id" v
  tap : ∀ o ∈ os, ∀ v, o.has "device" "netdev" v = true → Once os "netdev" "id" v
  tpmDevice : ∀ o ∈ os, ∀ v, o.has "device" "tpmdev" v = true → Once os "tpmdev" "id" v
  thread : ∀ o ∈ os, ∀ v, o.has "device" "iothread" v = true →
    os.countP (fun o' => o'.has "object" "" "iothread" && o'.has "object" "id" v) = 1
  bus : ∀ before o after v, os = before ++ o :: after → o.has "device" "bus" v = true →
    BusKnown before v

end CommandOption

open CommandOption

/-- Parameters of a device whose references are to resources that are there. -/
structure Parameter.Resolved (r : Resources) (ps : List Parameter) : Prop where
  drive : ∀ v, ⟨"drive", v⟩ ∈ ps → v ∈ r.blocks.names
  charDevice : ∀ v, ⟨"chardev", v⟩ ∈ ps → v ∈ r.charDevices.names
  tap : ∀ v, ⟨"netdev", v⟩ ∈ ps → v ∈ r.tapIds
  tpmDevice : ∀ v, ⟨"tpmdev", v⟩ ∈ ps → v ∈ r.tpmDevices.names
  thread : ∀ v, ⟨"iothread", v⟩ ∈ ps → v ∈ r.threads.map IoThread.id

section Devices

variable {r : Resources}

theorem Endpoint.Wired.resolved {e : Endpoint} (he : e.Wired r) (driver id bus : String) :
    Parameter.Resolved r ([⟨"driver", driver⟩, ⟨"id", id⟩, ⟨"bus", bus⟩] ++ e.ownParameters) := by
  cases e <;> constructor <;>
    simp_all [Endpoint.Wired, Endpoint.ownParameters, Endpoint.scsiParameters, bootParameter,
      Parameter.number]

theorem Controller.Wired.resolved {c : Controller} (hc : c.Wired r) :
    Parameter.Resolved r c.parameters := by
  obtain ⟨kind, id, parent, endpoints⟩ := c
  have hkind := hc.kind
  cases kind with
  | scsi thread =>
    constructor <;> simp [Controller.parameters, Controller.kindParameters, Parameter.number]
    exact ⟨thread, hkind, rfl⟩
  | usb => constructor <;>
      simp [Controller.parameters, Controller.kindParameters, Parameter.number]
  | serial => constructor <;> simp [Controller.parameters, Controller.kindParameters]

theorem Downstream.Wired.resolved {d : Downstream} {port : String} (hd : d.Wired r port) :
    Parameter.Resolved r d.parameters := by
  cases d with
  | controller c => exact hd.2.resolved
  | block id bus thread drive disk =>
    obtain ⟨-, hthread, hdrive⟩ := hd
    constructor <;> simp [Downstream.parameters, bootParameter, Parameter.number, hdrive]
    exact ⟨thread, hthread, rfl⟩
  | network id bus mac tap =>
    obtain ⟨-, htap⟩ := hd
    constructor <;> simp [Downstream.parameters, htap]
  | vfio id bus path => constructor <;> simp [Downstream.parameters]

theorem TopLevel.Wired.resolved {d : TopLevel} (hd : d.Wired r) :
    Parameter.Resolved r d.parameters := by
  cases d with
  | tpm tpmDevice => constructor <;> simp_all [TopLevel.Wired, TopLevel.parameters]
  | cdrom id bus drive bootIndex =>
    obtain ⟨-, hdrive⟩ := hd
    constructor <;> simp [TopLevel.parameters, bootParameter, hdrive]
  | _ => constructor <;>
      simp [TopLevel.parameters, RootPort.parameters, PciAddress.parameters, Parameter.number]

end Devices

section Order

/-- Whatever is written for a device stands after the port that it is behind, and an endpoint also
after its controller. -/
theorem TopLevel.split_allParameters {d : TopLevel} {b a : List (List Parameter)}
    {ps : List Parameter} (h : d.allParameters = b ++ ps :: a) :
    ps = d.parameters ∨ ∃ port device, d = .rootPort port ∧ port.downstream = some device ∧
      port.parameters ∈ b ∧ (ps = device.parameters ∨
        ∃ c, device = .controller c ∧ c.parameters ∈ b ∧ ps ∈ c.endpointParameters) := by
  cases b with
  | nil => exact .inl (List.cons.inj h).1.symm
  | cons p b =>
    rw [List.cons_append] at h
    obtain ⟨rfl, htail⟩ := List.cons.inj h
    cases d with
    | rootPort port =>
      cases hdown : port.downstream with
      | none => simp [downstream?, hdown] at htail
      | some device =>
        simp only [downstream?, hdown] at htail
        refine .inr ⟨port, device, rfl, hdown, List.mem_cons_self, ?_⟩
        cases device with
        | controller c =>
          cases b with
          | nil => exact .inl (List.cons.inj htail).1.symm
          | cons q b =>
            obtain ⟨rfl, hends⟩ := List.cons.inj htail
            refine .inr ⟨c, rfl, by simp, ?_⟩
            rw [hends]
            exact List.mem_append_right _ List.mem_cons_self
        | _ =>
          have hps := List.mem_append_right b (List.mem_cons_self (a := ps) (l := a))
          rw [← htail] at hps
          exact .inl (List.mem_singleton.1 hps)
    | _ => simp [downstream?] at htail

theorem split_flatMap {α β : Type} {f : α → List β} {xs : List α} {before after : List β} {y : β}
    (h : xs.flatMap f = before ++ y :: after) :
    ∃ x ∈ xs, ∃ b a, f x = b ++ y :: a ∧ b ⊆ before := by
  induction xs generalizing before with
  | nil => simp at h
  | cons x rest ih =>
    have hrest {c : List β} (hc : rest.flatMap f = c ++ y :: after) (hsub : c ⊆ before) :
        ∃ x' ∈ x :: rest, ∃ b a, f x' = b ++ y :: a ∧ b ⊆ before := by
      obtain ⟨x', hx', b, a, hb, hbc⟩ := ih hc
      exact ⟨x', List.mem_cons_of_mem _ hx', b, a, hb, fun _ hz => hsub (hbc hz)⟩
    rw [List.flatMap_cons] at h
    -- The element is written for a later thing, or for the first one where that reaches past it.
    rcases List.append_eq_append_iff.1 h with ⟨c, rfl, hc⟩ | ⟨c, hx, hc⟩
    · exact hrest hc (List.subset_append_right _ _)
    · cases c with
      | nil => exact hrest (c := []) hc.symm (List.nil_subset _)
      | cons z c =>
        obtain ⟨rfl, -⟩ := List.cons.inj hc
        exact ⟨x, List.mem_cons_self, before, c, hx, fun _ => id⟩

end Order

section Devices

variable {r : Resources}

/-- The references of a device, of the device behind it and of that one's endpoints. -/
theorem TopLevel.Wired.resolved_all {d : TopLevel} (hd : d.Wired r) {ps : List Parameter}
    (hps : ps ∈ d.allParameters) : Parameter.Resolved r ps := by
  obtain ⟨b, a, hsplit⟩ := List.append_of_mem hps
  rcases split_allParameters hsplit with rfl | ⟨port, device, rfl, hdown, -, rfl | ⟨c, rfl, -, hc⟩⟩
  · exact hd.resolved
  · exact (hd device hdown).resolved
  · obtain ⟨n, hn, rfl⟩ := List.mem_mapIdx.1 hc
    exact ((hd _ hdown).2.endpoints _ (List.getElem_mem hn)).resolved _ _ _

theorem Downstream.Wired.bus {d : Downstream} {port v : String} (hd : d.Wired r port)
    (hv : ⟨"bus", v⟩ ∈ d.parameters) : v = port := by
  cases d with
  | controller c =>
    obtain ⟨kind, id, parent, endpoints⟩ := c
    obtain ⟨rfl, -⟩ := hd
    cases kind <;>
      simpa [Downstream.parameters, Controller.parameters, Controller.kindParameters,
        Parameter.number] using hv
  | block id bus thread drive disk =>
    obtain ⟨rfl, -⟩ := hd
    simpa [Downstream.parameters, bootParameter, Parameter.number] using hv
  | network id bus mac tap =>
    obtain ⟨rfl, -⟩ := hd
    simpa [Downstream.parameters] using hv
  | vfio id bus path =>
    cases hd
    simpa [Downstream.parameters] using hv

theorem Controller.bus_of_mem_endpointParameters {c : Controller} {ps : List Parameter}
    {v : String} (hps : ps ∈ c.endpointParameters) (hv : ⟨"bus", v⟩ ∈ ps) : v = c.bus := by
  obtain ⟨n, hn, rfl⟩ := List.mem_mapIdx.1 hps
  revert hv
  cases c.endpoints[n] <;>
    simp [Endpoint.ownParameters, Endpoint.scsiParameters, bootParameter, Parameter.number]

theorem TopLevel.Wired.bus {d : TopLevel} (hd : d.Wired r) {v : String}
    (hv : ⟨"bus", v⟩ ∈ d.parameters) (before : List CommandOption) : BusKnown before v := by
  cases d with
  | tpm tpmDevice => simp [TopLevel.parameters] at hv
  | cdrom id bus drive bootIndex =>
    obtain ⟨⟨n, hn, rfl⟩, -⟩ := hd
    have hbus : v = "ide." ++ toString n := by
      simpa [TopLevel.parameters, bootParameter] using hv
    exact hbus ▸ .onboard n hn
  | _ =>
    have hbus : v = "pcie.0" := by
      simpa [TopLevel.parameters, RootPort.parameters, PciAddress.parameters,
        Parameter.number] using hv
    exact hbus ▸ .rootComplex

/-- The bus of whatever is written for a device is known from what is written before it. -/
theorem TopLevel.Wired.bus_all {d : TopLevel} (hd : d.Wired r) {b a : List (List Parameter)}
    {ps : List Parameter} (hsplit : d.allParameters = b ++ ps :: a) {v : String}
    (hv : ⟨"bus", v⟩ ∈ ps) {before : List CommandOption}
    (hb : ∀ ps ∈ b, ⟨"device", ps⟩ ∈ before) : BusKnown before v := by
  rcases split_allParameters hsplit with
    rfl | ⟨port, device, rfl, hdown, hport, rfl | ⟨c, rfl, hmem, hends⟩⟩
  · exact hd.bus hv before
  · rw [(hd device hdown).bus hv]
    refine .rootPort _ port.id (hb _ hport) ?_ ?_ <;> simp [has, RootPort.parameters]
  · rw [Controller.bus_of_mem_endpointParameters hends hv]
    refine .controller _ c.kind c.id (hb _ hmem) ?_ ?_ <;> simp [has, Controller.parameters]

end Devices

section Definitions

/-- Of options that are written for things of different ids, one has the id of one of the things. -/
theorem countP_ids {α : Type} {xs : List α} {id : α → String} (hxs : (xs.map id).Nodup)
    {v : String} (hv : v ∈ xs.map id) {write : α → List Parameter} {p : List Parameter → Bool}
    (hp : ∀ x, p (write x) = true ↔ id x = v) : (xs.map write).countP p = 1 := by
  have hcount : (xs.map write).countP p = (xs.map id).count v := by
    rw [List.count, List.countP_map, List.countP_map]
    refine List.countP_congr fun x _ => ?_
    simp only [Function.comp_apply, hp, beq_iff_eq]
  rw [hcount, hxs.count, if_pos hv]

theorem NodeFlags.mem_parameters {f : NodeFlags} {p : Parameter} (h : p ∈ f.parameters) :
    p.name ∈ ["read-only", "cache.direct", "cache.no-flush", "discard", "detect-zeroes"] := by
  obtain ⟨readOnly, cacheDirect, cacheNoFlush, discard, detectZeroes⟩ := f
  simp only [parameters, List.mem_append, Parameter.mem_switch, List.mem_ite_nil_right,
    List.mem_singleton] at h
  rcases h with (((⟨-, rfl⟩ | ⟨-, rfl⟩) | ⟨-, rfl⟩) | ⟨-, rfl⟩) | h
  case inr =>
    cases detectZeroes with
    | off => cases h
    | _ => simp [List.mem_singleton.1 h]
  all_goals simp

theorem BlockNode.mem_parameters_nodeName {node : BlockNode} {v : String} :
    ⟨"node-name", v⟩ ∈ node.parameters ↔ node.name = v := by
  have hflags (f : NodeFlags) : ⟨"node-name", v⟩ ∉ f.parameters := fun h =>
    absurd (NodeFlags.mem_parameters h) (by simp)
  cases node <;> simp [parameters, hflags, eq_comm]

theorem BlockNode.backing?_of_mem_parameters {node : BlockNode} {v : String}
    (h : ⟨"file", v⟩ ∈ node.parameters) : node.backing? = some v := by
  have hflags (f : NodeFlags) : ⟨"file", v⟩ ∉ f.parameters := fun h =>
    absurd (NodeFlags.mem_parameters h) (by simp)
  revert h
  cases node <;> simp [parameters, backing?, hflags, eq_comm]

theorem CharDevice.mem_parameters_id {d : CharDevice} {v : String} :
    ⟨"id", v⟩ ∈ d.parameters ↔ d.id = v := by
  rw [eq_comm]
  cases d <;> simp [parameters, Parameter.bare, Parameter.number]

theorem TpmDevice.mem_parameters_id {d : TpmDevice} {v : String} :
    ⟨"id", v⟩ ∈ d.parameters ↔ d.id = v := by
  rw [eq_comm]
  cases d <;> simp [parameters, Parameter.bare]

theorem TpmDevice.eq_emulated_of_mem_parameters {d : TpmDevice} {v : String}
    (h : ⟨"chardev", v⟩ ∈ d.parameters) : d = .emulated d.id v := by
  cases d with
  | passthrough id path cancelPath => simp [parameters, Parameter.bare] at h
  | emulated id charDevice =>
    have hv : v = charDevice := by simpa [parameters, Parameter.bare] using h
    rw [hv, TpmDevice.id]

theorem Tap.mem_parameters_id {tap : Tap} {v : String} :
    ⟨"id", v⟩ ∈ tap.parameters ↔ tap.id = v := by
  rw [eq_comm]
  simp [parameters, Parameter.bare]

end Definitions

namespace Target

variable {t : Target} {v : String}

theorem once_of_section {α : Type} {xs : List α} {id : α → String} {write : α → List Parameter}
    {kind name : String} (hsection : (kind, xs.map write) ∈ t.sections) (hxs : (xs.map id).Nodup)
    (hid : ∀ x, ⟨name, v⟩ ∈ write x ↔ id x = v) (hv : v ∈ xs.map id) :
    Once t.options kind name v := by
  refine (countP_options hsection _).trans (countP_ids hxs hv fun x => ?_)
  rw [List.contains_iff_mem]
  exact hid x

theorem Wired.once_block (ht : t.Wired) (hv : v ∈ t.resources.blocks.names) :
    Once t.options "blockdev" "node-name" v :=
  once_of_section t.block_mem_sections ht.resources.blocks.registry.nodup_names
    (fun _ => BlockNode.mem_parameters_nodeName) hv

theorem Wired.once_charDevice (ht : t.Wired) (hv : v ∈ t.resources.charDevices.names) :
    Once t.options "chardev" "id" v :=
  once_of_section t.charDevice_mem_sections ht.resources.charDevices.nodup_names
    (fun _ => CharDevice.mem_parameters_id) hv

theorem Wired.once_tpmDevice (ht : t.Wired) (hv : v ∈ t.resources.tpmDevices.names) :
    Once t.options "tpmdev" "id" v :=
  once_of_section t.tpmDevice_mem_sections ht.resources.tpmDevices.nodup_names
    (fun _ => TpmDevice.mem_parameters_id) hv

theorem Wired.once_tap (ht : t.Wired) (hv : v ∈ t.resources.tapIds) :
    Once t.options "netdev" "id" v := by
  have hnodup : t.resources.tapIds.Nodup := by
    rw [ht.resources.taps]
    exact nodup_numbered _ _
  exact once_of_section t.tap_mem_sections hnodup (fun _ => Tap.mem_parameters_id) hv

theorem Wired.once_thread (ht : t.Wired) (hv : v ∈ t.resources.threads.map IoThread.id) :
    t.options.countP (fun o => o.has "object" "" "iothread" && o.has "object" "id" v) = 1 := by
  have hnodup : (t.resources.threads.map IoThread.id).Nodup := by
    rw [ht.resources.threads, List.map_map]
    exact nodup_numbered _ _
  have hone := (countP_options t.thread_mem_sections fun ps =>
    ps.contains ⟨"", "iothread"⟩ && ps.contains ⟨"id", v⟩).trans
      (countP_ids hnodup hv fun thread => by simp [Parameter.bare, eq_comm (a := v)])
  rw [← hone]
  refine List.countP_congr fun o _ => ?_
  simp only [has, Bool.and_eq_true]
  constructor
  · rintro ⟨⟨hkind, hbare⟩, -, hid⟩
    exact ⟨hkind, hbare, hid⟩
  · rintro ⟨hkind, hbare, hid⟩
    exact ⟨⟨hkind, hbare⟩, hkind, hid⟩

theorem Wired.resolved_of_mem_options (ht : t.Wired) {o : CommandOption} (ho : o ∈ t.options)
    (hkind : o.kind = "device") : Parameter.Resolved t.resources o.parameters := by
  obtain ⟨d, hd, hps⟩ := List.mem_flatMap.1 (mem_section t.device_mem_sections ho hkind)
  exact (ht.topology d hd).resolved_all hps

/-- A backing node is written before the nodes that it backs. -/
theorem Wired.file_before (ht : t.Wired) {before after : List CommandOption} {o : CommandOption}
    (hsplit : t.options = before ++ o :: after) (hv : o.has "blockdev" "file" v = true) :
    v ∈ t.resources.blocks.names ∧ ∃ o' ∈ before, o'.has "blockdev" "node-name" v = true := by
  obtain ⟨hkind, hfile⟩ := has_iff.1 hv
  obtain ⟨b, a, hnodes, hb⟩ := split_section t.block_mem_sections hsplit hkind
  obtain ⟨nodes, rest, hentries, rfl, hrest⟩ := List.map_eq_append_iff.1 hnodes
  obtain ⟨node, later, rfl, hnode, -⟩ := List.map_eq_cons_iff.1 hrest
  -- Nodes are written in the order in which they were added, and none before what backs it.
  have hbacking := BlockNode.backing?_of_mem_parameters (hnode ▸ hfile)
  have hmem := ht.resources.blocks.backed nodes.length node v (by simp [hentries]) hbacking
  rw [hentries, List.take_left] at hmem
  obtain ⟨backing, hbackingMem, rfl⟩ := List.mem_map.1 hmem
  refine ⟨?_, ⟨"blockdev", backing.parameters⟩, hb _ (List.mem_map.2 ⟨backing, hbackingMem, rfl⟩),
    has_iff.2 ⟨rfl, BlockNode.mem_parameters_nodeName.2 rfl⟩⟩
  rw [Registry.names, hentries, List.map_append]
  exact List.mem_append_left _ hmem

theorem Wired.mem_charDevices (ht : t.Wired) {o : CommandOption} (ho : o ∈ t.options)
    {kind : String} (hkind : kind ∈ ["mon", "tpmdev", "device"])
    (hv : o.has kind "chardev" v = true) : v ∈ t.resources.charDevices.names := by
  obtain ⟨rfl, hmem⟩ := has_iff.1 hv
  simp only [List.mem_cons, List.not_mem_nil, or_false] at hkind
  rcases hkind with hkind | hkind | hkind
  · obtain ⟨m, hm, rfl⟩ := monitor_of_mem_options ho hkind
    have hv' : v = m.charDevice := by simpa [Guest.Monitor.parameters, Parameter.flag] using hmem
    exact hv' ▸ ht.monitors m hm
  · obtain ⟨d, hd, hps⟩ := List.mem_map.1 (mem_section t.tpmDevice_mem_sections ho hkind)
    have hd' := TpmDevice.eq_emulated_of_mem_parameters (hps ▸ hmem)
    exact ht.resources.bound d.id v (hd' ▸ hd)
  · exact (ht.resolved_of_mem_options ho hkind).charDevice v hmem

theorem Wired.bus_known (ht : t.Wired) {before after : List CommandOption} {o : CommandOption}
    (hsplit : t.options = before ++ o :: after) (hv : o.has "device" "bus" v = true) :
    BusKnown before v := by
  obtain ⟨hkind, hbus⟩ := has_iff.1 hv
  obtain ⟨b, a, hdevices, hb⟩ := split_section t.device_mem_sections hsplit hkind
  obtain ⟨d, hd, front, back, hall, hsub⟩ := split_flatMap hdevices
  exact (ht.topology d hd).bus_all hall hbus fun ps hps => hb ps (hsub hps)

/-- The references of a wired target are resolved by its own options. -/
theorem Wired.referencesResolve (ht : t.Wired) : ReferencesResolve t.options where
  drive o ho v hv := by
    obtain ⟨hkind, hmem⟩ := has_iff.1 hv
    exact ht.once_block ((ht.resolved_of_mem_options ho hkind).drive v hmem)
  file before o after v hsplit hv := by
    obtain ⟨hmem, hbefore⟩ := ht.file_before hsplit hv
    exact ⟨ht.once_block hmem, hbefore⟩
  charDevice o ho kind hkind v hv := ht.once_charDevice (ht.mem_charDevices ho hkind hv)
  tap o ho v hv := by
    obtain ⟨hkind, hmem⟩ := has_iff.1 hv
    exact ht.once_tap ((ht.resolved_of_mem_options ho hkind).tap v hmem)
  tpmDevice o ho v hv := by
    obtain ⟨hkind, hmem⟩ := has_iff.1 hv
    exact ht.once_tpmDevice ((ht.resolved_of_mem_options ho hkind).tpmDevice v hmem)
  thread o ho v hv := by
    obtain ⟨hkind, hmem⟩ := has_iff.1 hv
    exact ht.once_thread ((ht.resolved_of_mem_options ho hkind).thread v hmem)
  bus before o after v hsplit hv := ht.bus_known hsplit hv

end Target

namespace Machine

/-- Whatever an option of a build refers to is in the options of that build, once, and before it
where it has to be made before. -/
theorem build_references_resolve {m : Machine} {catalog : Catalog} {locations : Locations}
    {t : Target} (h : m.build catalog locations = .ok t) : ReferencesResolve t.options :=
  (wired_of_build h).referencesResolve

end Machine

namespace Sample

theorem desktop_references_resolve :
    ∃ t, desktop.build host {} = .ok t ∧ ReferencesResolve t.options :=
  let ⟨t, h⟩ := exists_build_desktop
  ⟨t, h, Machine.build_references_resolve h⟩

end Sample

end GuestCompiler
