import GuestCompiler.Proofs.Devices
import GuestCompiler.Proofs.OptionShape

/-!
# Targets without commas

A target is plain when no value that it would be written with has a comma. Edits of its settings,
resources and devices keep it so, given texts without commas.
-/
namespace GuestCompiler

open Edit Parameter

/-- No value has a comma. -/
abbrev Parameter.AllPlain (ps : List Parameter) : Prop := Each (fun p => NoComma p.value) ps

section Devices

structure Controller.Plain (c : Controller) : Prop where
  id : NoComma c.id
  parent : NoComma c.parent
  endpoints : ∀ e ∈ c.endpoints, AllPlain e.ownParameters

def Downstream.Plain : Downstream → Prop
  | .controller c => c.Plain
  | d => AllPlain d.parameters

structure RootPort.Plain (p : RootPort) : Prop where
  id : NoComma p.id
  downstream : ∀ d, p.downstream = some d → d.Plain

def TopLevel.Plain : TopLevel → Prop
  | .rootPort p => p.Plain
  | d => AllPlain d.parameters

def Topology.Plain (t : Topology) : Prop := ∀ d ∈ t.devices, d.Plain

@[simp] theorem plain_bootParameter (bootIndex : Option Nat) :
    AllPlain (bootParameter bootIndex) := by
  simp [bootParameter]

@[simp] theorem PciAddress.plain_parameters (a : PciAddress) : AllPlain a.parameters := by
  simp (disch := decide) [parameters, noComma_literal]

@[simp] theorem IoThread.noComma_id (t : IoThread) : NoComma t.id := by
  simp (disch := decide) [id, noComma_literal]

theorem RootPort.Plain.parameters {p : RootPort} (h : p.Plain) : AllPlain p.parameters := by
  simp (disch := decide) [RootPort.parameters, driver, h.id, noComma_literal]

theorem Controller.Plain.parameters {c : Controller} (h : c.Plain) : AllPlain c.parameters := by
  simp only [Controller.parameters, kindParameters, each_append, each_cons, each_nil, and_true]
  refine ⟨⟨?_, h.id, h.parent⟩, ?_⟩
  · cases c.kind <;> simp (disch := decide) [ControllerKind.driver, noComma_literal]
  · cases c.kind <;> simp

theorem Controller.Plain.endpointParameters {c : Controller} (h : c.Plain) :
    ∀ ps ∈ c.endpointParameters, AllPlain ps := by
  intro ps hps
  obtain ⟨i, hi, rfl⟩ := List.mem_mapIdx.1 hps
  have hdriver : NoComma c.endpoints[i].driver := by
    cases c.endpoints[i] <;> simp (disch := decide) [Endpoint.driver, noComma_literal]
  have hown := h.endpoints _ (List.getElem_mem hi)
  simp (disch := decide) [endpointId, bus, hdriver, hown, h.id, noComma_literal]

theorem TopLevel.Plain.allParameters {d : TopLevel} (h : d.Plain) :
    ∀ ps ∈ d.allParameters, AllPlain ps := by
  simp only [TopLevel.allParameters, List.forall_mem_cons]
  cases d with
  | rootPort p =>
    refine ⟨RootPort.Plain.parameters h, ?_⟩
    simp only [downstream?]
    cases hdown : p.downstream with
    | none => exact List.forall_mem_nil _
    | some device =>
      have hdevice := h.downstream device hdown
      cases device with
      | controller c =>
        exact List.forall_mem_cons.2 ⟨Controller.Plain.parameters hdevice,
          Controller.Plain.endpointParameters hdevice⟩
      | _ => exact List.forall_mem_singleton.2 hdevice
  | _ => exact ⟨h, List.forall_mem_nil _⟩

end Devices

section Edits

theorem Controller.attach_plain (family : String) {make : Nat → Endpoint}
    (hmake : ∀ n, AllPlain (make n).ownParameters) : Stable Plain (attach family make) := by
  refine stable_iff.2 fun c hc => Meets.imp (meets_attach family make c).yields ?_
  rintro _ c' ⟨-, -, -, rfl⟩
  have hendpoints := List.forall_mem_append.2
    ⟨hc.endpoints, List.forall_mem_singleton.2 (hmake c.endpoints.length)⟩
  exact { hc with endpoints := hendpoints }

theorem FamilyCounts.noComma_next (c : FamilyCounts) {family : String} (h : NoComma family) :
    NoComma (c.next family) := by
  simp (disch := decide) [next, h, noComma_literal]

namespace Topology

theorem addFunction_plain {α : Type} {make : Topology → TopLevel × FamilyCounts × α}
    (hmake : ∀ t, (make t).1.Plain) : Stable Plain (addFunction make) :=
  stable_iff.2 fun t ht => All.addFunction ht (hmake t)

theorem addRoot_plain : Stable Plain addRoot := by
  refine addFunction_plain fun t => ?_
  have hid : NoComma ("pcie." ++ (PciAddress.ofIndex t.functions).text) := by
    simp (disch := decide) [noComma_literal]
  exact { id := hid, downstream := nofun }

theorem addPanic_plain : Stable Plain addPanic := by
  refine addFunction_plain fun t => ?_
  have hid : NoComma (t.counts.next "panic") := t.counts.noComma_next (by decide)
  simp (disch := decide) [TopLevel.Plain, TopLevel.parameters, hid, noComma_literal]

theorem addDisplay_plain : Stable Plain addDisplay := by
  refine addFunction_plain fun t => ?_
  have hid : NoComma (t.counts.next "qxl") := t.counts.noComma_next (by decide)
  simp (disch := decide) [TopLevel.Plain, TopLevel.parameters, hid, noComma_literal]

theorem addTpm_plain {tpmDevice : String} (h : NoComma tpmDevice) :
    Stable Plain (addTpm tpmDevice) := by
  have hdevice : (TopLevel.tpm tpmDevice).Plain := by
    simp (disch := decide) [TopLevel.Plain, TopLevel.parameters, h, noComma_literal]
  exact stable_iff.2 fun t ht => All.addTpm ht hdevice

theorem addCdrom_plain {drive : String} (h : NoComma drive) (bootIndex : Option Nat) :
    Stable Plain (addCdrom drive bootIndex) := by
  refine stable_iff.2 fun t ht => All.addCdrom ht fun _ => ?_
  have hid : NoComma (t.counts.next "sata") := t.counts.noComma_next (by decide)
  simp (disch := decide) [TopLevel.Plain, TopLevel.parameters, hid, h, noComma_literal]

theorem attach_plain (root : RootPortRef) {family : String} (hfamily : NoComma family)
    {make : String → String → Downstream}
    (hmake : ∀ id port, NoComma id → NoComma port → (make id port).Plain) :
    Stable Plain (attach root family make) := by
  refine stable_iff.2 fun t ht => All.attach ht root family fun port hport => ?_
  refine { id := hport.id, downstream := ?_ }
  rintro d' ⟨⟩
  exact hmake _ port.id (t.counts.noComma_next hfamily) hport.id

theorem onController_plain {α : Type} (c : ControllerRef) {edit : Edit Error Controller α}
    (hedit : Stable Controller.Plain edit) : Stable Plain (onController c edit) := by
  refine stable_iff.2 fun t ht => All.onController ht c fun port controller hport hdown => ?_
  refine Meets.imp (hedit controller (hport.downstream _ hdown)) fun _ c' ⟨hc', _⟩ => ?_
  refine { id := hport.id, downstream := ?_ }
  rintro d' ⟨⟩
  exact hc'

end Topology

namespace DeviceTree

def Plain (t : DeviceTree) : Prop := t.topology.Plain

theorem onTopology_plain {α : Type} {edit : Edit Error Topology α}
    (h : Stable Topology.Plain edit) : Stable Plain (onTopology edit) :=
  .within (fun _ ht => ht) (fun _ _ _ hs => hs) h

theorem shared_plain {known : DeviceTree → Option ControllerRef}
    {remember : ControllerRef → DeviceTree → DeviceTree} (kind : ControllerKind)
    (hremember : ∀ c t, (remember c t).topology = t.topology) :
    Stable Plain (shared known remember kind) := by
  have hfamily : NoComma kind.family := by
    cases kind <;> simp (disch := decide) [ControllerKind.family, noComma_literal]
  refine shared_stable Topology.addRoot_plain (fun root => ?_) hremember
  refine .map (Topology.attach_plain root hfamily ?_)
  intro id port hid hport
  exact { id := hid, parent := hport, endpoints := List.forall_mem_nil _ }

theorem serialController_plain : Stable Plain serialController :=
  shared_plain .serial fun _ _ => rfl

theorem usbController_plain : Stable Plain usbController :=
  shared_plain .usb fun _ _ => rfl

theorem scsiController_plain (thread : IoThread) : Stable Plain (scsiController thread) :=
  shared_plain (.scsi thread) fun _ _ => rfl

end DeviceTree

end Edits

/-- What of the settings comes from outside has no comma. -/
structure Guest.Settings.Plain (s : Guest.Settings) : Prop where
  name : NoComma s.identity.name
  code : ∀ node, s.firmware.code = some node → NoComma node
  vars : ∀ node, s.firmware.vars = some node → NoComma node
  monitors : ∀ m ∈ s.monitors, NoComma m.charDevice
  address : NoComma s.spice.address
  globals : ∀ g ∈ s.globals, AllPlain g.parameters

theorem Guest.Settings.Plain.options {s : Guest.Settings} (hs : s.Plain) :
    ∀ o ∈ s.options, AllPlain o.parameters := by
  intro o ho
  cases writes_of_mem_options ho with
  | id id => simp
  | name hname => simp [Identity.nameOption, hs.name]
  | bare kind => exact each_nil
  | machine =>
    simp only [Firmware.parameters, Spice.machineParameters]
    cases hcode : s.firmware.code with
    | none => simp (disch := decide) [noComma_literal]
    | some code =>
      have hplain := hs.code code hcode
      simpa (disch := decide) [noComma_literal, hplain] using hs.vars
  | processor =>
    simp (disch := decide) [Processor.parameters, Processor.enlightenments, noComma_literal]
  | layout => simp [Processor.layout, Processor.count]
  | memory => simp (disch := decide) [noComma_literal]
  | clock =>
    have hbase (b : ClockBase) : NoComma b.text := by cases b <;> decide
    have hsource (c : ClockSource) : NoComma c.text := by cases c <;> decide
    have hdrift (d : DriftFix) : NoComma d.text := by cases d <;> decide
    simp [Clock.parameters, hbase, hsource, hdrift]
  | monitor m hm =>
    have hid := hs.monitors m hm
    simp (disch := decide) [Monitor.parameters, hid, noComma_literal]
  | spice =>
    have haddress := hs.address
    simp (disch := decide) [Spice.parameters, haddress, noComma_literal]
  | global g hg => exact hs.globals g hg
  | boot => simp (disch := decide) [noComma_literal]

structure Resources.Plain (r : Resources) : Prop where
  blocks : ∀ n ∈ r.blocks.entries, AllPlain n.parameters
  charDevices : ∀ d ∈ r.charDevices.entries, AllPlain d.parameters
  tpmDevices : ∀ d ∈ r.tpmDevices.entries, AllPlain d.parameters
  taps : ∀ tap ∈ r.taps, AllPlain tap.parameters

theorem Resources.Plain.options {r : Resources} (hr : r.Plain) :
    ∀ o ∈ r.options, AllPlain o.parameters := by
  intro o ho
  simp only [Resources.options, List.mem_append, List.mem_map, or_assoc] at ho
  rcases ho with ⟨thread, _, rfl⟩ | ⟨n, hn, rfl⟩ | ⟨d, hd, rfl⟩ | ⟨d, hd, rfl⟩ | ⟨tap, htap, rfl⟩
  · simp (disch := decide) [noComma_literal]
  · exact hr.blocks n hn
  · exact hr.charDevices d hd
  · exact hr.tpmDevices d hd
  · exact hr.taps tap htap

theorem Topology.Plain.options {t : Topology} (ht : t.Plain) :
    ∀ o ∈ t.options, AllPlain o.parameters := by
  intro o ho
  obtain ⟨ps, hps, rfl⟩ := List.mem_map.1 ho
  obtain ⟨d, hd, hdevice⟩ := List.mem_flatMap.1 hps
  exact TopLevel.Plain.allParameters (ht d hd) ps hdevice

structure Target.Plain (t : Target) : Prop where
  settings : t.settings.Plain
  resources : t.resources.Plain
  topology : t.tree.topology.Plain

theorem Target.Plain.options {t : Target} (ht : t.Plain) :
    ∀ o ∈ t.options, AllPlain o.parameters := by
  intro o ho
  rcases List.mem_append.1 ho with hfront | htopology
  · rcases List.mem_append.1 hfront with hsettings | hresources
    · exact ht.settings.options o hsettings
    · exact ht.resources.options o hresources
  · exact ht.topology.options o htopology

theorem Target.plain_empty : Plain {} where
  settings := ⟨by decide, nofun, nofun, nofun, by decide, nofun⟩
  resources := ⟨nofun, nofun, nofun, nofun⟩
  topology := nofun

def Registry.All {α : Type} (P : α → Prop) (r : Registry α) : Prop := ∀ e ∈ r.entries, P e

section Registries

variable {α : Type} [Named α] {P : α → Prop} {entry : α}

theorem Registry.add_all (h : P entry) :
    Preserves (Registry.All P) (· = Named.name entry) (add entry) := by
  intro r hr
  simp only [Yields, Meets, add]
  by_cases hname : Named.name entry = ""
  · rw [if_pos hname]
    trivial
  · by_cases htaken : r.contains (Named.name entry) = true
    · rw [if_neg hname, if_pos htaken]
      trivial
    · rw [if_neg hname, if_neg htaken]
      exact ⟨List.forall_mem_append.2 ⟨hr, List.forall_mem_singleton.2 h⟩, rfl⟩

theorem BlockGraph.add_all {P : BlockNode → Prop} {node : BlockNode} (h : P node) :
    Preserves (Registry.All P) (· = node.name) (add node) := by
  intro graph hgraph
  have hadd := Registry.add_all h graph hgraph
  cases hbacking : node.backing? with
  | none => exact .congr (by simp only [add, hbacking]) hadd
  | some backing =>
    by_cases hthere : graph.contains backing = true
    · exact .congr (by simp only [add, hbacking, if_pos hthere]) hadd
    · simp only [Yields, Meets, add, hbacking, if_neg hthere]

theorem CharDevices.add_all {P : CharDevice → Prop} {d : CharDevice} (h : P d) :
    Preserves (Registry.All P) (· = d.id) (add d) := by
  intro registry hregistry
  by_cases hlong : CharDevice.maxId < (Text.utf8 d.id).length
  · simp only [Yields, Meets, add, if_pos hlong]
  · exact .congr (by simp only [add, if_neg hlong]) (Registry.add_all h registry hregistry)

end Registries

namespace Resources

theorem addBlock_plain {node : BlockNode} (h : AllPlain node.parameters) :
    Stable Plain (addBlock node) :=
  .within (fun _ hr => hr.blocks) (fun _ _ hr hs => { hr with blocks := hs })
    ((BlockGraph.add_all (P := fun n => AllPlain n.parameters) h).imp fun _ _ => trivial)

theorem addCharDevice_plain {d : CharDevice} (h : AllPlain d.parameters) :
    Preserves Plain NoComma (addCharDevice d) := by
  have hid : NoComma d.id := (each_cons.1 (each_cons.1 h).2).1
  exact .within (fun _ hr => hr.charDevices) (fun _ _ hr hs => { hr with charDevices := hs })
    ((CharDevices.add_all (P := fun d => AllPlain d.parameters) h).imp fun _ hname => hname ▸ hid)

theorem addTpmDevice_plain {d : TpmDevice} (h : AllPlain d.parameters) :
    Preserves Plain NoComma (addTpmDevice d) := by
  have hid : NoComma d.id := (each_cons.1 (each_cons.1 h).2).1
  exact .within (fun _ hr => hr.tpmDevices) (fun _ _ hr hs => { hr with tpmDevices := hs })
    ((Registry.add_all (P := fun d : TpmDevice => AllPlain d.parameters) h).imp
      fun _ hname => hname ▸ hid)

theorem addEmulatedTpm_plain {id charDevice : String} (hid : NoComma id)
    (hcharDevice : NoComma charDevice) :
    Preserves Plain NoComma (addEmulatedTpm id charDevice) := by
  have hdevice : AllPlain (TpmDevice.emulated id charDevice).parameters := by
    simp (disch := decide) [TpmDevice.parameters, TpmDevice.backend, TpmDevice.id, hid,
      hcharDevice, noComma_literal]
  intro r hr
  by_cases hthere : r.charDevices.contains charDevice = true
  · exact .congr (by simp only [addEmulatedTpm, if_pos hthere]) (addTpmDevice_plain hdevice r hr)
  · simp only [Yields, Meets, addEmulatedTpm, if_neg hthere]

theorem addTap_plain {interface up down : String} (hinterface : NoComma interface)
    (hup : NoComma up) (hdown : NoComma down) :
    Preserves Plain (fun tap => NoComma tap.id) (addTap interface up down) := by
  intro r hr
  have hid : NoComma ("net." ++ toString r.taps.length) := by
    simp (disch := decide) [noComma_literal]
  have htap :
      AllPlain (Tap.mk ("net." ++ toString r.taps.length) interface up down).parameters := by
    simp (disch := decide) [Tap.parameters, hinterface, hup, hdown, noComma_literal]
  have htaps := List.forall_mem_append.2 ⟨hr.taps, List.forall_mem_singleton.2 htap⟩
  exact ⟨{ hr with taps := htaps }, hid⟩

theorem sharedThread_plain : Stable Plain sharedThread := by
  refine stable_iff.2 fun r hr => ?_
  simp only [Yields, Meets, sharedThread]
  cases r.threads.getLast? with
  | some thread => exact hr
  | none => exact { hr with }

end Resources

end GuestCompiler
