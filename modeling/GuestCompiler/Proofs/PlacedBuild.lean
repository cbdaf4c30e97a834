import GuestCompiler.Proofs.Attached
import GuestCompiler.Proofs.Placements

/-!
# What a build places

Each step of a build places its own devices in the tree, after those of the steps before
(`BuildStep.edit_lists`). So the devices of a guest are listed by its definition alone
(`Definition.placements`).
-/
namespace GuestCompiler

open Edit

namespace Placement

def panic : Placement := .lone [[⟨"driver", "pvpanic-pci"⟩]]

def tpm : Placement := .lone [[⟨"driver", "tpm-tis"⟩, ⟨"tpmdev", "tpm.0"⟩]]

def serialPort (charDevice : String) : Placement :=
  .endpoint .serial [⟨"driver", "virtserialport"⟩, ⟨"chardev", charDevice⟩]

def tablet : Placement := .endpoint .usb [⟨"driver", "usb-tablet"⟩]

def redirection (charDevice : String) : Placement :=
  .endpoint .usb [⟨"driver", "usb-redir"⟩, ⟨"chardev", charDevice⟩]

/-- A drive on a block node, wherever drives of its driver are attached. -/
def drive (driver node : String) : Placement :=
  let row := [⟨"driver", driver⟩, ⟨"drive", node⟩]
  if driver = "scsi-hd" ∨ driver = "scsi-cd" then .endpoint (.scsi ⟨0⟩) row
  else if driver = "usb-storage" then .endpoint .usb row
  else if driver = "ide-cd" then .lone [row]
  else .lone [portRow, row]

/-- A device of the host behind a port of its own. -/
def passthrough (d : Device) : Placement :=
  .lone [portRow, ⟨"driver", "vfio-pci"⟩ :: Parameter.given "sysfsdev" (d.sysfsPath.map (·.text))]

end Placement

section Definitions

variable (machine : MachineInfo) (pools : NameMap Pool)

/-- A volume's drive, where the pool's kind calls for one. -/
def Volume.placement? (v : Volume) : Option Placement := do
  let pool ← pools.get? v.storage
  let driver ← Pool.driver? pool.kind
  let node ← v.nodeName? machine pools
  return .drive driver node

def Agent.placements (a : Agent) : List Placement :=
  if a.enabled then [.serialPort "guestagent"] else []

def Spice.placements (s : Spice) : List Placement :=
  if s.enabled then
    List.replicate (Build.displayCount s.displays) .display ++
      [.serialPort "vdagent", .tablet, .redirection "usbredir.0", .redirection "usbredir.1"]
  else []

/-- All devices of a guest, in the order in which they are made. -/
def Definition.placements (d : Definition) : List Placement :=
  .panic :: d.attributes.firmware.used.filterMap (Volume.placement? machine pools) ++
    d.attributes.agent.placements ++ d.attributes.spice.placements ++
    (if d.attributes.tpm then [.tpm] else []) ++
    d.volumes.filterMap (Volume.placement? machine pools) ++
    d.connections.map (fun _ => .network) ++ d.devices.map .passthrough

end Definitions

section Resources

theorem Registry.yields_add {α : Type} [Named α] (entry : α) (r : Registry α) :
    Yields (add entry) r fun name r' => name = Named.name entry ∧ r' = r.insert entry := by
  simp only [Yields, Meets, add]
  split_ifs <;> simp

namespace Resources

/-- What of the resources tells how things are placed. -/
def view (r : Resources) : List IoThread × List Tap := (r.threads, r.taps)

theorem addCharDevice_view (d : CharDevice) (r : Resources) :
    Yields (addCharDevice d) r fun id r' => r'.view = r.view ∧ id = d.id := by
  refine meets_within.2 ?_
  simp only [Meets, CharDevices.add]
  split_ifs with hlong
  · trivial
  · exact (Registry.yields_add d r.charDevices).imp fun id _ h => ⟨rfl, h.1⟩

theorem addBlock_view (node : BlockNode) (r : Resources) :
    Yields (addBlock node) r fun _ r' => r'.view = r.view ∧ True :=
  meets_within.2 (meets_iff.2 ⟨fun _ _ _ => ⟨rfl, trivial⟩, fun _ _ _ => trivial⟩)

theorem addEmulatedTpm_view (id charDevice : String) (r : Resources) :
    Yields (addEmulatedTpm id charDevice) r fun name r' => r'.view = r.view ∧ name = id := by
  by_cases hthere : r.charDevices.contains charDevice = true
  · have hedit : addEmulatedTpm id charDevice r = addTpmDevice (.emulated id charDevice) r := by
      simp only [addEmulatedTpm, hthere, if_true]
    exact .congr hedit (meets_within.2 ((Registry.yields_add _ r.tpmDevices).imp
      fun name _ h => ⟨rfl, h.1⟩))
  · simp only [Yields, Meets, addEmulatedTpm, hthere]
    trivial

end Resources

end Resources

namespace Target

/-- A target whose tree lists what has been placed, with the interfaces of the network cards and at
most one thread. -/
structure Lists (t : Target) (ps : List Placement) : Prop where
  tree : t.tree.Lists ps
  threads : t.resources.threads = [] ∨ t.resources.threads = [⟨0⟩]
  taps : t.resources.taps.length = ps.count .network

theorem lists_empty : ({} : Target).Lists [] := ⟨DeviceTree.lists_empty, .inl rfl, rfl⟩

variable {α : Type} {more : List Placement} {answer : α → Prop}

theorem onTree_lists {edit : Edit Error DeviceTree α} (hmore : .network ∉ more)
    (h : Appends DeviceTree.Lists edit more answer) : Appends Lists (onTree edit) more answer := by
  refine appends_iff.2 fun t ps ht => ?_
  refine meets_within.2 ((appends_iff.1 h t.tree ps ht.tree).imp ?_)
  rintro a tree ⟨htree, ha⟩
  refine ⟨⟨htree, ht.threads, ?_⟩, ha⟩
  rw [List.count_append, List.count_eq_zero_of_not_mem hmore]
  exact ht.taps

theorem onSettings_lists (change : Guest.Settings → Guest.Settings) :
    Appends Lists (onSettings change) [] fun _ => True :=
  appends_nil.2 fun _ => .modify fun _ ht => ⟨ht.tree, ht.threads, ht.taps⟩

theorem onResources_lists {edit : Edit Error Resources α}
    (h : ∀ r, Yields edit r fun a r' => r'.view = r.view ∧ answer a) :
    Appends Lists (onResources edit) [] answer := by
  refine appends_nil.2 fun ps t ht => meets_within.2 ((h t.resources).imp ?_)
  rintro a r ⟨hview, ha⟩
  simp only [Resources.view, Prod.mk.injEq] at hview
  exact ⟨⟨ht.tree, hview.1 ▸ ht.threads, hview.2 ▸ ht.taps⟩, ha⟩

theorem addCharDevice_lists (d : CharDevice) :
    Appends Lists (onResources (Resources.addCharDevice d)) [] (· = d.id) :=
  onResources_lists (Resources.addCharDevice_view d)

/-- All drives are served by the first thread. -/
theorem thread_lists : Appends Lists thread [] (· = ⟨0⟩) := by
  refine appends_nil.2 fun ps t ht => meets_within.2 ?_
  rcases ht.threads with hnone | hone
  · have hedit : Resources.sharedThread t.resources = .ok ⟨0⟩ { t.resources with
        threads := [⟨0⟩] } := by
      simp [Resources.sharedThread, Resources.addThread, hnone]
    rw [Meets, hedit]
    exact ⟨⟨ht.tree, .inr rfl, ht.taps⟩, rfl⟩
  · have hedit : Resources.sharedThread t.resources = .ok ⟨0⟩ t.resources := by
      simp [Resources.sharedThread, hone]
    rw [Meets, hedit]
    exact ⟨ht, rfl⟩

theorem bootIndex_lists (bootable : Bool) :
    Appends Lists (bootIndex bootable) [] fun _ => True := by
  refine appends_nil.2 fun ps t ht => ?_
  cases bootable with
  | true =>
    exact meets_map.2 ⟨⟨ht.tree, ht.threads, ht.taps⟩, trivial⟩
  | false => exact ⟨ht, trivial⟩

end Target

namespace Placement

theorem drive_ne_network (driver node : String) : drive driver node ≠ .network := by
  simp only [drive]
  split_ifs <;> simp

end Placement

theorem DeviceTree.attachNew_lists {family : String} (hfamily : family ≠ "qxl")
    {make : String → String → Downstream} (hmake : ∀ id bus c, make id bus ≠ .controller c)
    {row : List Parameter} (hrow : ∀ id bus, Parameter.wiring (make id bus).parameters = row) :
    Appends Lists (onTopology do Topology.attach (← Topology.addRoot) family make)
      [.lone [Placement.portRow, row]] fun _ => True := by
  refine appends_iff.2 fun t ps h => ?_
  refine (h.attachNew hfamily hmake (by simp) (fun _ => rfl) fun id bus => ?_).imp
    fun _ _ h => ⟨h, trivial⟩
  rw [hrow]
  rfl

section Volumes

theorem Drive.device_lists (d : Drive) (p : PlacedVolume) (node : String)
    (bootIndex : Option Nat) :
    Appends DeviceTree.Lists (d.device p node ⟨0⟩ bootIndex) [.drive d.driver node]
      fun _ => True := by
  cases d with
  | scsiDisk | scsiCd | usbDisk =>
    refine DeviceTree.share_lists fun n => ?_
    simp [Endpoint.row, Endpoint.driver, Endpoint.ownParameters, Endpoint.scsiParameters,
      bootParameter, Parameter.number]
    rfl
  | sataCd => exact DeviceTree.addCdrom_lists node bootIndex
  | blockDisk =>
    refine DeviceTree.attachNew_lists (by decide) (fun _ _ _ => by simp) fun id bus => ?_
    simp [Downstream.parameters, bootParameter, Parameter.number]
    rfl

theorem Drive.attach_lists (d : Drive) (p : PlacedVolume) (node : String) :
    Appends Target.Lists (d.attach p node) [.drive d.driver node] fun _ => True := by
  have hdevice (bootIndex : Option Nat) : Appends Target.Lists
      (Target.onTree (d.device p node ⟨0⟩ bootIndex)) [.drive d.driver node] fun _ => True := by
    refine Target.onTree_lists ?_ (d.device_lists p node bootIndex)
    simpa using (Placement.drive_ne_network d.driver node).symm
  cases hd : d.isThreaded with
  | true =>
    rw [Drive.attach_served hd]
    refine Target.thread_lists.idle_bind ?_
    rintro _ rfl
    exact (Target.bootIndex_lists _).idle_bind fun bootIndex _ => hdevice bootIndex
  | false =>
    rw [Drive.attach_unserved hd p node ⟨0⟩]
    exact (Target.bootIndex_lists _).idle_bind fun bootIndex _ => hdevice bootIndex

theorem Attachment.apply_lists (a : Attachment) (p : PlacedVolume) :
    Appends Target.Lists (a.apply p)
      (a.drive?.map fun d => Placement.drive d.driver (a.nodeName p)).toList fun _ => True := by
  have hnodes : Appends Target.Lists
      ((a.nodes p).forM fun node => do let _ ← Target.onResources (Resources.addBlock node)) []
      fun _ => True := by
    refine appends_nil.2 fun held => .forM fun node _ => ?_
    exact appends_nil.1 (Target.onResources_lists (Resources.addBlock_view node)).discard held
  refine hnodes.idle_bind fun _ _ => ?_
  cases a.drive? with
  | none => exact .pure trivial
  | some d => exact (d.attach_lists p _).discard

theorem Volume.placement?_eq {machine : MachineInfo} {pools : NameMap Pool} (v : Volume) :
    v.placement? machine pools = (v.placed? machine pools).bind fun x =>
      x.1.drive?.map fun d => .drive d.driver (x.1.nodeName x.2) := by
  rw [← v.drive_map Placement.drive]
  simp only [placement?, bind, pure, Option.map_eq_bind]
  rfl

end Volumes

namespace Target

theorem serialPort_lists (charDevice name : String) : Appends Lists
    (onShared DeviceTree.serialController (Controller.addSerialPort charDevice name))
    [.serialPort charDevice] fun _ => True := by
  have hshared : onShared DeviceTree.serialController (Controller.addSerialPort charDevice name) =
      Target.onTree (DeviceTree.share .serial _) := onShared_eq .serial _
  rw [hshared]
  refine onTree_lists (by simp [Placement.serialPort]) (DeviceTree.share_lists fun n => ?_)
  simp [Endpoint.row, Endpoint.driver, Endpoint.ownParameters, Parameter.number]

theorem usbPort_lists {make : Nat → Endpoint} {row : List Parameter}
    (hrow : ∀ n, (make n).row = row) :
    Appends Lists (onShared DeviceTree.usbController (Controller.attach "usb" make))
      [.endpoint .usb row] fun _ => True := by
  have hshared : onShared DeviceTree.usbController (Controller.attach "usb" make) =
      Target.onTree (DeviceTree.share .usb make) := onShared_eq .usb make
  rw [hshared]
  exact onTree_lists (by simp) (DeviceTree.share_lists hrow)

/-- The interface comes first, under the number of the network cards. -/
theorem connection_lists (machine : MachineInfo) (network : Network) (mac : MacAddress)
    (c : Connection) : Appends Lists (BuildStep.connection machine network mac c).edit [.network]
      fun _ => True := by
  refine appends_iff.2 fun t ps ht => ?_
  let tap : Tap := ⟨"net." ++ toString t.resources.taps.length, c.linkName machine.name,
    network.up, network.down⟩
  refine Meets.bind (M := fun answer t₁ => answer = tap ∧ t₁ = { t with
    resources := { t.resources with taps := t.resources.taps ++ [tap] } }) ⟨rfl, rfl⟩ ?_
  rintro _ _ ⟨rfl, rfl⟩
  refine Meets.congr
    (congrFun (Build.behind_eq "nic" fun id bus => .network id bus mac tap.id) _) ?_
  have hcard : Yields (DeviceTree.onTopology do
      Topology.attach (← Topology.addRoot) "nic" fun id bus => .network id bus mac tap.id) t.tree
      fun _ tree => tree.Lists (ps ++ [.network]) := by
    refine ht.tree.attachNew (by decide) (fun _ _ _ => by simp) (by simp) (fun _ => rfl)
      fun id bus => ?_
    simp [Placement.branch?, Downstream.parameters, tap, ht.taps]
  refine Meets.bind (M := fun _ t₂ => t₂.Lists (ps ++ [.network]))
    (meets_within.2 (hcard.imp fun id tree htree => ?_)) fun _ t₂ h₂ => ⟨h₂, trivial⟩
  exact ⟨htree, ht.threads, by simp [ht.taps]⟩

theorem passthrough_lists {v : Device} {path : Path} (hpath : v.sysfsPath = some path) :
    Appends Lists (BuildStep.passthrough v path).edit [.passthrough v] fun _ => True := by
  have hedit : (BuildStep.passthrough v path).edit = _ :=
    Build.behind_eq "vfio" fun id bus => .vfio id bus path
  rw [hedit, Placement.passthrough, hpath]
  refine (onTree_lists (by simp) (DeviceTree.attachNew_lists (by decide)
    (fun _ _ _ => by simp) fun id bus => ?_)).discard
  simp [Downstream.parameters, Parameter.given]

end Target

namespace BuildStep

open Target

/-- What a step places in the tree. -/
def placements : BuildStep → List Placement
  | missing .. | setting _ | monitor .. => []
  | panic => [.panic]
  | display => [.display]
  | tablet => [.tablet]
  | serialChannel c _ => [.serialPort c.id]
  | usbChannel c => [.redirection c.id]
  | securityModule _ => [.tpm]
  | volume a p => (a.drive?.map fun d => Placement.drive d.driver (a.nodeName p)).toList
  | connection .. => [.network]
  | passthrough v _ => [.passthrough v]

variable {machine : MachineInfo} {catalog : Catalog} {locations : Locations} {d : Definition}

theorem edit_lists {step : BuildStep} (h : step.Found machine catalog locations d) :
    Appends Target.Lists step.edit step.placements fun _ => True := by
  cases step with
  | missing e he => exact .throw fun _ => trivial
  | setting s => exact onSettings_lists _
  | monitor path index =>
    exact (addCharDevice_lists _).idle_bind fun _ _ => onSettings_lists _
  | panic => exact (onTree_lists (by simp) DeviceTree.addPanic_lists).discard
  | display => exact (onTree_lists (by simp) DeviceTree.addDisplay_lists).discard
  | tablet => exact Adds.discard (usbPort_lists fun _ => rfl)
  | serialChannel c name =>
    refine (addCharDevice_lists c).idle_bind ?_
    rintro _ rfl
    exact (serialPort_lists _ _).discard
  | usbChannel c =>
    refine (addCharDevice_lists c).idle_bind ?_
    rintro _ rfl
    refine Adds.discard (usbPort_lists fun n => ?_)
    simp [Endpoint.row, Endpoint.driver, Endpoint.ownParameters, Parameter.number]
  | securityModule path =>
    have hmodule : Appends Target.Lists (onTopology (Topology.addTpm "tpm.0")) [.tpm]
        fun _ => True := onTree_lists (by simp [Placement.tpm]) (DeviceTree.addTpm_lists "tpm.0")
    refine (addCharDevice_lists _).idle_bind fun socket _ => ?_
    refine (onResources_lists (Resources.addEmulatedTpm_view _ socket)).idle_bind ?_
    rintro _ rfl
    exact hmodule
  | volume a p => exact a.apply_lists p
  | connection m network mac c => exact connection_lists m network mac c
  | passthrough v path => exact passthrough_lists h

end BuildStep

/-- The steps of a definition place what is listed for it. -/
theorem Definition.lists_placements (machine : MachineInfo) (catalog : Catalog)
    (locations : Locations) (d : Definition) :
    BuildStep.Lists BuildStep.placements (d.steps machine catalog locations)
      (d.placements machine catalog.pools) := by
  have hvolume (v : Volume) (a : Attachment) (p : PlacedVolume)
      (hp : v.placed? machine catalog.pools = some (a, p)) :
      BuildStep.placements (.volume a p) = (v.placement? machine catalog.pools).toList := by
    rw [v.placement?_eq, hp]
    rfl
  refine (lists_steps [.serialPort "guestagent"]
    (fun v => (v.placement? machine catalog.pools).toList) (fun _ => [.network])
    (fun v => [.passthrough v]) (fun _ => rfl) hvolume (fun _ _ => rfl) (fun _ _ _ => rfl)
    fun _ _ => rfl).of_eq ?_
  simp [Attributes.listing, BuildStep.placements, placements, Agent.placements, Spice.placements,
    List.filterMap_eq_flatMap_toList, List.map_eq_flatMap, List.flatMap_replicate]
  rfl

theorem Build.addDefinition_lists (machine : MachineInfo) (d : Definition) (catalog : Catalog)
    (locations : Locations) : Yields (addDefinition machine d catalog locations) {} fun _ t =>
      t.Lists (d.placements machine catalog.pools) := by
  rw [addDefinition_eq]
  have hlists : Appends Target.Lists (BuildStep.run (d.steps machine catalog locations))
      (d.placements machine catalog.pools) fun _ => True :=
    (d.lists_placements machine catalog locations).adds (fun _ _ _ => trivial) fun step hstep =>
      step.edit_lists (Definition.found_of_mem step hstep)
  exact hlists.yields Target.lists_empty

/-- What a build answers lists what the resolved definition places. -/
theorem Machine.lists_of_build {m : Machine} {catalog : Catalog} {locations : Locations}
    {t : Target} {d : Definition} (hd : m.resolve catalog = .ok d)
    (h : m.build catalog locations = .ok t) : t.Lists (d.placements m.info catalog.pools) := by
  obtain ⟨d', hd', hrun⟩ := addDefinition_of_build h
  cases hd.symm.trans hd'
  exact (Build.addDefinition_lists m.info d catalog locations).ok hrun

end GuestCompiler
