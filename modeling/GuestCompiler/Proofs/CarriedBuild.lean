import GuestCompiler.Proofs.Carried

/-!
# The inventory of a build

Each step of a build adds items of its own: a volume its drive, a connection its card and its
interface, an attribute its ids and its places on the shared controllers. Together they are the
inventory of a definition (`Definition.items`), which the target carries at the end of a build; and
a build that fails does so for a reason that lies in the inventory (`Build.addDefinition_adds`).
-/
namespace GuestCompiler

open Edit

section Volumes

variable (machine : MachineInfo) (pools : NameMap Pool)

/-- A volume's drive, where it has one. -/
def Volume.items (v : Volume) : List Item :=
  ((v.placed? machine pools).bind fun x =>
    x.1.drive?.map fun d => .drive d x.2 (x.1.nodeName x.2)).toList

end Volumes

def Qmp.items (machine : String) (runDir : Path) (q : Qmp) : List Item :=
  if q.enabled then (Build.monitorIds (q.socketPaths runDir machine)).map .charDevice else []

def Agent.items (a : Agent) : List Item :=
  if a.enabled then [.charDevice "guestagent", .serialPort] else []

/-- Displays, the channel of the display's agent, the tablet, and the redirections. -/
def Spice.items (s : Spice) : List Item :=
  if s.enabled then
    List.replicate (Build.displayCount s.displays) .function ++
      .charDevice "vdagent" :: .serialPort :: .usbPort ::
        (List.range 2).flatMap fun n => [.charDevice ("usbredir." ++ toString n), .usbPort]
  else []

def Attributes.items (machine : String) (runDir : Path) (a : Attributes) : List Item :=
  a.qmp.items machine runDir ++ a.agent.items ++ a.spice.items ++
    if a.tpm then [.charDevice "tpm.0.socket", .tpmDevice "tpm.0"] else []

/-- All that a guest is given, in the order of the build. -/
def Definition.items (machine : MachineInfo) (pools : NameMap Pool) (runDir : Path)
    (d : Definition) : List Item :=
  [.function] ++ d.attributes.firmware.used.flatMap (Volume.items machine pools) ++
    d.attributes.items machine.name runDir ++ d.volumes.flatMap (Volume.items machine pools) ++
    d.connections.map .network ++ d.devices.map .passthrough

/-- What a step adds to an inventory. -/
def BuildStep.items : BuildStep → List Item
  | monitor _ index => [.charDevice ("qmp." ++ toString index)]
  | panic | display => [.function]
  | tablet => [.usbPort]
  | serialChannel d _ => [.charDevice d.id, .serialPort]
  | usbChannel d => [.charDevice d.id, .usbPort]
  | securityModule _ => [.charDevice "tpm.0.socket", .tpmDevice "tpm.0"]
  | volume a p => (a.drive?.map fun d => Item.drive d p (a.nodeName p)).toList
  | connection _ _ _ c => [.network c]
  | passthrough d _ => [.passthrough d]
  | missing .. | setting _ => []

theorem Attributes.listing_items (a : Attributes) (machine : String) (runDir : Path) :
    a.listing BuildStep.items [.charDevice "guestagent", .serialPort] machine runDir =
      a.items machine runDir := by
  have hmonitors (paths : List Path) : (Build.monitorIds paths).map Item.charDevice =
      paths.zipIdx.flatMap fun x => [.charDevice ("qmp." ++ toString x.2)] := by
    rw [Build.monitorIds, List.map_map, List.map_eq_flatMap]
    rfl
  have hdisplays (n : Nat) : (List.replicate n BuildStep.display).flatMap BuildStep.items =
      List.replicate n Item.function := by
    simp [List.flatMap_replicate, BuildStep.items]
  simp only [listing, hdisplays, items, Qmp.items, hmonitors, Agent.items, Spice.items,
    List.append_assoc]
  rfl

/-- The steps of a definition add the inventory of it. -/
theorem Definition.lists_items (machine : MachineInfo) (catalog : Catalog) (locations : Locations)
    (d : Definition) : BuildStep.Lists BuildStep.items (d.steps machine catalog locations)
      (d.items machine catalog.pools locations.runDir) := by
  have hvolume (v : Volume) (a : Attachment) (p : PlacedVolume)
      (hp : v.placed? machine catalog.pools = some (a, p)) :
      BuildStep.items (.volume a p) = v.items machine catalog.pools := by
    rw [Volume.items, hp]
    rfl
  have hall : BuildStep.Lists BuildStep.items (d.steps machine catalog locations) _ :=
    Definition.lists_steps [.charDevice "guestagent", .serialPort] (Volume.items machine _)
      (fun c => [.network c]) (fun v => [.passthrough v]) (fun _ => rfl) hvolume (fun _ _ => rfl)
      (fun _ _ _ => rfl) fun _ _ => rfl
  rw [Attributes.listing_items] at hall
  simpa [items, BuildStep.items, List.map_eq_flatMap] using hall

namespace Target

variable {machine : MachineInfo} {networks : NameMap Network} {α : Type} {items : List Item}
  {x : Item}

/-- Resources and boot order come first, and what is left is an edit of the tree. -/
theorem meets_onTree_carries {edit : Edit Error DeviceTree α} {t : Target}
    (hresources : t.resources.Carries machine networks items)
    (hbooted : t.bootOrder.used = items.countP Item.isBootable)
    (htree : Meets edit t.tree (fun _ tree => tree.Carries items) (fun e _ => Fault items e)) :
    Meets (onTree edit) t (fun _ t' => t'.Carries machine networks items ∧ True)
      (fun e _ => Fault items e) :=
  meets_within.2 (htree.imp fun _ _ h => ⟨⟨h, hresources, hbooted⟩, trivial⟩)

/-- A place in the tree, for an item that takes nothing else. -/
theorem onTree_adds {edit : Edit Error DeviceTree α}
    (hx : x ∈ [Item.function, .serialPort, .usbPort] ∨ x.isPassthrough = true)
    (h : ∀ (t : DeviceTree) items, t.Carries items → Meets edit t
      (fun _ t' => t'.Carries (items ++ [x])) (fun e _ => Fault (items ++ [x]) e)) :
    Adds (inventory machine networks) (onTree edit) [x] fun _ => True := by
  intro t items ht _
  refine meets_onTree_carries ?_ ?_ (h _ _ ht.tree)
  · cases x with
    | function | serialPort | usbPort | passthrough _ => exact ht.resources.idle rfl rfl rfl rfl
    | _ => simp [Item.isPassthrough] at hx
  · rw [ht.booted, List.countP_append]
    cases x with
    | function | serialPort | usbPort | passthrough _ => rfl
    | _ => simp [Item.isPassthrough] at hx

theorem onTree_bind {β : Type} (x : Edit Error DeviceTree β) (f : β → Edit Error DeviceTree α) :
    onTree (x >>= f) = (onTree x >>= fun b => onTree (f b)) := by
  refine within_bind (fun _ _ => ?_) (fun _ _ _ => ?_) x f <;> rfl

theorem onTopology_bind {β : Type} (x : Edit Error Topology β) (f : β → Edit Error Topology α) :
    onTopology (x >>= f) = (onTopology x >>= fun b => onTopology (f b)) := by
  have htree : DeviceTree.onTopology (x >>= f) =
      (DeviceTree.onTopology x >>= fun b => DeviceTree.onTopology (f b)) := by
    refine within_bind (fun _ _ => ?_) (fun _ _ _ => ?_) x f <;> rfl
  exact (congrArg onTree htree).trans (onTree_bind _ _)

theorem onShared_eq (kind : ControllerKind) (make : Nat → Endpoint) :
    onShared (DeviceTree.sharedController kind) (Controller.attach kind.family make) =
      onTree (DeviceTree.share kind make) :=
  (onTree_bind _ _).symm

end Target

namespace Drive

/-- The device of a drive, on a boot position, and served by the thread where it takes one. -/
def device (d : Drive) (p : PlacedVolume) (node : String) (thread : IoThread)
    (bootIndex : Option Nat) : Edit Error DeviceTree String :=
  let disk := d.disk p bootIndex
  match d with
  | scsiDisk => DeviceTree.share (.scsi thread) fun n => .scsiDisk n node disk
  | blockDisk => DeviceTree.onTopology do
    Topology.attach (← Topology.addRoot) "block" fun id bus => .block id bus thread node disk
  | sataCd => DeviceTree.onTopology (Topology.addCdrom node bootIndex)
  | scsiCd => DeviceTree.share (.scsi thread) fun n => .scsiCd n node disk
  | usbDisk => DeviceTree.share .usb fun n => .usbStorage (n + 1) node bootIndex

variable {d : Drive}

theorem attach_served (hd : d.isThreaded = true) (p : PlacedVolume) (node : String) :
    d.attach p node = (do
      let thread ← Target.thread
      let bootIndex ← Target.bootIndex p.volume.bootable
      Target.onTree (d.device p node thread bootIndex)) := by
  cases d with
  | scsiDisk | scsiCd =>
    exact bind_congr fun thread => bind_congr fun _ => Target.onShared_eq (.scsi thread) _
  | blockDisk => exact bind_congr fun _ => bind_congr fun _ => (Target.onTopology_bind _ _).symm
  | sataCd | usbDisk => exact nomatch hd

theorem attach_unserved (hd : d.isThreaded = false) (p : PlacedVolume) (node : String)
    (thread : IoThread) : d.attach p node = (do
      let bootIndex ← Target.bootIndex p.volume.bootable
      Target.onTree (d.device p node thread bootIndex)) := by
  cases d with
  | sataCd => rfl
  | usbDisk => exact bind_congr fun _ => Target.onShared_eq .usb _
  | scsiDisk | blockDisk | scsiCd => exact nomatch hd

end Drive

namespace Target

variable {machine : MachineInfo} {networks : NameMap Network} {α : Type} {items : List Item}
  {x : Item}

theorem addCharDevice_adds (d : CharDevice) :
    Adds (inventory machine networks) (onResources (Resources.addCharDevice d)) [.charDevice d.id]
      (· = d.id) := by
  intro t items ht hnamed
  refine meets_within.2 ((ht.resources.addCharDevice d hnamed).imp ?_)
  rintro id r ⟨hid, hr⟩
  refine ⟨⟨ht.tree.idle (.inl rfl), hr, ?_⟩, hid⟩
  simpa [Item.isBootable] using ht.booted

/-- A port of the serial controller, for a character device. -/
theorem serialPort_adds (charDevice name : String) : Adds (inventory machine networks)
    (onShared DeviceTree.serialController (Controller.addSerialPort charDevice name)) [.serialPort]
    fun _ => True := by
  have hshared : onShared DeviceTree.serialController (Controller.addSerialPort charDevice name) =
      Target.onTree (DeviceTree.share .serial _) := onShared_eq .serial _
  rw [hshared]
  exact onTree_adds (.inl (by simp)) fun t items ht => ht.share rfl fun _ => rfl

theorem usbPort_adds {make : Nat → Endpoint} (hcards : ∀ n, (make n).cards = []) :
    Adds (inventory machine networks)
      (onShared DeviceTree.usbController (Controller.attach "usb" make)) [.usbPort]
      fun _ => True := by
  have hshared : onShared DeviceTree.usbController (Controller.attach "usb" make) =
      Target.onTree (DeviceTree.share .usb make) := onShared_eq .usb make
  rw [hshared]
  exact onTree_adds (.inl (by simp)) fun t items ht => ht.share rfl hcards

section Drives

/-- The boot position of a volume, and what is left of the order. -/
theorem Carries.bootIndex {t : Target} (hbooted : t.bootOrder.used = items.countP Item.isBootable)
    (bootable : Bool) : Meets (bootIndex bootable) t
      (fun index t' => index = Item.bootIndex? items bootable ∧ t' = { t with
        bootOrder := ⟨items.countP Item.isBootable + if bootable then 1 else 0⟩ })
      (fun _ _ => False) := by
  cases bootable with
  | true =>
    refine meets_map.2 ⟨?_, ?_⟩ <;> rw [hbooted] <;> rfl
  | false => exact ⟨rfl, by rw [if_neg Bool.false_ne_true, Nat.add_zero, ← hbooted]⟩

variable {d : Drive} {p : PlacedVolume} {node : String}

/-- A drive that no thread serves: its boot position, and then its device. -/
theorem unserved_adds (hd : d.isThreaded = false) {device : Option Nat → Edit Error DeviceTree α}
    (hdevice : ∀ (t : DeviceTree) items, t.Carries items →
      Meets (device (Item.bootIndex? items p.volume.bootable)) t
        (fun _ t' => t'.Carries (items ++ [.drive d p node]))
        (fun e _ => Fault (items ++ [.drive d p node]) e)) :
    Adds (inventory machine networks) (do
      let bootIndex ← bootIndex p.volume.bootable
      Target.onTree (device bootIndex)) [.drive d p node] fun _ => True := by
  intro t items ht _
  refine Meets.bind ((Carries.bootIndex ht.booted _).mono (fun _ _ => id) fun _ _ => False.elim) ?_
  rintro _ _ ⟨rfl, rfl⟩
  refine meets_onTree_carries (ht.resources.idle hd rfl rfl rfl) ?_ (hdevice _ _ ht.tree)
  rw [List.countP_append, List.countP_singleton]
  rfl

/-- A drive that the thread serves. -/
theorem served_adds (hd : d.isThreaded = true)
    {device : IoThread → Option Nat → Edit Error DeviceTree α}
    (hdevice : ∀ (t : DeviceTree) items, t.Carries items →
      Meets (device ⟨0⟩ (Item.bootIndex? items p.volume.bootable)) t
        (fun _ t' => t'.Carries (items ++ [.drive d p node]))
        (fun e _ => Fault (items ++ [.drive d p node]) e)) :
    Adds (inventory machine networks) (do
      let thread ← thread
      let bootIndex ← bootIndex p.volume.bootable
      Target.onTree (device thread bootIndex)) [.drive d p node] fun _ => True := by
  intro t items ht _
  refine Meets.bind (M := fun thread t' => thread = ⟨0⟩ ∧ t'.tree = t.tree ∧
    t'.bootOrder = t.bootOrder ∧
      t'.resources.Carries machine networks (items ++ [.drive d p node])) ?_ ?_
  · refine meets_within.2 ((ht.resources.sharedThread hd p node).mono ?_ fun _ _ => False.elim)
    rintro thread r ⟨hthread, hr⟩
    exact ⟨hthread, rfl, rfl, hr⟩
  · rintro _ t₁ ⟨rfl, htree, horder, hr⟩
    have hbooted : t₁.bootOrder.used = items.countP Item.isBootable := horder ▸ ht.booted
    refine Meets.bind ((Carries.bootIndex hbooted _).mono (fun _ _ => id) fun _ _ => False.elim) ?_
    rintro _ _ ⟨rfl, rfl⟩
    refine meets_onTree_carries hr ?_ (hdevice _ _ (htree ▸ ht.tree))
    rw [List.countP_append, List.countP_singleton]
    rfl

theorem drive_adds (d : Drive) (p : PlacedVolume) (node : String) :
    Adds (inventory machine networks) (d.attach p node) [.drive d p node] fun _ => True := by
  cases d with
  | scsiDisk | scsiCd =>
    rw [Drive.attach_served rfl]
    exact served_adds rfl fun t items ht => ht.share rfl fun _ => rfl
  | blockDisk =>
    rw [Drive.attach_served rfl]
    exact served_adds rfl fun t items ht =>
      ht.attachNew rfl rfl rfl "block" _ (by simp [Item.isNetwork]) (by simp [Item.isPassthrough])
        fun _ => rfl
  | sataCd =>
    rw [Drive.attach_unserved rfl _ _ ⟨0⟩]
    exact unserved_adds rfl fun t items ht => ht.addCdrom p node
  | usbDisk =>
    rw [Drive.attach_unserved rfl _ _ ⟨0⟩]
    exact unserved_adds rfl fun t items ht => ht.share rfl fun _ => rfl

end Drives

end Target

namespace Attachment

/-- What backs a node of a volume is a node of it that comes before. -/
theorem backing_mem {a : Attachment} {p : PlacedVolume} {done : List BlockNode} {node : BlockNode}
    {backing : String} (h : done ++ [node] <+: a.nodes p) (hback : node.backing? = some backing) :
    backing ∈ done.map BlockNode.name := by
  -- No volume has more than two nodes.
  rcases done with _ | ⟨first, _ | ⟨second, done⟩⟩
  all_goals
    cases a <;> simp_all [nodes, BlockNode.backing?, BlockNode.name, List.prefix_iff_eq_take]

variable {machine : MachineInfo} {networks : NameMap Network}

theorem addNodes_adds (a : Attachment) (p : PlacedVolume) :
    Adds (Target.inventory machine networks)
      ((a.nodes p).forM fun node => do let _ ← Target.onResources (Resources.addBlock node)) []
      fun _ => True := by
  intro t items ht _
  rw [List.append_nil]
  refine (Meets.forM (fun (done : List BlockNode) (t' : Target) =>
    t'.Carries machine networks items ∧ ∀ node ∈ done, node.name ∈ t'.resources.blocks.names)
    ⟨ht, nofun⟩ fun done node t₁ hfront ⟨h₁, hdone⟩ => ?_).imp fun _ _ h => ⟨h.1, trivial⟩
  refine Meets.bind (M := fun _ t' => t'.Carries machine networks items ∧
    ∀ other ∈ done ++ [node], other.name ∈ t'.resources.blocks.names) ?_ fun _ _ h => h
  refine meets_within.2 ((h₁.resources.addBlock fun backing hback => ?_).imp ?_)
  · obtain ⟨other, hother, rfl⟩ := List.mem_map.1 (backing_mem hfront hback)
    exact hdone other hother
  · rintro _ r ⟨hr, hmem, hgrows⟩
    refine ⟨⟨h₁.tree, hr, h₁.booted⟩, List.forall_mem_append.2
      ⟨fun other hother => hgrows.mem_blocks (hdone other hother), ?_⟩⟩
    exact List.forall_mem_singleton.2 hmem

theorem apply_adds (a : Attachment) (p : PlacedVolume) :
    Adds (Target.inventory machine networks) (a.apply p)
      (a.drive?.map fun d => .drive d p (a.nodeName p)).toList fun _ => True := by
  refine (addNodes_adds a p).idle_bind fun _ _ => ?_
  cases a.drive? with
  | none => exact .pure trivial
  | some d => exact (Target.drive_adds d p _).discard

end Attachment

section Steps

open Target

/-- A new port and a device behind it are one edit of the topology. -/
theorem Build.behind_eq (family : String) (make : String → String → Downstream) : (do
      let root ← onTopology Topology.addRoot
      let _ ← onTopology (Topology.attach root family make)) = (do
      let _ ← onTopology do Topology.attach (← Topology.addRoot) family make) := by
  rw [onTopology_bind, bind_assoc]

theorem Unfound.fault {e : Error} (h : Unfound e) (items : List Item) : Fault items e := by
  cases h with
  | unknown hkind => exact .unknown hkind
  | _ => constructor

variable {machine : MachineInfo} {catalog : Catalog} {locations : Locations} {d : Definition}

/-- The module stands behind the socket that comes right before it. -/
theorem Target.securityModule_adds (path : Path) :
    Adds (inventory machine catalog.networks) (BuildStep.securityModule path).edit
      [.charDevice "tpm.0.socket", .tpmDevice "tpm.0"] fun _ => True := by
  intro t items ht hnamed
  have hsplit : items ++ [Item.charDevice "tpm.0.socket", .tpmDevice "tpm.0"] =
      items ++ [.charDevice "tpm.0.socket"] ++ [.tpmDevice "tpm.0"] := by simp
  rw [hsplit] at hnamed ⊢
  have hfront := List.prefix_append (items ++ [Item.charDevice "tpm.0.socket"])
    [.tpmDevice "tpm.0"]
  refine Meets.bind ((addCharDevice_adds (.unixSocket "tpm.0.socket" path false true) t items ht
    (hnamed.of_prefix hfront)).mono (fun _ _ => id) fun _ _ h => h.of_prefix hfront) ?_
  rintro _ t₁ ⟨h₁, rfl⟩
  have hsocket : "tpm.0.socket" ∈ Item.charDeviceIds (items ++ [.charDevice "tpm.0.socket"]) := by
    simp [Item.charDeviceIds, Item.charDeviceId?]
  refine Meets.bind (M := fun _ t' => t'.Carries machine catalog.networks
    (items ++ [.charDevice "tpm.0.socket"] ++ [.tpmDevice "tpm.0"])) ?_ fun device t₂ h₂ => ?_
  · refine meets_within.2 ((h₁.resources.addEmulatedTpm hsocket hnamed).imp ?_)
    rintro _ r ⟨-, hr⟩
    refine ⟨h₁.tree.idle (.inr rfl), hr, ?_⟩
    simpa [Item.isBootable] using h₁.booted
  · exact meets_onTree_carries h₂.resources h₂.booted
      ((h₂.tree.tpm device).mono (fun _ _ => id) fun _ _ => False.elim)

theorem Target.connection_adds {network : Network} {mac : MacAddress} {c : Connection}
    (hnetwork : catalog.networks.get? c.network = some network) (hmac : c.mac = some mac) :
    Adds (inventory machine catalog.networks) (BuildStep.connection machine network mac c).edit
      [.network c] fun _ => True := by
  intro t items ht _
  refine Meets.bind (M := fun tap t' =>
    tap.id = "net." ++ toString (items.countP Item.isNetwork) ∧ t'.tree = t.tree ∧
      t'.bootOrder = t.bootOrder ∧
        t'.resources.Carries machine catalog.networks (items ++ [.network c])) ?_ ?_
  · refine meets_within.2 ((ht.resources.addTap hnetwork).mono ?_ fun _ _ => False.elim)
    rintro tap r ⟨htap, hr⟩
    exact ⟨htap, rfl, rfl, hr⟩
  · rintro tap t₁ ⟨htap, htree, horder, hr⟩
    have hcarries : t₁.tree.Carries items := htree ▸ ht.tree
    refine Meets.congr
      (congrFun (Build.behind_eq "nic" fun id bus => .network id bus mac tap.id) t₁) ?_
    refine Meets.bind (meets_onTree_carries hr ?_ (hcarries.attachNew rfl rfl rfl "nic" _
      (by simp [Item.isNetwork]) (by simp [Item.isPassthrough]) fun _ => ?_)) fun _ _ h => h
    · rw [horder, ht.booted, List.countP_append]
      rfl
    · rw [Item.card?, hmac, ← htap, ← hcarries.networks]
      rfl

theorem Target.passthrough_adds {v : Device} {path : Path} (hpath : v.sysfsPath = some path) :
    Adds (inventory machine catalog.networks) (BuildStep.passthrough v path).edit [.passthrough v]
      fun _ => True := by
  have hedit : (BuildStep.passthrough v path).edit = _ :=
    Build.behind_eq "vfio" fun id bus => .vfio id bus path
  rw [hedit]
  refine (onTree_adds (.inr rfl) fun t items ht => ht.attachNew rfl rfl rfl "vfio" _
    (by simp [Item.isNetwork]) (by simp [Item.isPassthrough]) fun _ => ?_).discard
  rw [Item.card?, hpath, ← ht.passthroughs]
  rfl

/-- Each step adds its items. -/
theorem BuildStep.edit_adds {step : BuildStep} (h : step.Found machine catalog locations d) :
    Adds (inventory machine catalog.networks) step.edit step.items fun _ => True := by
  cases step with
  | missing e he => exact .throw he.fault
  | setting s => exact onSettings_adds _
  | monitor path index =>
    exact (addCharDevice_adds (.unixServer ("qmp." ++ toString index) path)).bind_idle
      fun _ _ => onSettings_adds _
  | panic => exact (onTree_adds (.inl (by simp)) fun _ _ ht => ht.addPanic).discard
  | display => exact (onTree_adds (.inl (by simp)) fun _ _ ht => ht.addDisplay).discard
  | tablet => exact (usbPort_adds fun _ => rfl).discard
  | serialChannel c name =>
    exact (addCharDevice_adds c).bind fun id _ => (serialPort_adds id name).discard
  | usbChannel c =>
    exact (addCharDevice_adds c).bind fun id _ => (usbPort_adds fun _ => rfl).discard
  | securityModule path => exact securityModule_adds path
  | volume a p => exact a.apply_adds p
  | connection m network mac c =>
    obtain ⟨rfl, -, hnetwork, hmac⟩ := h
    exact connection_adds hnetwork hmac
  | passthrough v path => exact passthrough_adds h

theorem Build.addDefinition_adds (machine : MachineInfo) (d : Definition) (catalog : Catalog)
    (locations : Locations) :
    Adds (inventory machine catalog.networks) (addDefinition machine d catalog locations)
      (d.items machine catalog.pools locations.runDir) fun _ => True := by
  rw [addDefinition_eq]
  exact (d.lists_items machine catalog locations).adds (fun _ he => he.fault) fun step hstep =>
    step.edit_adds (Definition.found_of_mem step hstep)

end Steps

end GuestCompiler
