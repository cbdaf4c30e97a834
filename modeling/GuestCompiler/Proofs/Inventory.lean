import GuestCompiler.Proofs.BlockNodes
import GuestCompiler.Proofs.SharedControllers
import Mathlib.Data.List.Induction

/-!
# Inventories

An inventory lists what a guest has been given, in order, each item by what it takes of the guest:
a function of the root complex, a place on a shared controller, an id, a boot position. What there
is of everything then follows by counting, and the cards and the interfaces follow item by item,
numbered by the items before.
-/
namespace GuestCompiler

namespace Drive

def driver : Drive → String
  | scsiDisk => "scsi-hd"
  | blockDisk => "virtio-blk-pci"
  | sataCd => "ide-cd"
  | scsiCd => "scsi-cd"
  | usbDisk => "usb-storage"

/-- What a volume's drive is known by. -/
def disk (p : PlacedVolume) (bootIndex : Option Nat) : Drive → DiskOptions
  | scsiDisk => ⟨p.volume.wwn, p.serial?, bootIndex⟩
  | blockDisk => ⟨none, p.serial?, bootIndex⟩
  | sataCd => ⟨none, none, bootIndex⟩
  | scsiCd => ⟨none, none, bootIndex⟩
  | usbDisk => ⟨none, none, bootIndex⟩

/-- The kind whose controller a drive is on; all SCSI drives are served by the first thread. -/
def sharing? : Drive → Option ControllerKind
  | scsiDisk => some (.scsi ⟨0⟩)
  | blockDisk => none
  | sataCd => none
  | scsiCd => some (.scsi ⟨0⟩)
  | usbDisk => some .usb

def isThreaded : Drive → Bool
  | scsiDisk => true
  | blockDisk => true
  | sataCd => false
  | scsiCd => true
  | usbDisk => false

end Drive

/-- What a guest can be given. -/
inductive Item
  /-- A function of the root complex, for a device that is no card. -/
  | function
  | serialPort
  | usbPort
  | charDevice (id : String)
  | tpmDevice (id : String)
  | drive (d : Drive) (p : PlacedVolume) (node : String)
  | network (c : Connection)
  | passthrough (d : Device)

namespace Item

section Sorts

/-- The kind whose controller an item takes a place of. -/
def sharing? : Item → Option ControllerKind
  | serialPort => some .serial
  | usbPort => some .usb
  | drive d _ _ => d.sharing?
  | _ => none

/-- Whether an item takes a function of its own. -/
def isLone : Item → Bool
  | function => true
  | drive d _ _ => d == .blockDisk
  | network _ => true
  | passthrough _ => true
  | _ => false

def isSata : Item → Bool
  | drive d _ _ => d == .sataCd
  | _ => false

def isThreaded : Item → Bool
  | drive d _ _ => d.isThreaded
  | _ => false

def isBootable : Item → Bool
  | drive _ p _ => p.volume.bootable
  | _ => false

def isNetwork : Item → Bool
  | network _ => true
  | _ => false

def isPassthrough : Item → Bool
  | passthrough _ => true
  | _ => false

def charDeviceId? : Item → Option String
  | charDevice id => some id
  | _ => none

def tpmDeviceId? : Item → Option String
  | tpmDevice id => some id
  | _ => none

/-- What shares a controller is of no other sort. -/
theorem sorts_of_sharing {x : Item} {kind : ControllerKind} (h : x.sharing? = some kind) :
    x.isLone = false ∧ x.isSata = false ∧ x.isNetwork = false ∧ x.isPassthrough = false := by
  cases x with
  | drive d p node =>
    cases d <;> simp_all [sharing?, Drive.sharing?, isLone, isSata, isNetwork, isPassthrough]
  | _ => simp_all [sharing?, isLone, isSata, isNetwork, isPassthrough]

end Sorts

section Counts

/-- How many items are on the controller of a kind. -/
def hosted (items : List Item) (kind : ControllerKind) : Nat :=
  items.countP (·.sharing? == some kind)

/-- The kinds of the controllers that items share. -/
def sharedKinds : List ControllerKind := [.serial, .usb, .scsi ⟨0⟩]

/-- The functions of the root complex that items take, one for each controller among them. -/
def functions (items : List Item) : Nat :=
  items.countP isLone + sharedKinds.countP fun kind => 0 < hosted items kind

variable {x : Item} {items more : List Item} {kind : ControllerKind}

theorem hosted_concat (items : List Item) (x : Item) (kind : ControllerKind) :
    hosted (items ++ [x]) kind =
      hosted items kind + if x.sharing? = some kind then 1 else 0 := by
  simp [hosted]

theorem mem_sharedKinds (h : x.sharing? = some kind) : kind ∈ sharedKinds := by
  cases x with
  | drive d p node => cases d <;> simp_all [sharing?, Drive.sharing?, sharedKinds, eq_comm]
  | _ => simp_all [sharing?, sharedKinds, eq_comm]

theorem functions_concat_of_none (h : x.sharing? = none) :
    functions (items ++ [x]) = functions items + if x.isLone then 1 else 0 := by
  simp only [functions, hosted_concat, h, List.countP_append, List.countP_singleton]
  simp
  omega

theorem functions_concat_of_some (h : x.sharing? = some kind) :
    functions (items ++ [x]) = functions items + if hosted items kind = 0 then 1 else 0 := by
  have hlone := (sorts_of_sharing h).1
  have hkind := mem_sharedKinds h
  simp only [sharedKinds, List.mem_cons, List.not_mem_nil, or_false] at hkind
  simp only [functions, sharedKinds, List.countP_cons, List.countP_nil, hosted_concat, h, hlone,
    List.countP_append]
  rcases hkind with rfl | rfl | rfl
  all_goals
    simp
    split_ifs <;> omega

theorem hosted_mono (h : items <+: more) (kind : ControllerKind) :
    hosted items kind ≤ hosted more kind :=
  h.sublist.countP_le

theorem functions_mono (h : items <+: more) : functions items ≤ functions more := by
  refine Nat.add_le_add h.sublist.countP_le (List.countP_mono_left fun kind _ hkind => ?_)
  exact decide_eq_true (Nat.lt_of_lt_of_le (of_decide_eq_true hkind) (hosted_mono h kind))

/-- There is room for all items of an inventory. -/
structure Fits (items : List Item) : Prop where
  functions : Item.functions items ≤ Topology.maxFunctions
  sata : items.countP isSata ≤ Topology.maxSata
  hosted : ∀ kind, hosted items kind ≤ kind.capacity

theorem fits_nil : Fits [] := ⟨Nat.zero_le _, Nat.zero_le _, fun _ => Nat.zero_le _⟩

theorem Fits.of_prefix (hmore : Fits more) (h : items <+: more) : Fits items where
  functions := Nat.le_trans (functions_mono h) hmore.functions
  sata := Nat.le_trans h.sublist.countP_le hmore.sata
  hosted kind := Nat.le_trans (hosted_mono h kind) (hmore.hosted kind)

/-- An item that is no drive for the onboard ports fits where its function does. -/
theorem Fits.concat_of_none (h : Fits items) (hsharing : x.sharing? = none)
    (hsata : x.isSata = false)
    (hroom : x.isLone = true → Item.functions items < Topology.maxFunctions) :
    Fits (items ++ [x]) where
  functions := by
    rw [functions_concat_of_none hsharing]
    split
    · exact hroom ‹_›
    · exact h.functions
  sata := by simpa [hsata] using h.sata
  hosted kind := by
    rw [hosted_concat, hsharing]
    exact h.hosted kind

theorem Fits.concat_of_some (h : Fits items) (hsharing : x.sharing? = some kind)
    (hroom : Item.hosted items kind < kind.capacity)
    (hfunctions : Item.hosted items kind = 0 → Item.functions items < Topology.maxFunctions) :
    Fits (items ++ [x]) where
  functions := by
    rw [functions_concat_of_some hsharing]
    split
    · exact hfunctions ‹_›
    · exact h.functions
  sata := by simpa [(sorts_of_sharing hsharing).2.1] using h.sata
  hosted other := by
    rw [hosted_concat, hsharing]
    split
    · cases ‹some kind = some other›
      exact hroom
    · exact h.hosted other

theorem not_fits_of_none (hsharing : x.sharing? = none) (hlone : x.isLone = true)
    (hfull : Topology.maxFunctions ≤ functions items) : ¬ Fits (items ++ [x]) := by
  intro h
  have hfunctions := h.functions
  rw [functions_concat_of_none hsharing, if_pos hlone] at hfunctions
  omega

theorem not_fits_of_some (hsharing : x.sharing? = some kind)
    (hfull : hosted items kind = 0 ∧ Topology.maxFunctions ≤ functions items ∨
      kind.capacity ≤ hosted items kind) : ¬ Fits (items ++ [x]) := by
  intro h
  have hfunctions := h.functions
  have hhosted := h.hosted kind
  rw [functions_concat_of_some hsharing] at hfunctions
  rw [hosted_concat, if_pos hsharing] at hhosted
  rcases hfull with ⟨hzero, hfull⟩ | hfull
  · rw [if_pos hzero] at hfunctions
    omega
  · omega

end Counts

section Emission

/-- What items come to one after the other, each by the items before it. -/
def emit {α : Type} (f : List Item → Item → Option α) (before : List Item) : List Item → List α
  | [] => []
  | x :: items => (f before x).toList ++ emit f (before ++ [x]) items

theorem emit_append {α : Type} (f : List Item → Item → Option α) (before items more : List Item) :
    emit f before (items ++ more) = emit f before items ++ emit f (before ++ items) more := by
  induction items generalizing before with
  | nil => simp [emit]
  | cons x items ih => simp [emit, ih, List.append_assoc]

theorem emit_concat {α : Type} (f : List Item → Item → Option α) (items : List Item) (x : Item) :
    emit f [] (items ++ [x]) = emit f [] items ++ (f items x).toList := by
  simp [emit_append, emit]

/-- The boot position of a volume: the next one, if the volume can be booted from. -/
def bootIndex? (before : List Item) (bootable : Bool) : Option Nat :=
  if bootable then some (before.countP isBootable + 1) else none

def card? (before : List Item) : Item → Option Card
  | drive d p node =>
    some (.drive d.driver node (d.disk p (bootIndex? before p.volume.bootable)))
  | network c => some (.network (FamilyCounts.nth "nic" (before.countP isNetwork)) c.mac
    ("net." ++ toString (before.countP isNetwork)))
  | passthrough d => some (.passthrough (FamilyCounts.nth "vfio" (before.countP isPassthrough))
    d.sysfsPath)
  | _ => none

def cards (items : List Item) : List Card := emit card? [] items

variable (machine : MachineInfo) (networks : NameMap Network)

/-- The interface for a connection, where its network is known. -/
def tap? (before : List Item) : Item → Option (Option Tap)
  | network c => some ((networks.get? c.network).map fun n => {
      id := "net." ++ toString (before.countP isNetwork)
      interface := c.linkName machine.name
      up := n.up
      down := n.down })
  | _ => none

def taps (items : List Item) : List (Option Tap) := emit (tap? machine networks) [] items

theorem length_taps (items : List Item) :
    (taps machine networks items).length = items.countP isNetwork := by
  induction items using List.reverseRecOn with
  | nil => rfl
  | append_singleton items x ih =>
    rw [taps, emit_concat, List.length_append, List.countP_append, List.countP_singleton]
    cases x <;> simp_all [taps, tap?, isNetwork]

end Emission

section Ids

def charDeviceIds (items : List Item) : List String := items.filterMap charDeviceId?

def tpmDeviceIds (items : List Item) : List String := items.filterMap tpmDeviceId?

/-- No two items have one id, and none has no id. -/
structure WellNamed (items : List Item) : Prop where
  charDevices : (charDeviceIds items).Nodup
  tpmDevices : (tpmDeviceIds items).Nodup
  charDevices_ne : "" ∉ charDeviceIds items
  tpmDevices_ne : "" ∉ tpmDeviceIds items

variable {items more : List Item}

theorem WellNamed.of_prefix (hmore : WellNamed more) (h : items <+: more) : WellNamed items where
  charDevices := hmore.charDevices.sublist (h.filterMap _).sublist
  tpmDevices := hmore.tpmDevices.sublist (h.filterMap _).sublist
  charDevices_ne hmem := hmore.charDevices_ne ((h.filterMap _).subset hmem)
  tpmDevices_ne hmem := hmore.tpmDevices_ne ((h.filterMap _).subset hmem)

end Ids

end Item

/-- What keeps a guest from being given the items of an inventory. -/
inductive Fault (items : List Item) : Error → Prop
  | full {resource : String} {limit count : Nat} : ¬ Item.Fits items →
    Fault items (.capacity resource limit count)
  | unknown {kind referencer reference : String} :
    kind ∈ ["processor", "storage pool", "network", "device class"] →
    Fault items (.unresolved kind referencer reference)
  | unsupported {pool kind : String} : Fault items (.unsupportedType pool kind)
  | port {service pattern : String} {fault : Pattern.PortFault} :
    Fault items (.config (.portOf service pattern fault))
  | noAgentPort : Fault items (.config .noAgentPort)
  | unnamedNode : Fault items (.invalidArgument (.unnamed "block device graph"))
  | takenNode {name : String} : Fault items (.duplicateName "block device graph" name)
  | longId {id : String} : id ∈ Item.charDeviceIds items →
    CharDevice.maxId < (Text.utf8 id).length →
    Fault items (.invalidArgument (.longCharDeviceId id CharDevice.maxId))
  | noMac {connection : String} : Fault items (.invalidArgument (.noMac connection))
  | noDeviceId {device : String} : Fault items (.invalidArgument (.noDeviceId device))

/-- What keeps the first items away keeps all of them away. -/
theorem Fault.of_prefix {items more : List Item} {e : Error} (h : Fault items e)
    (hfront : items <+: more) : Fault more e := by
  cases h with
  | full hfits => exact .full fun hmore => hfits (hmore.of_prefix hfront)
  | longId hmem hlong => exact .longId ((hfront.filterMap _).subset hmem) hlong
  | unknown hkind => exact .unknown hkind
  | _ => constructor

end GuestCompiler
