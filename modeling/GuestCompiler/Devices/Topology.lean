import GuestCompiler.Devices.Controller
import GuestCompiler.Identity.MacAddress

/-!
# Device topology

The devices of a guest, in order of their arrival. Root ports, panic devices and displays take the
functions of the root complex one after the other; a root port has room for one device behind it.
CD-ROM drives take the onboard SATA ports, and a security module takes no place.
-/
namespace GuestCompiler

inductive Downstream
  | controller (c : Controller)
  | block (id bus : String) (thread : IoThread) (drive : String) (disk : DiskOptions)
  | network (id bus : String) (mac : MacAddress) (tap : String)
  /-- A device of the host, handed to the guest. -/
  | vfio (id bus : String) (path : Path)
  deriving DecidableEq

def Downstream.parameters : Downstream → List Parameter
  | controller c => c.parameters
  | block id bus thread drive disk =>
    [⟨"driver", "virtio-blk-pci"⟩, ⟨"id", id⟩, ⟨"bus", bus⟩, ⟨"iothread", thread.id⟩,
      .number "num-queues" 4, ⟨"drive", drive⟩] ++
      Parameter.given "serial" disk.serial ++ bootParameter disk.bootIndex
  | network id bus mac tap =>
    [⟨"driver", "virtio-net-pci"⟩, ⟨"id", id⟩, ⟨"bus", bus⟩, ⟨"mac", mac.toString⟩,
      ⟨"netdev", tap⟩]
  | vfio id bus path =>
    [⟨"driver", "vfio-pci"⟩, ⟨"id", id⟩, ⟨"bus", bus⟩, ⟨"sysfsdev", path.text⟩]

/-- The place of a device on the root complex; the first function of a slot announces the others. -/
def PciAddress.parameters (a : PciAddress) : List Parameter :=
  [⟨"bus", "pcie.0"⟩, ⟨"addr", a.text⟩] ++ Parameter.switch "multifunction" (a.function == 0)

structure RootPort where
  id : String
  address : PciAddress
  chassis : Nat
  downstream : Option Downstream := none
  deriving DecidableEq

namespace RootPort

def driver : String := "ioh3420"

def parameters (p : RootPort) : List Parameter :=
  [⟨"driver", driver⟩, ⟨"id", p.id⟩, .number "chassis" p.chassis] ++ p.address.parameters

end RootPort

inductive TopLevel
  | rootPort (port : RootPort)
  | panic (id : String) (address : PciAddress)
  | display (id : String) (address : PciAddress) (vga : Bool)
  | tpm (tpmDevice : String)
  | cdrom (id bus drive : String) (bootIndex : Option Nat)
  deriving DecidableEq

namespace TopLevel

def parameters : TopLevel → List Parameter
  | rootPort port => port.parameters
  | panic id address => [⟨"driver", "pvpanic-pci"⟩, ⟨"id", id⟩] ++ address.parameters
  | display id address vga =>
    [⟨"driver", if vga then "qxl-vga" else "qxl"⟩, ⟨"id", id⟩] ++ address.parameters
  | tpm tpmDevice => [⟨"driver", "tpm-tis"⟩, ⟨"tpmdev", tpmDevice⟩]
  | cdrom id bus drive bootIndex =>
    [⟨"driver", "ide-cd"⟩, ⟨"id", id⟩, ⟨"bus", bus⟩, ⟨"drive", drive⟩] ++ bootParameter bootIndex

def downstream? : TopLevel → Option Downstream
  | rootPort port => port.downstream
  | _ => none

def controller? (d : TopLevel) : Option Controller :=
  match d.downstream? with
  | some (.controller c) => some c
  | _ => none

/-- The parameters of a device, of the device behind it, and of that one's endpoints. -/
def allParameters (d : TopLevel) : List (List Parameter) :=
  d.parameters :: match d.downstream? with
    | none => []
    | some (.controller c) => c.parameters :: c.endpointParameters
    | some device => [device.parameters]

end TopLevel

structure RootPortRef where
  position : Nat
  deriving DecidableEq

/-- A controller, by the position of the root port it is behind. -/
structure ControllerRef where
  position : Nat
  deriving DecidableEq

structure Topology where
  devices : List TopLevel := []
  counts : FamilyCounts := ∅
  functions : Nat := 0
  sata : Nat := 0
  deriving DecidableEq

namespace Topology

/-- The functions that the root complex gives out: eight in each of 32 slots. -/
def maxFunctions : Nat := 32 * PciAddress.functionsPerSlot

def maxSata : Nat := 6

/-- Add the device made for the next function of the root complex, and answer as told. -/
def addFunction {α : Type} (make : Topology → TopLevel × FamilyCounts × α) :
    Edit Error Topology α := fun t =>
  if maxFunctions ≤ t.functions then
    .error (.capacity "PCI Express root complex" maxFunctions t.functions) t
  else
    let (device, counts, answer) := make t
    .ok answer { t with
      devices := t.devices ++ [device], counts := counts, functions := t.functions + 1 }

def addRoot : Edit Error Topology RootPortRef :=
  addFunction fun t =>
    let address := PciAddress.ofIndex t.functions
    (.rootPort ⟨"pcie." ++ address.text, address, t.functions + 1, none⟩, t.counts,
      ⟨t.devices.length⟩)

def addPanic : Edit Error Topology String :=
  addFunction fun t =>
    let id := t.counts.next "panic"
    (.panic id (.ofIndex t.functions), t.counts.advance "panic", id)

/-- Only the first display can show what comes before the guest's own drivers. -/
def addDisplay : Edit Error Topology String :=
  addFunction fun t =>
    let id := t.counts.next "qxl"
    (.display id (.ofIndex t.functions) (t.counts.count "qxl" == 0), t.counts.advance "qxl", id)

def addTpm (tpmDevice : String) : Edit Error Topology Unit := fun t =>
  .ok () { t with devices := t.devices ++ [.tpm tpmDevice] }

def addCdrom (drive : String) (bootIndex : Option Nat) : Edit Error Topology String := fun t =>
  if maxSata ≤ t.sata then .error (.capacity "SATA controller" maxSata t.sata) t
  else
    let id := t.counts.next "sata"
    .ok id { t with
      devices := t.devices ++ [.cdrom id ("ide." ++ toString t.sata) drive bootIndex]
      counts := t.counts.advance "sata"
      sata := t.sata + 1 }

def root? (t : Topology) (r : RootPortRef) : Except Error RootPort :=
  match t.devices[r.position]? with
  | some (.rootPort port) => .ok port
  | _ => .error (.invalidArgument (.noRootPort r.position))

/-- Put a device behind a root port that is free, and answer its id. -/
def attach (r : RootPortRef) (family : String) (make : String → String → Downstream) :
    Edit Error Topology String := fun t =>
  match t.root? r with
  | .error e => .error e t
  | .ok port =>
    if port.downstream.isSome then .error (.occupied port.id) t
    else
      let id := t.counts.next family
      .ok id { t with
        devices := t.devices.set r.position
          (.rootPort { port with downstream := some (make id port.id) })
        counts := t.counts.advance family }

def addController (r : RootPortRef) (kind : ControllerKind) : Edit Error Topology ControllerRef :=
  (fun _ => ⟨r.position⟩) <$> attach r kind.family fun id parent => .controller ⟨kind, id, parent, []⟩

def addBlock (r : RootPortRef) (thread : IoThread) (drive : String) (disk : DiskOptions) :
    Edit Error Topology String :=
  attach r "block" fun id bus => .block id bus thread drive disk

def addNetwork (r : RootPortRef) (mac : MacAddress) (tap : String) : Edit Error Topology String :=
  attach r "nic" fun id bus => .network id bus mac tap

def addVfio (r : RootPortRef) (path : Path) : Edit Error Topology String :=
  attach r "vfio" fun id bus => .vfio id bus path

def controller? (t : Topology) (c : ControllerRef) : Except Error Controller :=
  match t.devices[c.position]?.bind TopLevel.controller? with
  | some controller => .ok controller
  | none => .error (.invalidArgument (.noController c.position))

/-- The device at a position with another device behind its root port. -/
def setDownstream (t : Topology) (position : Nat) (device : Downstream) : Topology :=
  { t with
    devices := t.devices.modify position fun
      | .rootPort port => .rootPort { port with downstream := some device }
      | d => d }

/-- An edit of one controller. -/
def onController {α : Type} (c : ControllerRef) (edit : Edit Error Controller α) :
    Edit Error Topology α := fun t =>
  match t.controller? c with
  | .error e => .error e t
  | .ok controller =>
    match edit controller with
    | .ok a controller => .ok a (t.setDownstream c.position (.controller controller))
    | .error e controller => .error e (t.setDownstream c.position (.controller controller))

def options (t : Topology) : List CommandOption :=
  (t.devices.flatMap TopLevel.allParameters).map fun ps => ⟨"device", ps⟩

end Topology

end GuestCompiler
