import GuestCompiler.Build.Target
import GuestCompiler.Catalog

/-!
# Attaching volumes

A pool's kind says how its volumes are attached: through which block nodes, and as which device.
-/
namespace GuestCompiler

/-- A volume of a machine, and the pool it is in. -/
structure PlacedVolume where
  machine : MachineInfo
  volume : Volume
  pool : Pool
  deriving DecidableEq

namespace PlacedVolume

def resolve (machine : MachineInfo) (volume : Volume) (pools : NameMap Pool) :
    Except Error PlacedVolume :=
  match pools.get? volume.storage with
  | some pool => .ok ⟨machine, volume, pool⟩
  | none => .error (.unresolved "storage pool" ("volume " ++ volume.name) volume.storage)

def path (p : PlacedVolume) : Path := p.pool.volumePath p.machine p.volume.name

/-- The volume's name behind the machine's, for what is not shared among machines. -/
def scopedName (p : PlacedVolume) : String := p.machine.name ++ "-" ++ p.volume.name

def serial? (p : PlacedVolume) : Option String :=
  if p.volume.serial = "" then none else some p.volume.serial

end PlacedVolume

inductive Attachment
  | rawScsi
  | rawBlock
  | vvfatBlock
  | isoAhci
  | isoScsi
  | isoUsb
  /-- Only the block node; the machine refers to it. -/
  | firmware
  /-- Not at all; the security module's software opens the volume. -/
  | tpmData
  deriving DecidableEq

namespace Attachment

def ofKind? (kind : String) : Option Attachment :=
  if kind = "raw" ∨ kind = "raw-scsi" then some rawScsi
  else if kind = "raw-block" then some rawBlock
  else if kind = "vvfat-block" then some vvfatBlock
  else if kind = "iso-ahci" then some isoAhci
  else if kind = "iso-scsi" then some isoScsi
  else if kind = "iso-usb" then some isoUsb
  else if kind = "firmware" then some firmware
  else if kind = "tpm-data" then some tpmData
  else none

def of (p : PlacedVolume) : Except Error Attachment :=
  match ofKind? p.pool.kind with
  | some a => .ok a
  | none => .error (.unsupportedType p.volume.storage p.pool.kind)

/-- The block node that a device refers to. Images that machines may share go by the volume's name
alone. -/
def nodeName (a : Attachment) (p : PlacedVolume) : String :=
  match a with
  | rawScsi | rawBlock | vvfatBlock => p.scopedName
  | isoAhci | isoScsi | isoUsb => p.volume.name
  | firmware | tpmData => if p.pool.readOnly then p.volume.name else p.scopedName

/-- The nodes that give access to a volume, each after the one that backs it. An image that may be
written is a file node with a raw node over it. -/
def nodes (a : Attachment) (p : PlacedVolume) : List BlockNode :=
  let name := a.nodeName p
  match a with
  | rawScsi | rawBlock =>
    let file := BlockNode.childName name "file"
    [.file file p.path { readOnly := p.pool.readOnly, discard := true },
      .raw name file { discard := true, detectZeroes := .unmap }]
  | vvfatBlock => [.directory name p.path none true]
  | isoAhci | isoScsi | isoUsb => [.file name p.path { readOnly := true }]
  | firmware => [.file name p.path { readOnly := p.pool.readOnly }]
  | tpmData => []

end Attachment

inductive Drive
  | scsiDisk
  | blockDisk
  | sataCd
  | scsiCd
  | usbDisk
  deriving DecidableEq

namespace Drive

/-- Attach the drive of a volume to a block node, and answer its device's id. A disk behind a root
port is not known by a World Wide Name. -/
def attach (d : Drive) (p : PlacedVolume) (node : String) : Edit Error Target String :=
  match d with
  | scsiDisk => do
    let thread ← Target.thread
    let bootIndex ← Target.bootIndex p.volume.bootable
    Target.onShared (DeviceTree.scsiController thread)
      (Controller.addScsiDisk node ⟨p.volume.wwn, p.serial?, bootIndex⟩)
  | blockDisk => do
    let thread ← Target.thread
    let bootIndex ← Target.bootIndex p.volume.bootable
    let root ← Target.onTopology Topology.addRoot
    Target.onTopology (Topology.addBlock root thread node ⟨none, p.serial?, bootIndex⟩)
  | sataCd => do
    let bootIndex ← Target.bootIndex p.volume.bootable
    Target.onTopology (Topology.addCdrom node bootIndex)
  | scsiCd => do
    let thread ← Target.thread
    let bootIndex ← Target.bootIndex p.volume.bootable
    Target.onShared (DeviceTree.scsiController thread)
      (Controller.addScsiCd node ⟨none, none, bootIndex⟩)
  | usbDisk => do
    let bootIndex ← Target.bootIndex p.volume.bootable
    Target.onShared DeviceTree.usbController (Controller.addUsbStorage node bootIndex)

end Drive

namespace Attachment

def drive? : Attachment → Option Drive
  | rawScsi => some .scsiDisk
  | rawBlock | vvfatBlock => some .blockDisk
  | isoAhci => some .sataCd
  | isoScsi => some .scsiCd
  | isoUsb => some .usbDisk
  | firmware | tpmData => none

/-- Attach a volume: first its nodes, then its drive. -/
def apply (a : Attachment) (p : PlacedVolume) : Edit Error Target Unit := do
  (a.nodes p).forM fun node => do
    let _ ← Target.onResources (Resources.addBlock node)
  match a.drive? with
  | none => return ()
  | some drive =>
    let _ ← drive.attach p (a.nodeName p)

end Attachment

end GuestCompiler
