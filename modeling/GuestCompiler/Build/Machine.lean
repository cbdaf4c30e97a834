import GuestCompiler.Build.Features
import GuestCompiler.Build.Volume
import GuestCompiler.Locations
import GuestCompiler.Machine.Basic

/-!
# Building machines

A machine is resolved against the host's catalog and then built in fixed steps: the clock and the
panic device, the identity, the firmware, the attributes, the volumes, the connections and the
devices. The order decides which ids and addresses things get.
-/
namespace GuestCompiler

namespace Build

def clock : Guest.Clock := ⟨some .utc, some .host, some .slew⟩

def addDefaults : Edit Error Target Unit := do
  Target.onSettings fun s => { s with clock := clock }
  let _ ← Target.onTopology Topology.addPanic

def addIdentity (machine : MachineInfo) : Edit Error Target Unit :=
  Target.onSettings fun s => { s with identity := ⟨machine.name, some machine.id⟩ }

def addVolume (machine : MachineInfo) (pools : NameMap Pool) (volume : Volume) :
    Edit Error Target Unit := do
  let placed ← Edit.ofExcept (PlacedVolume.resolve machine volume pools)
  let attachment ← Edit.ofExcept (Attachment.of placed)
  attachment.apply placed

/-- Attach a firmware volume, and have the machine refer to its block node. -/
def addFirmwareVolume (machine : MachineInfo) (pools : NameMap Pool) (volume : Volume)
    (refer : String → Guest.Firmware → Guest.Firmware) : Edit Error Target Unit := do
  let placed ← Edit.ofExcept (PlacedVolume.resolve machine volume pools)
  let attachment ← Edit.ofExcept (Attachment.of placed)
  Target.onSettings fun s => { s with firmware := refer (attachment.nodeName placed) s.firmware }
  attachment.apply placed

/-- The firmware's memory is used only beside its code. -/
def addFirmware (machine : MachineInfo) (pools : NameMap Pool) (firmware : Firmware) :
    Edit Error Target Unit :=
  if firmware.code.isEmpty then pure ()
  else do
    addFirmwareVolume machine pools firmware.code fun node f => { f with code := some node }
    if !firmware.vars.isEmpty then
      addFirmwareVolume machine pools firmware.vars fun node f => { f with vars := some node }
    Target.onSettings fun s => { s with
      globals := Guest.Global.add s.globals ⟨"cfi.pflash01", "secure", "on"⟩ }

/-- A network interface of the host, and a card behind its own root port. -/
def addConnection (machine : MachineInfo) (networks : NameMap Network) (c : Connection) :
    Edit Error Target Unit :=
  match networks.get? c.network, c.mac with
  | none, _ => throw (.unresolved "network" ("connection " ++ c.name) c.network)
  | some _, none => throw (.invalidArgument (.noMac c.name))
  | some network, some mac => do
    let tap ← Target.onResources
      (Resources.addTap (c.linkName machine.name) network.up network.down)
    let root ← Target.onTopology Topology.addRoot
    let _ ← Target.onTopology (Topology.addNetwork root mac tap.id)

/-- A device behind its own root port; the host has to supply its class. -/
def addDevice (catalog : Catalog) (d : Device) : Edit Error Target Unit :=
  if catalog.devicesOfClass d.deviceClass = [] then
    throw (.unresolved "device class" ("device " ++ d.name) d.deviceClass)
  else
    match d.sysfsPath with
    | none => throw (.invalidArgument (.noDeviceId d.name))
    | some path => do
      let root ← Target.onTopology Topology.addRoot
      let _ ← Target.onTopology (Topology.addVfio root path)

/-- All steps for a machine whose definition is resolved. The machine's own variables stand before
the configured ones. -/
def addDefinition (machine : MachineInfo) (d : Definition) (catalog : Catalog)
    (locations : Locations) : Edit Error Target Unit := do
  addDefaults
  addIdentity machine
  addFirmware machine catalog.pools d.attributes.firmware
  addAttributes machine.name (Vars.merge [machine.vars, d.vars]) d.attributes catalog
    locations.runDir
  d.volumes.forM (addVolume machine catalog.pools)
  d.connections.forM (addConnection machine catalog.networks)
  d.devices.forM (addDevice catalog)

end Build

namespace Firmware

/-- What is odd about a machine's firmware without being an error. -/
def warnings (machine : String) (f : Firmware) : List Warning :=
  if f.code.isEmpty then
    if f.vars.isEmpty then [] else [.ignoredFirmwareVars machine f.vars.name]
  else
    ([f.code, f.vars].filter fun v => !v.isEmpty && v.bootable).map fun v =>
      .bootableFirmware machine v.name

end Firmware

namespace Machine

def compile (m : Machine) (catalog : Catalog) (locations : Locations) : Except Error Target := do
  let d ← m.resolve catalog
  match Build.addDefinition m.info d catalog locations {} with
  | .ok _ target => return target
  | .error e _ => throw e

/-- The guest that a machine describes; an error names the machine. -/
def build (m : Machine) (catalog : Catalog) (locations : Locations) : Except Error Target :=
  (m.compile catalog locations).mapError (·.forMachine m.name)

def warnings (m : Machine) (catalog : Catalog) : List Warning :=
  match m.resolve catalog with
  | .ok d => d.attributes.firmware.warnings m.name
  | .error _ => []

end Machine

end GuestCompiler
