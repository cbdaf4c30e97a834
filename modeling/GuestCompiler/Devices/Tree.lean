import GuestCompiler.Devices.Topology

/-!
# Shared controllers

A device tree is a topology together with the controllers that all devices of a kind share: one for
serial ports, one for USB, and one SCSI controller for each thread. Each is made, behind a root port
of its own, when it is first asked for.
-/
namespace GuestCompiler

structure DeviceTree where
  topology : Topology := {}
  serial : Option ControllerRef := none
  usb : Option ControllerRef := none
  scsi : List (IoThread × ControllerRef) := []
  deriving DecidableEq

namespace DeviceTree

def onTopology {α : Type} (edit : Edit Error Topology α) : Edit Error DeviceTree α :=
  Edit.within topology (fun x t => { t with topology := x }) edit

/-- The controller that is remembered, or a new one to remember. -/
def shared (known : DeviceTree → Option ControllerRef)
    (remember : ControllerRef → DeviceTree → DeviceTree) (kind : ControllerKind) :
    Edit Error DeviceTree ControllerRef := do
  match known (← get) with
  | some c => return c
  | none =>
    let root ← onTopology Topology.addRoot
    let c ← onTopology (Topology.addController root kind)
    modify (remember c)
    return c

def serialController : Edit Error DeviceTree ControllerRef :=
  shared serial (fun c t => { t with serial := some c }) .serial

def usbController : Edit Error DeviceTree ControllerRef :=
  shared usb (fun c t => { t with usb := some c }) .usb

/-- The SCSI controller that a thread serves. -/
def scsiController (thread : IoThread) : Edit Error DeviceTree ControllerRef :=
  shared (·.scsi.lookup thread) (fun c t => { t with scsi := t.scsi ++ [(thread, c)] })
    (.scsi thread)

end DeviceTree

end GuestCompiler
