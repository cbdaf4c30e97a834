import GuestCompiler.Devices.Address
import GuestCompiler.Host.Resources

/-!
# Controllers

A controller hosts endpoints of its own kind on a bus named after it. An endpoint's id and its place
on the bus come from its position.
-/
namespace GuestCompiler

/-- What a disk is known by, and where it stands in the boot order. -/
structure DiskOptions where
  wwn : Option Wwn := none
  serial : Option String := none
  bootIndex : Option Nat := none
  deriving DecidableEq

def bootParameter (bootIndex : Option Nat) : List Parameter :=
  Parameter.given "bootindex" (bootIndex.map toString)

inductive ControllerKind
  | scsi (thread : IoThread)
  | usb
  | serial
  deriving DecidableEq

namespace ControllerKind

def family : ControllerKind → String
  | scsi _ => "scsi"
  | usb => "usb"
  | serial => "serial"

def driver : ControllerKind → String
  | scsi _ => "virtio-scsi-pci"
  | usb => "qemu-xhci"
  | serial => "virtio-serial-pci"

def title : ControllerKind → String
  | scsi _ => "SCSI controller"
  | usb => "USB controller"
  | serial => "serial controller"

/-- The endpoints that fit; of the 31 serial ports the first is reserved. -/
def capacity : ControllerKind → Nat
  | scsi _ => 28
  | usb => 15
  | serial => 30

end ControllerKind

inductive Endpoint
  | scsiDisk (lun : Nat) (drive : String) (disk : DiskOptions)
  | scsiCd (lun : Nat) (drive : String) (disk : DiskOptions)
  | usbTablet (port : Nat)
  | usbRedirect (port : Nat) (charDevice : String)
  | usbStorage (port : Nat) (drive : String) (bootIndex : Option Nat)
  | serialPort (number : Nat) (charDevice name : String)
  deriving DecidableEq

namespace Endpoint

def driver : Endpoint → String
  | scsiDisk .. => "scsi-hd"
  | scsiCd .. => "scsi-cd"
  | usbTablet .. => "usb-tablet"
  | usbRedirect .. => "usb-redir"
  | usbStorage .. => "usb-storage"
  | serialPort .. => "virtserialport"

def scsiParameters (lun : Nat) (drive : String) (disk : DiskOptions) : List Parameter :=
  [.number "channel" 0, .number "scsi-id" 0, .number "lun" lun, ⟨"drive", drive⟩] ++
    Parameter.given "wwn" (disk.wwn.map Wwn.toString) ++ Parameter.given "serial" disk.serial ++
    bootParameter disk.bootIndex

def ownParameters : Endpoint → List Parameter
  | scsiDisk lun drive disk => scsiParameters lun drive disk
  | scsiCd lun drive disk => scsiParameters lun drive disk
  | usbTablet port => [.number "port" port]
  | usbRedirect port charDevice => [.number "port" port, ⟨"chardev", charDevice⟩]
  | usbStorage port drive bootIndex =>
    [.number "port" port, ⟨"drive", drive⟩] ++ bootParameter bootIndex
  | serialPort number charDevice name =>
    [.number "nr" number, ⟨"chardev", charDevice⟩, ⟨"name", name⟩]

end Endpoint

structure Controller where
  kind : ControllerKind
  id : String
  /-- The root port that the controller is behind. -/
  parent : String
  endpoints : List Endpoint := []
  deriving DecidableEq

namespace Controller

def bus (c : Controller) : String := c.id ++ ".0"

def endpointId (c : Controller) (position : Nat) : String := c.bus ++ "." ++ toString position

def title (c : Controller) : String := c.kind.title ++ " " ++ c.id

/-- Attach an endpoint made for the next position, and answer its id. -/
def attach (family : String) (make : Nat → Endpoint) : Edit Error Controller String := fun c =>
  let position := c.endpoints.length
  if c.kind.family ≠ family then .error (.invalidArgument (.wrongController c.title family)) c
  else if c.kind.capacity ≤ position then
    .error (.capacity c.title c.kind.capacity position) c
  else .ok (c.endpointId position) { c with endpoints := c.endpoints ++ [make position] }

def addScsiDisk (drive : String) (disk : DiskOptions) : Edit Error Controller String :=
  attach "scsi" fun n => .scsiDisk n drive disk

def addScsiCd (drive : String) (disk : DiskOptions) : Edit Error Controller String :=
  attach "scsi" fun n => .scsiCd n drive disk

/-- The ports of a USB controller are counted from 1. -/
def addUsbTablet : Edit Error Controller String := attach "usb" fun n => .usbTablet (n + 1)

def addUsbRedirect (charDevice : String) : Edit Error Controller String :=
  attach "usb" fun n => .usbRedirect (n + 1) charDevice

def addUsbStorage (drive : String) (bootIndex : Option Nat) : Edit Error Controller String :=
  attach "usb" fun n => .usbStorage (n + 1) drive bootIndex

/-- Serial port 0 is kept for the console. -/
def addSerialPort (charDevice name : String) : Edit Error Controller String :=
  attach "serial" fun n => .serialPort (n + 1) charDevice name

/-- A USB controller shows its ports twice, for the older devices and for the newer. -/
def kindParameters (c : Controller) : List Parameter :=
  match c.kind with
  | .scsi thread => [⟨"iothread", thread.id⟩, .number "num_queues" 4]
  | .usb =>
    let ports := max c.endpoints.length 4
    [.number "p2" ports, .number "p3" ports]
  | .serial => []

def parameters (c : Controller) : List Parameter :=
  [⟨"driver", c.kind.driver⟩, ⟨"id", c.id⟩, ⟨"bus", c.parent⟩] ++ c.kindParameters

def endpointParameters (c : Controller) : List (List Parameter) :=
  c.endpoints.mapIdx fun position e =>
    [⟨"driver", e.driver⟩, ⟨"id", c.endpointId position⟩, ⟨"bus", c.bus⟩] ++ e.ownParameters

end Controller

end GuestCompiler
