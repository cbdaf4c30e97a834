import GuestCompiler.Json.Codec
import GuestCompiler.Machine.Info

/-!
# Volumes, connections and devices

The named entries of a definition. An entry may set its identity itself; one that does not takes it
from the machine's seed under its own name, and an entry without a name stays without.
-/
namespace GuestCompiler

open Json

def Wwn.codec : Codec Wwn :=
  .ofText (fun s => (Wwn.parse s).mapError fun fault => .identity (.wwn s fault)) Wwn.toString

def MacAddress.codec : Codec MacAddress :=
  .ofText (fun s => ((MacAddress.parse? s).map .ok).getD (.error (.identity (.mac s))))
    MacAddress.toString

def Uuid.codec : Codec Uuid :=
  .ofText (fun s => ((Uuid.parse? s).map .ok).getD (.error .malformed)) Uuid.toString

structure Volume where
  name : String := ""
  storage : String := ""
  wwn : Option Wwn := none
  serial : String := ""
  bootable : Bool := false
  deriving DecidableEq

namespace Volume

/-- Whether a volume says of neither image nor pool which it is. -/
def isEmpty (v : Volume) : Bool := v.name == "" && v.storage == ""

def populate (seed : Seed) (v : Volume) : Volume :=
  if v.name = "" then v
  else { v with
    wwn := some (v.wwn.getD (seed.wwn Seed.volumeWwn v.name))
    serial := if v.serial = "" then seed.serial Seed.volumeSerial v.name else v.serial }

def display (v : Volume) : String :=
  let wwn := match v.wwn with
    | some wwn => s!" (wwn: {wwn})"
    | none => ""
  s!"{v.name}: {v.storage}" ++ wwn ++ if v.bootable then " [bootable]" else ""

def members : List (Member Volume) := [
  .always "name" .string name fun x v => { v with name := x },
  .always "storage" .string storage fun x v => { v with storage := x },
  .option "wwn" Wwn.codec wwn fun x v => { v with wwn := x },
  .string "serial" serial fun x v => { v with serial := x },
  .flag "bootable" bootable fun x v => { v with bootable := x }]

def codec : Codec Volume := .record {} members

end Volume

structure Connection where
  name : String := ""
  network : String := ""
  ip : String := ""
  mac : Option MacAddress := none
  deriving DecidableEq

namespace Connection

def populate (seed : Seed) (c : Connection) : Connection :=
  if c.name = "" then c
  else { c with mac := some (c.mac.getD (seed.mac Seed.connectionMac c.name)) }

def display (c : Connection) : String :=
  let ip := if c.ip = "" then "" else s!" (ip: {c.ip})"
  let mac := match c.mac with
    | some mac => s!" (mac: {mac})"
    | none => ""
  s!"{c.name}: {c.network}" ++ ip ++ mac

/-- The name of the host interface: a kernel takes no slash, blank or control character in it. -/
def linkName (machine : String) (c : Connection) : String :=
  String.ofList ((machine ++ "-" ++ c.name).toList.filter fun ch =>
    ch != '/' && !Text.isBlank ch && !Text.isControl ch)

def members : List (Member Connection) := [
  .always "name" .string name fun x c => { c with name := x },
  .always "network" .string network fun x c => { c with network := x },
  .string "ip" ip fun x c => { c with ip := x },
  .option "mac" MacAddress.codec mac fun x c => { c with mac := x }]

def codec : Codec Connection := .record {} members

end Connection

structure Device where
  name : String := ""
  deviceClass : String := ""
  id : Option Uuid := none
  deriving DecidableEq

namespace Device

def populate (seed : Seed) (d : Device) : Device :=
  if d.name = "" then d
  else { d with id := some (d.id.getD (seed.uuid Seed.deviceId d.name)) }

def mediatedDevices : Path := ⟨"/sys/bus/mdev/devices"⟩

/-- The host's directory of the device, once its id is known. -/
def sysfsPath (d : Device) : Option Path := d.id.map fun id => mediatedDevices.join id.toString

def display (d : Device) : String :=
  let id := match d.id with
    | some id => s!" (id: {id})"
    | none => ""
  s!"{d.name}: {d.deviceClass}" ++ id

def members : List (Member Device) := [
  .always "name" .string name fun x d => { d with name := x },
  .always "class" .string deviceClass fun x d => { d with deviceClass := x },
  .option "id" Uuid.codec id fun x d => { d with id := x }]

def codec : Codec Device := .record {} members

end Device

end GuestCompiler
