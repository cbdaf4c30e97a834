import GuestCompiler.Definition.Attributes
import GuestCompiler.Summary

/-!
# Definitions

What a machine is made of, and what a tag adds to the machines that name it. Definitions are merged
in order of precedence: the first one that sets something decides it, and of the entries of one name
the first is taken whole.
-/
namespace GuestCompiler

open Json

structure Group where
  name : String := ""
  id : UInt32 := 0
  deriving DecidableEq

namespace Group

def overlay (a b : Group) : Group where
  name := orText a.name b.name
  id := orNumber a.id b.id

def populate (machine : String) (seed : Seed) (g : Group) : Group where
  name := orText g.name ("qforge-" ++ machine)
  id := orNumber g.id (seed.groupId Seed.fileSystemGroup 0)

def codec : Codec Group := .record {} [
  .string "name" name fun x g => { g with name := x },
  .uint32 "id" id fun x g => { g with id := x }]

/-- The group as the only one of a machine's privileges. -/
def privilegesCodec : Codec Group := .record {} [
  .always "filesystem" (.record {} [.always "group" codec (fun g => g) fun g _ => g])
    (fun g => g) fun g _ => g]

end Group

structure Definition where
  vars : Vars := ∅
  group : Group := {}
  attributes : Attributes := {}
  volumes : List Volume := []
  connections : List Connection := []
  devices : List Device := []
  deriving DecidableEq

namespace Definition

/-- A definition, and what another one has beside it. -/
def overlay (a b : Definition) : Definition where
  vars := a.vars.fill b.vars
  group := a.group.overlay b.group
  attributes := a.attributes.overlay b.attributes
  volumes := distinctBy Volume.name (a.volumes ++ b.volumes)
  connections := distinctBy Connection.name (a.connections ++ b.connections)
  devices := distinctBy Device.name (a.devices ++ b.devices)

def merge (defs : List Definition) : Definition := defs.foldl overlay {}

/-- Fill in the identities that the entries leave absent. -/
def populate (machine : String) (seed : Seed) (d : Definition) : Definition :=
  { d with
    group := d.group.populate machine seed
    volumes := d.volumes.map (Volume.populate seed)
    connections := d.connections.map (Connection.populate seed)
    devices := d.devices.map (Device.populate seed) }

def volume? (d : Definition) (name : String) : Option Volume := d.volumes.find? (·.name == name)

def connection? (d : Definition) (name : String) : Option Connection :=
  d.connections.find? (·.name == name)

def device? (d : Definition) (name : String) : Option Device := d.devices.find? (·.name == name)

def members : List (Member Definition) := [
  .nameMap "vars" .string vars fun x d => { d with vars := x },
  .always "privileges" Group.privilegesCodec group fun x d => { d with group := x },
  .always "attrs" Attributes.codec attributes fun x d => { d with attributes := x },
  .list "volumes" Volume.codec volumes fun x d => { d with volumes := x },
  .list "connections" Connection.codec connections fun x d => { d with connections := x },
  .list "devices" Device.codec devices fun x d => { d with devices := x }]

def codec : Codec Definition := .record {} members

def summarize (d : Definition) (s : Summary) : Summary :=
  let a := d.attributes
  let cpu := a.cpu
  let s := s.addIf (!a.firmware.code.isEmpty) s!"Firmware Code: {a.firmware.code.display}"
  let s := s.addIf (!a.firmware.vars.isEmpty) s!"Firmware Vars: {a.firmware.vars.display}"
  let s := s.addIf (cpu.sockets > 0 || cpu.cores > 0 || cpu.threads > 0)
    s!"CPU: {cpu.sockets} socket(s), {cpu.cores} core(s), {cpu.threads} thread(s)"
  let s := s.addIf (a.ram > 0) s!"RAM: {a.ram} MiB"
  let s := s.addIf a.enlightenments "Enlightenments: Enabled"
  let s := s.addIf a.qmp.enabled "QMP: Enabled"
  let s := s.addIf a.agent.enabled "QEMU Guest Agent: Enabled"
  let s := s.addIf a.spice.enabled "SPICE: Enabled"
  let s := s.addIf a.tpm "TPM: Enabled"
  let s := s.addList "Volumes:" (d.volumes.map Volume.display)
  let s := s.addList "Connections:" (d.connections.map Connection.display)
  s.addList "Devices:" (d.devices.map Device.display)

end Definition

end GuestCompiler
