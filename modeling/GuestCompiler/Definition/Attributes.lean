import GuestCompiler.Definition.Entries
import GuestCompiler.Distinct

/-!
# Attributes

The settings of a definition, in groups. Laying one definition over another, a number or a text of
the upper one stands where it is set, a switch is on where either is on, and lists are joined
without repetition.
-/
namespace GuestCompiler

open Json

def orNumber {α : Type} [OfNat α 0] [DecidableEq α] (a b : α) : α := if a = 0 then b else a

def orText (a b : String) : String := if a = "" then b else a

/-- The volumes that hold a machine's firmware and what it remembers. -/
structure Firmware where
  code : Volume := {}
  vars : Volume := {}
  deriving DecidableEq

namespace Firmware

def isEmpty (f : Firmware) : Bool := f.code.isEmpty && f.vars.isEmpty

def overlay (a b : Firmware) : Firmware where
  code := if a.code.isEmpty then b.code else a.code
  vars := if a.vars.isEmpty then b.vars else a.vars

def codec : Codec Firmware := .record {} [
  .optional "code" Volume.codec Volume.isEmpty code fun x f => { f with code := x },
  .optional "vars" Volume.codec Volume.isEmpty vars fun x f => { f with vars := x }]

end Firmware

structure Cpu where
  processor : String := ""
  sockets : UInt32 := 0
  cores : UInt32 := 0
  threads : UInt32 := 0
  deriving DecidableEq

namespace Cpu

def overlay (a b : Cpu) : Cpu where
  processor := orText a.processor b.processor
  sockets := orNumber a.sockets b.sockets
  cores := orNumber a.cores b.cores
  threads := orNumber a.threads b.threads

def codec : Codec Cpu := .record {} [
  .string "processor" processor fun x c => { c with processor := x },
  .uint32 "sockets" sockets fun x c => { c with sockets := x },
  .uint32 "cores" cores fun x c => { c with cores := x },
  .uint32 "threads" threads fun x c => { c with threads := x }]

end Cpu

/-- Control sockets beyond the standard ones: names of sockets in the runtime directory, and paths
taken as they are. -/
structure Sockets where
  names : List String := []
  paths : List String := []
  deriving DecidableEq

def Sockets.codec : Codec Sockets := .record {} [
  .list "names" .string names fun x s => { s with names := x },
  .list "paths" .string paths fun x s => { s with paths := x }]

structure Qmp where
  enabled : Bool := false
  sockets : Sockets := {}
  deriving DecidableEq

namespace Qmp

def overlay (a b : Qmp) : Qmp where
  enabled := a.enabled || b.enabled
  sockets := {
    names := distinctBy id (a.sockets.names ++ b.sockets.names)
    paths := distinctBy id (a.sockets.paths ++ b.sockets.paths) }

def codec : Codec Qmp := .record {} [
  .flag "enabled" enabled fun x q => { q with enabled := x },
  .always "sockets" Sockets.codec sockets fun x q => { q with sockets := x }]

/-- The sockets that every machine with a control protocol has. -/
def standardSockets : List String := ["systemd.0", "command.0", "command.1"]

def socketPath (runDir : Path) (machine socket : String) : Path :=
  runDir.join (machine ++ ".qmp." ++ socket ++ ".sock")

/-- Standard, named and verbatim sockets in this order, each place once. -/
def socketPaths (q : Qmp) (runDir : Path) (machine : String) : List Path :=
  distinctBy Path.components
    ((standardSockets ++ q.sockets.names).map (socketPath runDir machine) ++
      q.sockets.paths.map Path.mk)

end Qmp

structure Agent where
  enabled : Bool := false
  port : UInt16 := 0
  portPattern : String := ""
  deriving DecidableEq

namespace Agent

def overlay (a b : Agent) : Agent where
  enabled := a.enabled || b.enabled
  port := orNumber a.port b.port
  portPattern := orText a.portPattern b.portPattern

def codec : Codec Agent := .record {} [
  .always "qemu" (.record {} [
    .flag "enabled" enabled fun x a => { a with enabled := x },
    .uint16 "port" port fun x a => { a with port := x },
    .string "port-pattern" portPattern fun x a => { a with portPattern := x }])
    id fun a _ => a]

end Agent

structure Spice where
  enabled : Bool := false
  port : UInt16 := 0
  portPattern : String := ""
  displays : UInt32 := 0
  deriving DecidableEq

namespace Spice

def overlay (a b : Spice) : Spice where
  enabled := a.enabled || b.enabled
  port := orNumber a.port b.port
  portPattern := orText a.portPattern b.portPattern
  displays := orNumber a.displays b.displays

def codec : Codec Spice := .record {} [
  .flag "enabled" enabled fun x s => { s with enabled := x },
  .uint16 "port" port fun x s => { s with port := x },
  .string "port-pattern" portPattern fun x s => { s with portPattern := x },
  .uint32 "displays" displays fun x s => { s with displays := x }]

end Spice

structure Attributes where
  firmware : Firmware := {}
  cpu : Cpu := {}
  /-- Memory in mebibytes. -/
  ram : UInt32 := 0
  /-- Whether the guest is shown a hypervisor of its own maker. -/
  enlightenments : Bool := false
  qmp : Qmp := {}
  agent : Agent := {}
  spice : Spice := {}
  tpm : Bool := false
  deriving DecidableEq

namespace Attributes

def overlay (a b : Attributes) : Attributes where
  firmware := a.firmware.overlay b.firmware
  cpu := a.cpu.overlay b.cpu
  ram := orNumber a.ram b.ram
  enlightenments := a.enlightenments || b.enlightenments
  qmp := a.qmp.overlay b.qmp
  agent := a.agent.overlay b.agent
  spice := a.spice.overlay b.spice
  tpm := a.tpm || b.tpm

def enabledCodec : Codec Bool := .record false [.flag "enabled" id fun x _ => x]

def codec : Codec Attributes := .record {} [
  .always "firmware" Firmware.codec firmware fun x a => { a with firmware := x },
  .always "cpu" Cpu.codec cpu fun x a => { a with cpu := x },
  .always "memory" (.record 0 [.uint32 "ram" id fun x _ => x]) ram fun x a => { a with ram := x },
  .always "enlightenments" enabledCodec enlightenments fun x a => { a with enlightenments := x },
  .always "qmp" Qmp.codec qmp fun x a => { a with qmp := x },
  .always "agent" Agent.codec agent fun x a => { a with agent := x },
  .always "spice" Spice.codec spice fun x a => { a with spice := x },
  .always "tpm" enabledCodec tpm fun x a => { a with tpm := x }]

/-- Where the software behind the security module listens. -/
def tpmSocketPath (runDir : Path) (machine : String) : Path :=
  runDir.join (machine ++ ".swtpm.sock")

end Attributes

end GuestCompiler
