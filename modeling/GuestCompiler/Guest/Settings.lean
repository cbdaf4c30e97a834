import GuestCompiler.Brand
import GuestCompiler.CommandLine
import GuestCompiler.Identity.Uuid
import GuestCompiler.Warning

/-!
# Guest settings

What a guest is apart from its devices: its name, clock, processor, memory, monitors, display and
the properties set for whole kinds of devices. `Settings.options` fixes the order.
-/
namespace GuestCompiler.Guest

structure Identity where
  name : String := ""
  id : Option Uuid := none
  deriving DecidableEq

namespace Identity

/-- The nil id is no id. -/
def options (i : Identity) : List CommandOption :=
  ((i.id.filter (!·.isNil)).toList.map fun id => ⟨"uuid", [.bare id.toString]⟩) ++
    if i.name = "" then [] else [⟨"name", [.bare i.name]⟩]

end Identity

/-- The block nodes that hold the firmware and what it remembers. -/
structure Firmware where
  code : Option String := none
  vars : Option String := none
  deriving DecidableEq

namespace Firmware

/-- The second flash device is there only beside the first. -/
def parameters (f : Firmware) : List Parameter :=
  match f.code with
  | none => []
  | some code => ⟨"pflash0", code⟩ :: Parameter.given "pflash1" f.vars

end Firmware

inductive ClockBase
  | utc
  | local
  deriving DecidableEq

inductive ClockSource
  | host
  | realtime
  | guest
  deriving DecidableEq

inductive DriftFix
  | none
  | slew
  deriving DecidableEq

structure Clock where
  base : Option ClockBase := .none
  source : Option ClockSource := .none
  driftFix : Option DriftFix := .none
  deriving DecidableEq

def ClockBase.text : ClockBase → String
  | utc => "utc"
  | .local => "localtime"

def ClockSource.text : ClockSource → String
  | host => "host"
  | realtime => "rt"
  | guest => "vm"

def DriftFix.text : DriftFix → String
  | none => "none"
  | slew => "slew"

namespace Clock

def parameters (c : Clock) : List Parameter :=
  Parameter.given "base" (c.base.map (·.text)) ++ Parameter.given "clock" (c.source.map (·.text)) ++
    Parameter.given "driftfix" (c.driftFix.map (·.text))

end Clock

structure Processor where
  brand : String := ""
  sockets : UInt32 := 0
  cores : UInt32 := 0
  threads : UInt32 := 0
  /-- Whether the guest is shown a hypervisor of its own maker. -/
  enlightened : Bool := false
  deriving DecidableEq

namespace Processor

/-- The enlightenments of every brand. -/
def enlightenments : List Parameter := [
  .flag "hv-relaxed", .flag "hv-vapic", ⟨"hv-spinlocks", "0x1fff"⟩, .flag "hv-vpindex",
  .flag "hv-runtime", .flag "hv-time", .flag "hv-synic", .flag "hv-stimer", .flag "hv-tlbflush",
  .flag "hv-ipi", .flag "hv-frequencies", .flag "hv-reenlightenment", .flag "hv-stimer-direct",
  .flag "hv-emsr-bitmap", .flag "hv-xmm-input", .flag "hv-tlbflush-ext", .flag "hv-tlbflush-direct"]

/-- The host's own processor and its features; on AMD threads are shown only with `topoext`. -/
def parameters (p : Processor) : List Parameter :=
  let amd := isBrand p.brand "AMD"
  .flag "host" :: (Parameter.switch "topoext" (amd && 1 < p.threads) ++
    if p.enlightened then
      enlightenments ++ Parameter.switch "hv-avic" amd ++
        if isBrand p.brand "Intel" then [.flag "hv-evmcs"] else []
    else [])

def count (name : String) (n : UInt32) : List Parameter :=
  if n = 0 then [] else [.number name n.toNat]

def layout (p : Processor) : List Parameter :=
  count "sockets" p.sockets ++ count "cores" p.cores ++ count "threads" p.threads

end Processor

/-- A control monitor on a character device. -/
structure Monitor where
  charDevice : String
  pretty : Bool := false
  deriving DecidableEq

def Monitor.parameters (m : Monitor) : List Parameter :=
  [⟨"chardev", m.charDevice⟩, ⟨"mode", "control"⟩] ++ if m.pretty then [.flag "pretty"] else []

/-- The remote display server. -/
structure Spice where
  enabled : Bool := false
  port : Nat := 0
  address : String := ""
  disableTicketing : Bool := false
  disableCopyPaste : Bool := false
  disableFileTransfer : Bool := false
  deriving DecidableEq

namespace Spice

/-- The mouse of the display does not work beside the emulated port, which is turned off. -/
def machineParameters (s : Spice) : List Parameter := if s.enabled then [⟨"vmport", "off"⟩] else []

def parameters (s : Spice) : List Parameter :=
  (if s.port = 0 then [] else [.number "port" s.port]) ++
    (if s.address = "" then [] else [⟨"addr", s.address⟩]) ++
    Parameter.switch "disable-ticketing" s.disableTicketing ++
    (if s.disableCopyPaste then [.flag "disable-copy-paste"] else []) ++
    if s.disableFileTransfer then [.flag "disable-agent-file-xfer"] else []

end Spice

/-- A property of all devices of one driver. -/
structure Global where
  driver : String
  property : String
  value : String
  deriving DecidableEq

namespace Global

def parameters (g : Global) : List Parameter :=
  [⟨"driver", g.driver⟩, ⟨"property", g.property⟩, ⟨"value", g.value⟩]

def isRepeated (gs : List Global) (g : Global) : Bool :=
  gs.any fun other => other.driver == g.driver && other.property == g.property

/-- The first value of a property stays. -/
def add (gs : List Global) (g : Global) : List Global := if isRepeated gs g then gs else gs ++ [g]

def warnings (gs : List Global) (g : Global) : List Warning :=
  if isRepeated gs g then [.repeatedGlobal g.driver g.property] else []

end Global

structure Settings where
  identity : Identity := {}
  firmware : Firmware := {}
  clock : Clock := {}
  processor : Processor := {}
  /-- Memory in mebibytes. -/
  memory : UInt32 := 0
  monitors : List Monitor := []
  spice : Spice := {}
  globals : List Global := []
  deriving DecidableEq

namespace Settings

/-- An option that is left out where it has no parameters. -/
def unlessEmpty (kind : String) (ps : List Parameter) : List CommandOption :=
  if ps = [] then [] else [⟨kind, ps⟩]

def memoryOptions (mebibytes : UInt32) : List CommandOption :=
  if mebibytes = 0 then [] else [⟨"m", [⟨"size", toString mebibytes.toNat ++ "M"⟩]⟩]

/-- The identity comes before what turns the machine on. -/
def options (s : Settings) : List CommandOption :=
  s.identity.options ++
    [⟨"enable-kvm", []⟩, ⟨"nodefaults", []⟩, ⟨"nographic", []⟩,
      ⟨"machine", ⟨"type", "q35"⟩ :: (s.spice.machineParameters ++ s.firmware.parameters)⟩,
      ⟨"cpu", s.processor.parameters⟩] ++
    unlessEmpty "smp" s.processor.layout ++ memoryOptions s.memory ++
    unlessEmpty "rtc" s.clock.parameters ++
    (s.monitors.map fun m => ⟨"mon", m.parameters⟩) ++
    (if s.spice.enabled then [⟨"spice", s.spice.parameters⟩] else []) ++
    (s.globals.map fun g => ⟨"global", g.parameters⟩) ++
    [⟨"boot", [⟨"menu", "on"⟩, .number "reboot-timeout" 5000]⟩]

end Settings

end GuestCompiler.Guest
