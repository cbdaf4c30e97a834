import GuestCompiler.CommandLine
import GuestCompiler.Host.Registry
import GuestCompiler.Path
import GuestCompiler.Text.Utf8

/-!
# Character devices and security modules

Character devices connect a guest's ports and monitors to sockets and display channels of the host.
A security module is the host's own, or software behind a character device.
-/
namespace GuestCompiler

inductive CharDevice
  | unixSocket (id : String) (path : Path) (server wait : Bool)
  /-- A server that does not wait for its client. -/
  | tcpSocket (id host : String) (port : Nat)
  | spiceChannel (id channel : String)
  | spicePort (id name : String)
  deriving DecidableEq

namespace CharDevice

def id : CharDevice → String
  | unixSocket id .. => id
  | tcpSocket id .. => id
  | spiceChannel id _ => id
  | spicePort id _ => id

instance : Named CharDevice := ⟨id⟩

/-- A socket that listens and does not wait for its client. -/
def unixServer (id : String) (path : Path) : CharDevice := .unixSocket id path true false

def backend : CharDevice → String
  | unixSocket .. => "socket"
  | tcpSocket .. => "socket"
  | spiceChannel .. => "spicevmc"
  | spicePort .. => "spiceport"

def parameters (d : CharDevice) : List Parameter :=
  .bare d.backend :: ⟨"id", d.id⟩ ::
    match d with
    | unixSocket _ path server wait =>
      Parameter.switch "server" server ++
        (if server && !wait then [⟨"wait", "off"⟩] else []) ++ [⟨"path", path.text⟩]
    | tcpSocket _ host port =>
      [⟨"host", host⟩, .number "port" port, ⟨"server", "on"⟩, ⟨"wait", "off"⟩,
        ⟨"nodelay", "on"⟩]
    | spiceChannel _ channel => [.number "debug" 0, ⟨"name", channel⟩]
    | spicePort _ name => [.number "debug" 0, ⟨"name", name⟩]

def maxId : Nat := 127

end CharDevice

abbrev CharDevices := Registry CharDevice

namespace CharDevices

def empty : CharDevices := { label := "character device registry" }

def add (d : CharDevice) : Edit Error CharDevices String := fun r =>
  if CharDevice.maxId < (Text.utf8 d.id).length then
    .error (.invalidArgument (.longCharDeviceId d.id CharDevice.maxId)) r
  else Registry.add d r

end CharDevices

inductive TpmDevice
  | passthrough (id : String) (path cancelPath : Option Path)
  /-- A module in software, behind a character device. -/
  | emulated (id charDevice : String)
  deriving DecidableEq

namespace TpmDevice

def id : TpmDevice → String
  | passthrough id _ _ => id
  | emulated id _ => id

instance : Named TpmDevice := ⟨id⟩

def backend : TpmDevice → String
  | passthrough .. => "passthrough"
  | emulated .. => "emulator"

def parameters (d : TpmDevice) : List Parameter :=
  .bare d.backend :: ⟨"id", d.id⟩ ::
    match d with
    | passthrough _ path cancelPath =>
      Parameter.given "path" (path.map (·.text)) ++
        Parameter.given "cancel-path" (cancelPath.map (·.text))
    | emulated _ charDevice => [⟨"chardev", charDevice⟩]

end TpmDevice

abbrev TpmDevices := Registry TpmDevice

def TpmDevices.empty : TpmDevices := { label := "TPM device registry" }

end GuestCompiler
