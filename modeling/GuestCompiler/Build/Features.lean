import GuestCompiler.Build.Target
import GuestCompiler.Catalog
import GuestCompiler.Pattern.Port

/-!
# Building a definition's attributes

The steps for the processor, the control protocol, the guest agent, the remote display and the
security module.
-/
namespace GuestCompiler.Build

/-- The processor that a machine names, or the host's default one. -/
def processorName (cpu : Cpu) (catalog : Catalog) : String :=
  orText cpu.processor (catalog.defaultProcessor?.getD "")

def hostProcessor? (machine : String) (cpu : Cpu) (catalog : Catalog) :
    Except Error (Option Processor) :=
  let name := processorName cpu catalog
  if name = "" then .ok none
  else
    match catalog.processors.get? name with
    | some processor => .ok (some processor)
    | none => .error (.unresolved "processor" ("machine " ++ machine) name)

/-- The brand is the host's; of the threads the machine's own number stands where it is set. -/
def guestProcessor (cpu : Cpu) (host : Option Processor) (enlightened : Bool) : Guest.Processor where
  brand := (host.map (·.brand)).getD ""
  sockets := cpu.sockets
  cores := cpu.cores
  threads := orNumber cpu.threads ((host.map (·.threads)).getD 0)
  enlightened := enlightened

def addProcessor (machine : String) (a : Attributes) (catalog : Catalog) :
    Edit Error Target Unit := do
  let host ← Edit.ofExcept (hostProcessor? machine a.cpu catalog)
  Target.onSettings fun s => { s with processor := guestProcessor a.cpu host a.enlightenments }

def addMonitor (path : Path) (index : Nat) : Edit Error Target Unit := do
  let id ← Target.onResources
    (Resources.addCharDevice (.unixServer ("qmp." ++ toString index) path))
  Target.onSettings fun s => { s with monitors := s.monitors ++ [{ charDevice := id }] }

def addQmp (machine : String) (qmp : Qmp) (runDir : Path) : Edit Error Target Unit :=
  if qmp.enabled then
    (qmp.socketPaths runDir machine).zipIdx.forM fun (path, index) => addMonitor path index
  else pure ()

/-- The port that is set, or else the one that the pattern names. -/
def effectivePort (service : String) (port : UInt16) (pattern : String) (vars : Vars) :
    Except Error (Option Nat) :=
  if port ≠ 0 then .ok (some port.toNat)
  else if pattern ≠ "" then
    match Pattern.expandPort vars.lookup pattern with
    | .ok n => .ok (some n)
    | .error fault => .error (.config (.portOf service pattern fault))
  else .ok none

def agentPort (agent : Agent) (vars : Vars) : Except Error Nat := do
  match ← effectivePort "QEMU guest agent" agent.port agent.portPattern vars with
  | some port => return port
  | none => throw (.config .noAgentPort)

def loopback : String := "127.0.0.1"

def addAgent (agent : Agent) (vars : Vars) : Edit Error Target Unit :=
  if agent.enabled then do
    let port ← Edit.ofExcept (agentPort agent vars)
    let socket ← Target.onResources
      (Resources.addCharDevice (.tcpSocket "guestagent" loopback port))
    let _ ← Target.onShared DeviceTree.serialController
      (Controller.addSerialPort socket "org.qemu.guest_agent.0")
  else pure ()

/-- Video memory in bytes. -/
def displayMemory : Nat := 67108864

def displayGlobals : List Guest.Global := [
  ⟨"qxl-vga", "ram_size", toString displayMemory⟩, ⟨"qxl-vga", "vram_size", toString displayMemory⟩]

/-- At least one display and at most four. -/
def displayCount (displays : UInt32) : Nat := max 1 (min displays.toNat 4)

/-- Redirection of a device at the viewer's end, over a channel of the display. -/
def addRedirection (index : Nat) : Edit Error Target Unit := do
  let channel ← Target.onResources
    (Resources.addCharDevice (.spiceChannel ("usbredir." ++ toString index) "usbredir"))
  let _ ← Target.onShared DeviceTree.usbController (Controller.addUsbRedirect channel)

def addSpice (spice : Spice) (vars : Vars) : Edit Error Target Unit :=
  if spice.enabled then do
    let port ← Edit.ofExcept (effectivePort "SPICE" spice.port spice.portPattern vars)
    Target.onSettings fun s => { s with
      spice := {
        enabled := true, port := port.getD 0, address := loopback, disableTicketing := true }
      globals := displayGlobals.foldl Guest.Global.add s.globals }
    (List.range (displayCount spice.displays)).forM fun _ => do
      let _ ← Target.onTopology Topology.addDisplay
    let agent ← Target.onResources
      (Resources.addCharDevice (.spiceChannel "vdagent" "vdagent"))
    let _ ← Target.onShared DeviceTree.serialController
      (Controller.addSerialPort agent "com.redhat.spice.0")
    let _ ← Target.onShared DeviceTree.usbController Controller.addUsbTablet
    (List.range 2).forM addRedirection
  else pure ()

def addTpm (machine : String) (enabled : Bool) (runDir : Path) : Edit Error Target Unit :=
  if enabled then do
    let socket ← Target.onResources (Resources.addCharDevice
      (.unixSocket "tpm.0.socket" (Attributes.tpmSocketPath runDir machine) false true))
    let device ← Target.onResources (Resources.addEmulatedTpm "tpm.0" socket)
    Target.onTopology (Topology.addTpm device)
  else pure ()

def addAttributes (machine : String) (vars : Vars) (a : Attributes) (catalog : Catalog)
    (runDir : Path) : Edit Error Target Unit := do
  addProcessor machine a catalog
  Target.onSettings fun s => { s with memory := a.ram }
  addQmp machine a.qmp runDir
  addAgent a.agent vars
  addSpice a.spice vars
  addTpm machine a.tpm runDir

end GuestCompiler.Build
