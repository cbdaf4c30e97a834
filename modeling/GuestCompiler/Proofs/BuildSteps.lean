import GuestCompiler.Build.Machine
import GuestCompiler.Proofs.Edit

/-!
# The steps of a build

What a build does is told beforehand, by the definition and by what is looked up for it, as a list
of steps (`Definition.steps`); a look-up that fails is a step of its own. The build is these steps,
one after the other (`Build.addDefinition_eq`), so that to know what each step does is to know what
a build does.
-/
namespace GuestCompiler

open Edit

section LookUps

/-- What it is to look something up for a build, and not to find it. -/
inductive Unfound : Error → Prop
  | unknown {kind referencer reference : String} :
    kind ∈ ["processor", "storage pool", "network", "device class"] →
    Unfound (.unresolved kind referencer reference)
  | unsupported {pool kind : String} : Unfound (.unsupportedType pool kind)
  | port {service pattern : String} {fault : Pattern.PortFault} :
    Unfound (.config (.portOf service pattern fault))
  | noAgentPort : Unfound (.config .noAgentPort)
  | noMac {connection : String} : Unfound (.invalidArgument (.noMac connection))
  | noDeviceId {device : String} : Unfound (.invalidArgument (.noDeviceId device))

variable {e : Error}

theorem PlacedVolume.unfound {machine : MachineInfo} {v : Volume} {pools : NameMap Pool}
    (h : resolve machine v pools = .error e) : Unfound e := by
  unfold resolve at h
  split at h <;> cases h
  exact .unknown (by simp)

theorem Attachment.unfound {p : PlacedVolume} (h : of p = .error e) : Unfound e := by
  unfold of at h
  split at h <;> cases h
  exact .unsupported

namespace Build

theorem unfound_of_hostProcessor? {machine : String} {cpu : Cpu} {catalog : Catalog}
    (h : hostProcessor? machine cpu catalog = .error e) : Unfound e := by
  simp only [hostProcessor?] at h
  split at h
  · exact nomatch h
  · split at h <;> cases h
    exact .unknown (by simp)

theorem unfound_of_effectivePort {service pattern : String} {port : UInt16} {vars : Vars}
    (h : effectivePort service port pattern vars = .error e) : Unfound e := by
  unfold effectivePort at h
  split at h
  · exact nomatch h
  · split at h
    · split at h <;> cases h
      exact .port
    · exact nomatch h

theorem unfound_of_agentPort {agent : Agent} {vars : Vars} (h : agentPort agent vars = .error e) :
    Unfound e := by
  rcases exceptBind_eq_error.1 h with hport | ⟨port, -, hnone⟩
  · exact unfound_of_effectivePort hport
  · cases port <;> cases hnone
    exact .noAgentPort

end Build

end LookUps

/-- A change of the settings alone. -/
inductive SettingStep
  | clock
  | identity (machine : MachineInfo)
  | code (node : String)
  | vars (node : String)
  | secureFlash
  | processor (p : Guest.Processor)
  | memory (ram : UInt32)
  /-- The remote display, listening on a port or on none. -/
  | display (port : Option Nat)

/-- The display as it listens on a port, or on none. -/
def Guest.Spice.listening (port : Option Nat) : Guest.Spice where
  enabled := true
  port := port.getD 0
  address := Build.loopback
  disableTicketing := true

def SettingStep.change : SettingStep → Guest.Settings → Guest.Settings
  | clock, s => { s with clock := Build.clock }
  | identity machine, s => { s with identity := ⟨machine.name, some machine.id⟩ }
  | code node, s => { s with firmware := { s.firmware with code := some node } }
  | vars node, s => { s with firmware := { s.firmware with vars := some node } }
  | secureFlash, s => { s with
      globals := Guest.Global.add s.globals ⟨"cfi.pflash01", "secure", "on"⟩ }
  | processor p, s => { s with processor := p }
  | memory ram, s => { s with memory := ram }
  | display port, s => { s with
      spice := .listening port
      globals := Build.displayGlobals.foldl Guest.Global.add s.globals }

inductive BuildStep
  /-- What a look-up fails for. -/
  | missing (e : Error) (h : Unfound e)
  | setting (s : SettingStep)
  | monitor (path : Path) (index : Nat)
  | panic
  | display
  | tablet
  /-- A character device, and a serial port for it. -/
  | serialChannel (d : CharDevice) (name : String)
  /-- A character device, and a USB device that redirects to it. -/
  | usbChannel (d : CharDevice)
  /-- A security module behind a socket. -/
  | securityModule (socket : Path)
  | volume (a : Attachment) (p : PlacedVolume)
  | connection (machine : MachineInfo) (network : Network) (mac : MacAddress) (c : Connection)
  | passthrough (d : Device) (path : Path)

namespace BuildStep

def edit : BuildStep → Edit Error Target Unit
  | missing e _ => throw e
  | setting s => Target.onSettings s.change
  | monitor path index => Build.addMonitor path index
  | panic => do let _ ← Target.onTopology Topology.addPanic
  | display => do let _ ← Target.onTopology Topology.addDisplay
  | tablet => do let _ ← Target.onShared DeviceTree.usbController Controller.addUsbTablet
  | serialChannel d name => do
    let id ← Target.onResources (Resources.addCharDevice d)
    let _ ← Target.onShared DeviceTree.serialController (Controller.addSerialPort id name)
  | usbChannel d => do
    let id ← Target.onResources (Resources.addCharDevice d)
    let _ ← Target.onShared DeviceTree.usbController (Controller.addUsbRedirect id)
  | securityModule path => do
    let socket ← Target.onResources
      (Resources.addCharDevice (.unixSocket "tpm.0.socket" path false true))
    let device ← Target.onResources (Resources.addEmulatedTpm "tpm.0" socket)
    Target.onTopology (Topology.addTpm device)
  | volume a p => a.apply p
  | connection machine network mac c => do
    let tap ← Target.onResources
      (Resources.addTap (c.linkName machine.name) network.up network.down)
    let root ← Target.onTopology Topology.addRoot
    let _ ← Target.onTopology (Topology.addNetwork root mac tap.id)
  | passthrough _ path => do
    let root ← Target.onTopology Topology.addRoot
    let _ ← Target.onTopology (Topology.addVfio root path)

/-- All of some steps, one after the other. -/
def run (steps : List BuildStep) : Edit Error Target Unit := steps.forM edit

/-- The steps that the answer of a look-up comes to. -/
def lookup {α : Type} (answer : Except Error α) (h : ∀ e, answer = .error e → Unfound e)
    (steps : α → List BuildStep) : List BuildStep :=
  match answer, h with
  | .ok a, _ => steps a
  | .error e, h => [missing e (h e rfl)]

end BuildStep

section Steps

variable (machine : MachineInfo) (pools : NameMap Pool)

/-- A volume, after what refers to its node. -/
def Volume.steps (refer : String → List SettingStep) (v : Volume) : List BuildStep :=
  BuildStep.lookup (PlacedVolume.resolve machine v pools) (fun _ => PlacedVolume.unfound) fun p =>
    BuildStep.lookup (Attachment.of p) (fun _ => Attachment.unfound) fun a =>
      (refer (a.nodeName p)).map .setting ++ [.volume a p]

def Firmware.steps (f : Firmware) : List BuildStep :=
  if f.code.isEmpty then []
  else
    f.code.steps machine pools (fun node => [.code node]) ++
      ((if f.vars.isEmpty then [] else f.vars.steps machine pools fun node => [.vars node]) ++
        [.setting .secureFlash])

def Qmp.steps (name : String) (runDir : Path) (q : Qmp) : List BuildStep :=
  if q.enabled then (q.socketPaths runDir name).zipIdx.map fun x => .monitor x.1 x.2 else []

def Agent.steps (vars : Vars) (a : Agent) : List BuildStep :=
  if a.enabled then
    BuildStep.lookup (Build.agentPort a vars) (fun _ => Build.unfound_of_agentPort) fun port =>
      [.serialChannel (.tcpSocket "guestagent" Build.loopback port) "org.qemu.guest_agent.0"]
  else []

def Spice.steps (vars : Vars) (s : Spice) : List BuildStep :=
  if s.enabled then
    BuildStep.lookup (Build.effectivePort "SPICE" s.port s.portPattern vars)
        (fun _ => Build.unfound_of_effectivePort) fun port =>
      .setting (.display port) :: List.replicate (Build.displayCount s.displays) .display ++
      [.serialChannel (.spiceChannel "vdagent" "vdagent") "com.redhat.spice.0", .tablet,
        .usbChannel (.spiceChannel "usbredir.0" "usbredir"),
        .usbChannel (.spiceChannel "usbredir.1" "usbredir")]
  else []

def Attributes.steps (name : String) (vars : Vars) (catalog : Catalog) (runDir : Path)
    (a : Attributes) : List BuildStep :=
  BuildStep.lookup (Build.hostProcessor? name a.cpu catalog)
      (fun _ => Build.unfound_of_hostProcessor?) (fun host =>
        [.setting (.processor (Build.guestProcessor a.cpu host a.enlightenments))]) ++
    .setting (.memory a.ram) :: (a.qmp.steps name runDir ++ (a.agent.steps vars ++
      (a.spice.steps vars ++
        if a.tpm then [.securityModule (Attributes.tpmSocketPath runDir name)] else [])))

def Connection.steps (networks : NameMap Network) (c : Connection) : List BuildStep :=
  match networks.get? c.network, c.mac with
  | none, _ =>
    [.missing (.unresolved "network" ("connection " ++ c.name) c.network) (.unknown (by simp))]
  | some _, none => [.missing (.invalidArgument (.noMac c.name)) .noMac]
  | some network, some mac => [.connection machine network mac c]

def Device.steps (catalog : Catalog) (d : Device) : List BuildStep :=
  if catalog.devicesOfClass d.deviceClass = [] then
    [.missing (.unresolved "device class" ("device " ++ d.name) d.deviceClass) (.unknown (by simp))]
  else
    match d.sysfsPath with
    | none => [.missing (.invalidArgument (.noDeviceId d.name)) .noDeviceId]
    | some path => [.passthrough d path]

/-- The steps of the entries of a definition. -/
def Definition.entrySteps (catalog : Catalog) (vs : List Volume) (cs : List Connection)
    (ds : List Device) : List BuildStep :=
  vs.flatMap (Volume.steps machine catalog.pools fun _ => []) ++
    (cs.flatMap (Connection.steps machine catalog.networks) ++ ds.flatMap (Device.steps catalog))

def Definition.steps (catalog : Catalog) (locations : Locations) (d : Definition) :
    List BuildStep :=
  [.setting .clock, .panic, .setting (.identity machine)] ++
    (d.attributes.firmware.steps machine catalog.pools ++
      (d.attributes.steps machine.name (Vars.merge [machine.vars, d.vars]) catalog
        locations.runDir ++
        Definition.entrySteps machine catalog d.volumes d.connections d.devices))

end Steps

namespace BuildStep

@[simp] theorem run_nil : run [] = pure () := rfl

@[simp] theorem run_cons (step : BuildStep) (steps : List BuildStep) :
    run (step :: steps) = (step.edit >>= fun _ => run steps) := rfl

@[simp] theorem run_append (steps more : List BuildStep) :
    run (steps ++ more) = (run steps >>= fun _ => run more) := by
  induction steps with
  | nil => rfl
  | cons step steps ih => rw [List.cons_append, run_cons, ih, run_cons, bind_assoc]

theorem run_flatMap {α : Type} (steps : α → List BuildStep) (xs : List α) :
    run (xs.flatMap steps) = xs.forM fun x => run (steps x) := by
  induction xs with
  | nil => rfl
  | cons x xs ih =>
    rw [List.flatMap_cons, run_append, ih]
    rfl

theorem run_map {α : Type} (step : α → BuildStep) (xs : List α) :
    run (xs.map step) = xs.forM fun x => (step x).edit := by
  induction xs with
  | nil => rfl
  | cons x xs ih =>
    rw [List.map_cons, run_cons, ih]
    rfl

theorem run_lone (step : BuildStep) : run [step] = step.edit := by
  rw [run_cons, run_nil, bind_pure_unit]

theorem run_lookup {α : Type} (answer : Except Error α)
    (h : ∀ e, answer = .error e → Unfound e) (steps : α → List BuildStep) :
    run (lookup answer h steps) = (Edit.ofExcept answer >>= fun a => run (steps a)) := by
  cases answer <;> rfl

end BuildStep

namespace Build

open BuildStep

section Features

variable {machine : MachineInfo} {pools : NameMap Pool}

theorem addVolume_eq (v : Volume) :
    addVolume machine pools v = run (v.steps machine pools fun _ => []) := by
  simp only [Volume.steps, run_lookup, List.map_nil, List.nil_append, run_lone]
  rfl

theorem addFirmwareVolume_eq (v : Volume) {refer : String → Guest.Firmware → Guest.Firmware}
    (step : String → SettingStep)
    (h : ∀ node s, (step node).change s = { s with firmware := refer node s.firmware }) :
    addFirmwareVolume machine pools v refer =
      run (v.steps machine pools fun node => [step node]) := by
  simp only [Volume.steps, run_lookup, List.map_cons, List.map_nil, List.cons_append,
    List.nil_append, run_cons, run_nil, bind_pure_unit, edit, funext (h _), addFirmwareVolume]

theorem addFirmware_eq (f : Firmware) :
    addFirmware machine pools f = run (f.steps machine pools) := by
  have hsecure : (setting .secureFlash).edit = Target.onSettings fun s => { s with
      globals := Guest.Global.add s.globals ⟨"cfi.pflash01", "secure", "on"⟩ } := rfl
  unfold addFirmware Firmware.steps
  rw [addFirmwareVolume_eq f.code .code fun _ _ => rfl,
    addFirmwareVolume_eq f.vars .vars fun _ _ => rfl, ← hsecure]
  cases f.code.isEmpty with
  | true => rfl
  | false => cases f.vars.isEmpty <;> simp

theorem addConnection_eq (networks : NameMap Network) (c : Connection) :
    addConnection machine networks c = run (c.steps machine networks) := by
  unfold addConnection Connection.steps
  cases networks.get? c.network <;> cases c.mac <;> simp only [run_lone] <;> rfl

end Features

theorem addDevice_eq (catalog : Catalog) (d : Device) :
    addDevice catalog d = run (d.steps catalog) := by
  unfold addDevice Device.steps
  split
  · rfl
  · cases d.sysfsPath <;> simp only [run_lone] <;> rfl

theorem addQmp_eq (name : String) (q : Qmp) (runDir : Path) :
    addQmp name q runDir = run (q.steps name runDir) := by
  unfold addQmp Qmp.steps
  split
  · rw [run_map]
    rfl
  · rfl

theorem addAgent_eq (a : Agent) (vars : Vars) : addAgent a vars = run (a.steps vars) := by
  unfold addAgent Agent.steps
  split
  · simp only [run_lookup, run_lone]
    rfl
  · rfl

theorem run_displays (n : Nat) : run (List.replicate n .display) =
    (List.range n).forM fun _ => BuildStep.display.edit := by
  have hall : List.replicate n display = (List.range n).map fun _ => display := by
    simp [List.map_const']
  rw [hall, run_map]

theorem addSpice_eq (s : Spice) (vars : Vars) : addSpice s vars = run (s.steps vars) := by
  have hredirections : (List.range 2).forM addRedirection = (do
      addRedirection 0
      addRedirection 1) := by
    rw [← bind_pure_unit (x := addRedirection 1)]
    rfl
  unfold addSpice Spice.steps
  rw [hredirections]
  split
  · simp only [run_lookup, List.cons_append, run_cons, run_nil, run_append, run_displays, edit,
      bind_assoc, pure_bind, addRedirection]
    rfl
  · rfl

theorem addTpm_eq (name : String) (enabled : Bool) (runDir : Path) :
    addTpm name enabled runDir = run
      (if enabled then [.securityModule (Attributes.tpmSocketPath runDir name)] else []) := by
  unfold addTpm
  split
  · rw [run_lone]
    rfl
  · rfl

theorem addAttributes_eq (name : String) (vars : Vars) (a : Attributes) (catalog : Catalog)
    (runDir : Path) : addAttributes name vars a catalog runDir =
      run (a.steps name vars catalog runDir) := by
  unfold addAttributes Attributes.steps
  rw [addQmp_eq, addAgent_eq, addSpice_eq, addTpm_eq]
  simp only [run_append, run_lookup, run_cons, run_nil, bind_pure_unit]
  rfl

theorem addDefinition_eq (machine : MachineInfo) (d : Definition) (catalog : Catalog)
    (locations : Locations) :
    addDefinition machine d catalog locations = run (d.steps machine catalog locations) := by
  have hvolumes : addVolume machine catalog.pools = _ := funext addVolume_eq
  have hconnections : addConnection machine catalog.networks = _ := funext (addConnection_eq _)
  have hdevices : addDevice catalog = _ := funext (addDevice_eq catalog)
  unfold addDefinition Definition.steps Definition.entrySteps
  rw [addFirmware_eq, addAttributes_eq, hvolumes, hconnections, hdevices]
  simp only [run_append, run_flatMap, run_cons, run_nil, edit, bind_assoc, pure_bind, addDefaults]
  rfl

end Build

namespace Machine

variable {m : Machine} {catalog : Catalog} {locations : Locations} {d : Definition} {t : Target}

/-- What a build answers is what its steps leave of the empty target. -/
theorem addDefinition_of_build (h : m.build catalog locations = .ok t) :
    ∃ d, m.resolve catalog = .ok d ∧
      Build.addDefinition m.info d catalog locations {} = .ok () t := by
  unfold build compile at h
  cases hd : m.resolve catalog with
  | error e => simp [hd, bind, Except.bind, Except.mapError] at h
  | ok d =>
    refine ⟨d, rfl, ?_⟩
    simp only [hd, bind, Except.bind] at h
    split at h
    · rename_i hrun
      cases h
      exact hrun
    · exact nomatch h

/-- A build is what its steps come to on the empty target. -/
theorem build_eq (hd : m.resolve catalog = .ok d) :
    m.build catalog locations = match Build.addDefinition m.info d catalog locations {} with
      | .ok _ t => .ok t
      | .error e _ => .error (e.forMachine m.name) := by
  simp only [build, compile, hd, bind, Except.bind]
  cases Build.addDefinition m.info d catalog locations {} <;> rfl

theorem build_of_addDefinition (hd : m.resolve catalog = .ok d)
    (hrun : Build.addDefinition m.info d catalog locations {} = .ok () t) :
    m.build catalog locations = .ok t := by
  rw [build_eq hd, hrun]

theorem run_of_build (hd : m.resolve catalog = .ok d) (h : m.build catalog locations = .ok t) :
    BuildStep.run (d.steps m.info catalog locations) {} = .ok () t := by
  obtain ⟨d', hd', hrun⟩ := addDefinition_of_build h
  cases hd.symm.trans hd'
  rwa [Build.addDefinition_eq] at hrun

end Machine

end GuestCompiler
