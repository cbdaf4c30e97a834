import GuestCompiler.Proofs.DeviceParameters
import GuestCompiler.Proofs.Handles

/-!
# Where the device of a step is

A step that is taken has a device at some path: what the step hands over is written for it, and its
id or its position is what the step answers (`TreeStep.Found`). The path is a new one, unless the
step asks for a shared controller that is there already (`TreeStep.yields_comes`); and as no device
is taken away, it is found there after any further steps (`TreeStep.Found.keep`).
-/
namespace GuestCompiler

open Edit Parameter

namespace Parameter

/-- Nothing among the parameters changes with the number of ports of a USB controller. -/
def Lasting (ps : List Parameter) : Prop := ∀ p ∈ ps, p.name ≠ "p2" ∧ p.name ≠ "p3"

@[simp] theorem lasting_nil : Lasting [] := List.forall_mem_nil _

@[simp] theorem lasting_cons {p : Parameter} {ps : List Parameter} :
    Lasting (p :: ps) ↔ (p.name ≠ "p2" ∧ p.name ≠ "p3") ∧ Lasting ps := List.forall_mem_cons

@[simp] theorem lasting_append {ps qs : List Parameter} :
    Lasting (ps ++ qs) ↔ Lasting ps ∧ Lasting qs := List.forall_mem_append

theorem lasting_given {name : String} (h : name ≠ "p2" ∧ name ≠ "p3") (value : Option String) :
    Lasting (Parameter.given name value) := List.forall_mem_map.2 fun _ _ => h

@[simp] theorem lasting_wwn (value : Option String) : Lasting (Parameter.given "wwn" value) :=
  lasting_given (by decide) value

@[simp] theorem lasting_serial (value : Option String) : Lasting (Parameter.given "serial" value) :=
  lasting_given (by decide) value

@[simp] theorem lasting_bootParameter (bootIndex : Option Nat) :
    Lasting (bootParameter bootIndex) :=
  lasting_given (by decide) _

/-- All of what is given is written. -/
def Says (ps given : List Parameter) : Prop := ∀ p ∈ given, get? ps p.name = some p.value

section Says

variable {ps : List Parameter}

@[simp] theorem says_nil : Says ps [] := List.forall_mem_nil _

@[simp] theorem says_cons {p : Parameter} {given : List Parameter} :
    Says ps (p :: given) ↔ get? ps p.name = some p.value ∧ Says ps given := List.forall_mem_cons

@[simp] theorem says_append {given more : List Parameter} :
    Says ps (given ++ more) ↔ Says ps given ∧ Says ps more := List.forall_mem_append

@[simp] theorem says_given {name : String} {value : Option String} :
    Says ps (Parameter.given name value) ↔ ∀ v, value = some v → get? ps name = some v := by
  cases value <;> simp [Parameter.given]

@[simp] theorem says_bootParameter {bootIndex : Option Nat} : Says ps (bootParameter bootIndex) ↔
    ∀ n, bootIndex = some n → get? ps "bootindex" = some (toString n) := by
  simp [bootParameter]

end Says

end Parameter

namespace Topology

variable {t t' : Topology} {path : Nat × DevicePart} {ps : List Parameter}

/-- There is a device at a path that led nowhere. -/
def Gains (t t' : Topology) (path : Nat × DevicePart) (ps : List Parameter) : Prop :=
  path ∉ t.paths ∧ t'.parameters? path = some ps

theorem gains_of_none (hold : t.parameters? path = none) (hnew : t'.parameters? path = some ps) :
    t.Gains t' path ps :=
  ⟨fun hmem => by simp [mem_paths, hold] at hmem, hnew⟩

theorem gains_last {d : TopLevel} (ht : t'.devices = t.devices ++ [d]) (part : DevicePart)
    (hd : d.parametersAt part = some ps) : t.Gains t' (t.devices.length, part) ps :=
  gains_of_none (by simp [parameters?]) (by simp [parameters?, ht, hd])

section Split

variable {before after : List TopLevel} {port : RootPort}

theorem gains_behind (ht : t.devices = before ++ .rootPort port :: after)
    (hfree : port.downstream = none) {device : Downstream}
    (ht' : t'.devices =
      before ++ .rootPort { port with downstream := some device } :: after) :
    t.Gains t' (before.length, .behind) device.parameters :=
  gains_of_none (by simp [parameters?, ht, TopLevel.parametersAt, TopLevel.downstream?, hfree])
    (by simp [parameters?, ht', TopLevel.parametersAt, TopLevel.downstream?])

theorem gains_endpoint (ht : t.devices = before ++ .rootPort port :: after) {c : Controller}
    (hc : port.downstream = some (.controller c)) (e : Endpoint)
    (ht' : t'.devices = before ++ .rootPort { port with
      downstream := some (.controller { c with endpoints := c.endpoints ++ [e] }) } :: after) :
    t.Gains t' (before.length, .endpoint c.endpoints.length)
      ([⟨"driver", e.driver⟩, ⟨"id", c.endpointId c.endpoints.length⟩, ⟨"bus", c.bus⟩] ++
        e.ownParameters) := by
  refine gains_of_none ?_ ?_
  · simp [parameters?, ht, TopLevel.parametersAt, TopLevel.controller?, TopLevel.downstream?, hc,
      Controller.endpointParameters]
  · simp [parameters?, ht', TopLevel.parametersAt, TopLevel.controller?, TopLevel.downstream?,
      Controller.endpointParameters, Controller.endpointId, Controller.bus]

end Split

end Topology

/-- What a controller of a kind is made with. -/
def ControllerKind.given : ControllerKind → List Parameter
  | scsi thread => [⟨"driver", "virtio-scsi-pci"⟩, ⟨"iothread", thread.id⟩]
  | usb => [⟨"driver", "qemu-xhci"⟩]
  | serial => [⟨"driver", "virtio-serial-pci"⟩]

theorem Controller.says_given (c : Controller) : Says c.parameters c.kind.given := by
  simp only [parameters, kindParameters]
  cases c.kind <;> simp [ControllerKind.given, ControllerKind.driver]

/-- What a request hands over to its endpoint. -/
def EndpointRequest.given : EndpointRequest → List Parameter
  | scsiDisk drive disk => [⟨"driver", "scsi-hd"⟩, ⟨"drive", drive⟩] ++
    Parameter.given "wwn" (disk.wwn.map Wwn.toString) ++ Parameter.given "serial" disk.serial ++
    bootParameter disk.bootIndex
  | scsiCd drive disk => [⟨"driver", "scsi-cd"⟩, ⟨"drive", drive⟩] ++
    Parameter.given "wwn" (disk.wwn.map Wwn.toString) ++ Parameter.given "serial" disk.serial ++
    bootParameter disk.bootIndex
  | usbTablet => [⟨"driver", "usb-tablet"⟩]
  | usbRedirect charDevice => [⟨"driver", "usb-redir"⟩, ⟨"chardev", charDevice⟩]
  | usbStorage drive bootIndex =>
    [⟨"driver", "usb-storage"⟩, ⟨"drive", drive⟩] ++ bootParameter bootIndex
  | serialPort charDevice name =>
    [⟨"driver", "virtserialport"⟩, ⟨"chardev", charDevice⟩, ⟨"name", name⟩]

/-- An answer is about the device at a path, with its parameters. -/
def TreeAnswer.IsAbout (path : Nat × DevicePart) (ps : List Parameter) : TreeAnswer → Prop
  | none => True
  | id name => get? ps "id" = some name
  | root r => path = (r.position, .self)
  | controller c => path = (c.position, .behind)

namespace TreeStep

/-- What a step hands over to its device. A display is of one driver or of another by its number,
and a disk behind a root port is not known by a World Wide Name. -/
def given : TreeStep → List Parameter
  | addRoot => [⟨"driver", RootPort.driver⟩]
  | addPanic => [⟨"driver", "pvpanic-pci"⟩]
  | addDisplay => []
  | addTpm tpmDevice => [⟨"driver", "tpm-tis"⟩, ⟨"tpmdev", tpmDevice⟩]
  | addCdrom drive bootIndex =>
    [⟨"driver", "ide-cd"⟩, ⟨"drive", drive⟩] ++ bootParameter bootIndex
  | addController _ kind => kind.given
  | addBlock _ thread drive disk =>
    [⟨"driver", "virtio-blk-pci"⟩, ⟨"iothread", thread.id⟩, ⟨"drive", drive⟩] ++
      Parameter.given "serial" disk.serial ++ bootParameter disk.bootIndex
  | addNetwork _ mac tap => [⟨"driver", "virtio-net-pci"⟩, ⟨"mac", mac.toString⟩, ⟨"netdev", tap⟩]
  | addVfio _ path => [⟨"driver", "vfio-pci"⟩, ⟨"sysfsdev", path.text⟩]
  | addEndpoint _ request => request.given
  | serialController => ControllerKind.serial.given
  | usbController => ControllerKind.usb.given
  | scsiController thread => (ControllerKind.scsi thread).given

/-- The kind whose shared controller a step asks for. -/
def kind? : TreeStep → Option ControllerKind
  | serialController => some .serial
  | usbController => some .usb
  | scsiController thread => some (.scsi thread)
  | _ => none

/-- The device of a step that gave an answer is at a path of a topology. -/
structure Found (step : TreeStep) (answer : TreeAnswer) (t : Topology) (path : Nat × DevicePart) :
    Prop where
  given : ∃ ps, t.parameters? path = some ps ∧ Says ps step.given ∧
    ∀ id, answer = .id id → get? ps "id" = some id
  root : ∀ r, answer = .root r → path = (r.position, .self)
  controller : ∀ c, answer = .controller c → path = (c.position, .behind)

variable {step : TreeStep} {answer : TreeAnswer} {t t' : Topology} {path : Nat × DevicePart}

theorem lasting_given (step : TreeStep) : Lasting step.given := by
  cases step with
  | addController _ kind => cases kind <;> simp [given, ControllerKind.given]
  | addEndpoint _ request => cases request <;> simp [given, EndpointRequest.given]
  | _ => simp [given, ControllerKind.given, RootPort.driver]

theorem Found.keep (h : step.Found answer t path) (hkeeps : t.KeepsDevices t') :
    step.Found answer t' path where
  given := by
    obtain ⟨ps, hps, hgiven, hid⟩ := h.given
    obtain ⟨ps', hps', hagree⟩ := hkeeps path ps hps
    refine ⟨ps', hps', fun p hp => ?_, fun id hanswer => ?_⟩
    · obtain ⟨h2, h3⟩ := step.lasting_given p hp
      exact (hagree p.name h2 h3).trans (hgiven p hp)
    · exact (hagree "id" (by decide) (by decide)).trans (hid id hanswer)
  root := h.root
  controller := h.controller

/-- The device of a step is where none was, unless it is a shared controller that is there. -/
def Comes (step : TreeStep) (answer : TreeAnswer) (t t' : DeviceTree) : Prop :=
  ∃ path, step.Found answer t'.topology path ∧
    ((∀ kind, step.kind? = some kind → t.shared? kind = none) → path ∉ t.topology.paths)

theorem found_of_isAbout {ps : List Parameter} (hps : t.parameters? path = some ps)
    (hgiven : Says ps step.given) (hanswer : answer.IsAbout path ps) :
    step.Found answer t path where
  given := by
    refine ⟨ps, hps, hgiven, ?_⟩
    rintro id rfl
    exact hanswer
  root := by
    rintro root rfl
    exact hanswer
  controller := by
    rintro controller rfl
    exact hanswer

theorem comes_of_gains {t t' : DeviceTree} {path : Nat × DevicePart} {ps : List Parameter}
    (h : t.topology.Gains t'.topology path ps) (hgiven : Says ps step.given)
    (hanswer : answer.IsAbout path ps) : step.Comes answer t t' :=
  ⟨path, found_of_isAbout h.2 hgiven hanswer, fun _ => h.1⟩

section Cases

variable {t : DeviceTree}

theorem comes_onTopology {α : Type} {edit : Edit Error Topology α} {answer : α → TreeAnswer}
    (h : Yields edit t.topology fun a top => step.Comes (answer a) t { t with topology := top }) :
    Yields (answer <$> DeviceTree.onTopology edit) t fun a t' => step.Comes a t t' :=
  meets_map.2 (meets_within.2 h)

theorem comes_addFunction {make : Topology → TopLevel × FamilyCounts × String}
    (hgiven : Says (make t.topology).1.parameters step.given)
    (hid : get? (make t.topology).1.parameters "id" = some (make t.topology).2.2) :
    Yields (.id <$> DeviceTree.onTopology (Topology.addFunction make)) t
      fun a t' => step.Comes a t t' := by
  refine comes_onTopology ((Topology.meets_addFunction make _).yields.imp ?_)
  rintro _ _ ⟨-, rfl, rfl⟩
  exact comes_of_gains (Topology.gains_last rfl .self rfl) hgiven hid

theorem comes_attach (root : RootPortRef) (family : String) {make : String → String → Downstream}
    (hid : ∀ id bus, (make id bus).id = id)
    (hgiven : ∀ id bus, Says (make id bus).parameters step.given) :
    Yields (.id <$> DeviceTree.onTopology (Topology.attach root family make)) t
      fun a t' => step.Comes a t t' := by
  refine comes_onTopology ((Topology.meets_attach root family make _).yields.imp ?_)
  rintro id top ⟨rfl, before, after, port, ht, -, hfree, rfl⟩
  refine comes_of_gains (Topology.gains_behind ht hfree rfl) (hgiven _ _) ?_
  rw [TreeAnswer.IsAbout, Downstream.get?_id, hid]

theorem comes_shared (kind : ControllerKind) (hkind : step.kind? = some kind)
    (hgiven : step.given = kind.given) (ht : t.Kinded) :
    Yields (.controller <$> DeviceTree.sharedController kind) t
      fun a t' => step.Comes a t t' := by
  refine meets_map.2 ?_
  cases href : t.shared? kind with
  | none =>
    refine (DeviceTree.meets_sharedController_first href).yields.imp ?_
    rintro _ _ ⟨-, rfl, rfl⟩
    refine comes_of_gains (Topology.gains_last rfl .behind rfl) ?_ rfl
    rw [hgiven]
    exact Controller.says_given _
  | some ref =>
    obtain ⟨c, hc, rfl⟩ := ht kind ref href
    obtain ⟨port, hport, hdown⟩ := Topology.controller?_eq_ok.1 hc
    have hps : t.topology.parameters? (ref.position, .behind) = some c.parameters := by
      rw [Topology.parameters?, hport, Option.bind_some, TopLevel.parametersAt,
        TopLevel.downstream?, hdown]
      rfl
    refine (DeviceTree.meets_sharedController_next href).yields.imp ?_
    rintro _ _ ⟨rfl, rfl⟩
    refine ⟨_, found_of_isAbout hps ?_ rfl, fun hnone => ?_⟩
    · rw [hgiven]
      exact c.says_given
    · rw [hnone _ hkind] at href
      cases href

end Cases

/-- A step that is taken has its device at some path. -/
theorem yields_comes (step : TreeStep) {t : DeviceTree} (ht : t.Kinded) :
    Yields step.edit t fun answer t' => step.Comes answer t t' := by
  cases step with
  | addRoot =>
    refine comes_onTopology ((Topology.meets_addRoot _).yields.imp ?_)
    rintro _ _ ⟨-, rfl, rfl⟩
    refine comes_of_gains (Topology.gains_last rfl .self rfl) ?_ rfl
    simp [given, TopLevel.parameters, RootPort.parameters]
  | addPanic =>
    refine comes_addFunction ?_ ?_
    · simp [given, TopLevel.parameters]
    · simp [TopLevel.parameters]
  | addDisplay =>
    refine comes_addFunction says_nil ?_
    simp [TopLevel.parameters]
  | addTpm tpmDevice =>
    refine comes_onTopology ?_
    refine comes_of_gains (Topology.gains_last rfl .self rfl) ?_ trivial
    simp [given, TopLevel.parameters]
  | addCdrom drive bootIndex =>
    refine comes_onTopology ((Topology.meets_addCdrom drive bootIndex _).yields.imp ?_)
    rintro _ _ ⟨-, rfl, rfl⟩
    refine comes_of_gains (Topology.gains_last rfl .self rfl) ?_ ?_
    · simp [given, TopLevel.parameters]
    · simp [TreeAnswer.IsAbout, TopLevel.parameters]
  | addController root kind =>
    refine comes_onTopology (meets_map.2 ((Topology.meets_attach root _ _ _).yields.imp ?_))
    rintro _ _ ⟨rfl, before, after, port, ht, hposition, hfree, rfl⟩
    refine comes_of_gains (Topology.gains_behind ht hfree rfl) (Controller.says_given _) ?_
    rw [TreeAnswer.IsAbout, hposition]
  | addBlock root thread drive disk =>
    refine comes_attach root "block" (fun _ _ => rfl) fun _ _ => ?_
    simp [given, Downstream.parameters, number]
  | addNetwork root mac tap =>
    refine comes_attach root "nic" (fun _ _ => rfl) fun _ _ => ?_
    simp [given, Downstream.parameters]
  | addVfio root path =>
    refine comes_attach root "vfio" (fun _ _ => rfl) fun _ _ => ?_
    simp [given, Downstream.parameters]
  | addEndpoint ref request =>
    refine comes_onTopology ((Topology.meets_onController ref request _).yields.imp ?_)
    rintro _ _ ⟨before, after, port, c, ht, -, hdown, -, -, rfl, rfl⟩
    refine comes_of_gains (Topology.gains_endpoint ht hdown _ rfl) ?_ ?_
    · cases request <;>
        simp [given, EndpointRequest.given, EndpointRequest.endpoint, Endpoint.driver,
          Endpoint.ownParameters, Endpoint.scsiParameters, number]
    · simp [TreeAnswer.IsAbout]
  | serialController => exact comes_shared .serial rfl rfl ht
  | usbController => exact comes_shared .usb rfl rfl ht
  | scsiController thread => exact comes_shared (.scsi thread) rfl rfl ht

end TreeStep

end GuestCompiler
