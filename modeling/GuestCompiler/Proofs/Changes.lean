import GuestCompiler.Devices.Tree
import GuestCompiler.Proofs.Edit

/-!
# Changes of a topology

There are seven ways in which an edit can change a topology (`Topology.Change`), and a few reasons
for which it can be refused (`Topology.Refusal`); a refused edit leaves the topology as it was. The
`change` lemmas say of each edit which of them it is.
-/
namespace GuestCompiler

open Edit

namespace Downstream

/-- What a device is numbered with others under. -/
def family : Downstream → String
  | controller c => c.kind.family
  | block .. => "block"
  | network .. => "nic"
  | vfio .. => "vfio"

def id : Downstream → String
  | controller c => c.id
  | block id .. => id
  | network id .. => id
  | vfio id .. => id

/-- The port that a device is behind. -/
def bus : Downstream → String
  | controller c => c.parent
  | block _ bus .. => bus
  | network _ bus .. => bus
  | vfio _ bus _ => bus

def endpoints : Downstream → List Endpoint
  | controller c => c.endpoints
  | _ => []

/-- A new device of a family, behind a port, with nothing attached to it yet. -/
structure New (d : Downstream) (family id bus : String) : Prop where
  family : d.family = family
  id : d.id = id
  bus : d.bus = bus
  endpoints : d.endpoints = []

end Downstream

/-- Where an endpoint is on the bus of its controller. -/
def Endpoint.place : Endpoint → Parameter
  | scsiDisk lun .. => .number "lun" lun
  | scsiCd lun .. => .number "lun" lun
  | usbTablet port => .number "port" port
  | usbRedirect port _ => .number "port" port
  | usbStorage port .. => .number "port" port
  | serialPort number .. => .number "nr" number

/-- The place that a controller gives to the endpoint of a position; only SCSI counts from 0. -/
def ControllerKind.place : ControllerKind → Nat → Parameter
  | scsi _, position => .number "lun" position
  | usb, position => .number "port" (position + 1)
  | serial, position => .number "nr" (position + 1)

namespace TopLevel

theorem downstream?_eq_some {d : TopLevel} {device : Downstream} :
    d.downstream? = some device ↔ ∃ port, d = .rootPort port ∧ port.downstream = some device := by
  cases d <;> simp [downstream?]

theorem controller?_eq_some {d : TopLevel} {c : Controller} :
    d.controller? = some c ↔ d.downstream? = some (.controller c) := by
  unfold controller?
  split
  · simp_all
  · rename_i hother
    exact ⟨nofun, fun h => absurd h (hother c)⟩

end TopLevel

namespace Topology

theorem root?_eq_ok {t : Topology} {r : RootPortRef} {port : RootPort} :
    t.root? r = .ok port ↔ t.devices[r.position]? = some (.rootPort port) := by
  simp only [root?]
  split
  · rename_i port' hport'
    simp [hport']
  · rename_i hother
    exact ⟨nofun, fun h => absurd h (hother port)⟩

theorem controller?_eq_ok {t : Topology} {c : ControllerRef} {controller : Controller} :
    t.controller? c = .ok controller ↔ ∃ port, t.devices[c.position]? = some (.rootPort port) ∧
      port.downstream = some (.controller controller) := by
  simp only [controller?]
  constructor
  · intro h
    split at h <;> cases h
    rename_i hbind
    obtain ⟨d, hd, hc⟩ := Option.bind_eq_some_iff.1 hbind
    obtain ⟨port, rfl, hport⟩ :=
      TopLevel.downstream?_eq_some.1 (TopLevel.controller?_eq_some.1 hc)
    exact ⟨port, hd, hport⟩
  · rintro ⟨port, hport, hdown⟩
    have hc : TopLevel.controller? (.rootPort port) = some controller :=
      TopLevel.controller?_eq_some.2 hdown
    rw [hport, Option.bind_some, hc]

def controllers (t : Topology) : List Controller := t.devices.filterMap TopLevel.controller?

theorem mem_controllers {t : Topology} {c : Controller} : c ∈ t.controllers ↔
    ∃ port, .rootPort port ∈ t.devices ∧ port.downstream = some (.controller c) := by
  simp only [controllers, List.mem_filterMap]
  constructor
  · rintro ⟨d, hd, hc⟩
    obtain ⟨port, rfl, hdown⟩ :=
      TopLevel.downstream?_eq_some.1 (TopLevel.controller?_eq_some.1 hc)
    exact ⟨port, hd, hdown⟩
  · rintro ⟨port, hport, hdown⟩
    exact ⟨_, hport, TopLevel.controller?_eq_some.2 hdown⟩

/-- The root port that takes the next function. -/
def newPort (t : Topology) : RootPort where
  id := "pcie." ++ (PciAddress.ofIndex t.functions).text
  address := .ofIndex t.functions
  chassis := t.functions + 1

def withRoot (t : Topology) : Topology :=
  { t with devices := t.devices ++ [.rootPort t.newPort], functions := t.functions + 1 }

/-- A device comes last, or behind a free port, or to a controller that has room. -/
inductive Change (t : Topology) : Topology → Prop
  | root : t.functions < maxFunctions → Change t t.withRoot
  | panic : t.functions < maxFunctions → Change t { t with
      devices := t.devices ++ [.panic (t.counts.next "panic") (.ofIndex t.functions)]
      counts := t.counts.advance "panic"
      functions := t.functions + 1 }
  | display : t.functions < maxFunctions → Change t { t with
      devices := t.devices ++ [.display (t.counts.next "qxl") (.ofIndex t.functions)
        (t.counts.count "qxl" == 0)]
      counts := t.counts.advance "qxl"
      functions := t.functions + 1 }
  | tpm (tpmDevice : String) : Change t { t with devices := t.devices ++ [.tpm tpmDevice] }
  | cdrom (drive : String) (bootIndex : Option Nat) : t.sata < maxSata → Change t { t with
      devices := t.devices ++
        [.cdrom (t.counts.next "sata") ("ide." ++ toString t.sata) drive bootIndex]
      counts := t.counts.advance "sata"
      sata := t.sata + 1 }
  | behind {before after : List TopLevel} {port : RootPort} {family : String}
      {device : Downstream} : t.devices = before ++ .rootPort port :: after →
    port.downstream = none → device.New family (t.counts.next family) port.id → Change t { t with
      devices := before ++ .rootPort { port with downstream := some device } :: after
      counts := t.counts.advance family }
  | endpoint {before after : List TopLevel} {port : RootPort} {c : Controller} {e : Endpoint} :
    t.devices = before ++ .rootPort port :: after → port.downstream = some (.controller c) →
    c.endpoints.length < c.kind.capacity → e.place = c.kind.place c.endpoints.length →
    Change t { t with
      devices := before ++ .rootPort { port with
        downstream := some (.controller { c with endpoints := c.endpoints ++ [e] }) } :: after }

/-- Why a topology refuses a device. -/
inductive Refusal (t : Topology) : Error → Prop
  | complexFull : maxFunctions ≤ t.functions →
    Refusal t (.capacity "PCI Express root complex" maxFunctions t.functions)
  | sataFull : maxSata ≤ t.sata → Refusal t (.capacity "SATA controller" maxSata t.sata)
  | controllerFull {c : Controller} : c ∈ t.controllers → c.kind.capacity ≤ c.endpoints.length →
    Refusal t (.capacity c.title c.kind.capacity c.endpoints.length)
  | occupied {port : RootPort} : .rootPort port ∈ t.devices → port.downstream.isSome →
    Refusal t (.occupied port.id)
  | argument (fault : ArgumentFault) : Refusal t (.invalidArgument fault)

section Edits

theorem meets_addFunction {α : Type} (make : Topology → TopLevel × FamilyCounts × α)
    (t : Topology) : Meets (addFunction make) t
      (fun answer t' => t.functions < maxFunctions ∧ answer = (make t).2.2 ∧ t' = { t with
        devices := t.devices ++ [(make t).1]
        counts := (make t).2.1
        functions := t.functions + 1 })
      (fun e t' => t' = t ∧ maxFunctions ≤ t.functions ∧
        e = .capacity "PCI Express root complex" maxFunctions t.functions) := by
  simp only [Meets, addFunction]
  by_cases hfull : maxFunctions ≤ t.functions
  · rw [if_pos hfull]
    exact ⟨rfl, hfull, rfl⟩
  · rw [if_neg hfull]
    exact ⟨Nat.lt_of_not_le hfull, rfl, rfl⟩

theorem refusal_of_full {t t' : Topology} {e : Error} (h : t' = t ∧ maxFunctions ≤ t.functions ∧
    e = .capacity "PCI Express root complex" maxFunctions t.functions) :
    t' = t ∧ t.Refusal e := by
  obtain ⟨rfl, hfull, rfl⟩ := h
  exact ⟨rfl, .complexFull hfull⟩

theorem meets_addRoot (t : Topology) : Meets addRoot t
    (fun root t' => t.functions < maxFunctions ∧ root = ⟨t.devices.length⟩ ∧ t' = t.withRoot)
    (fun e t' => t' = t ∧ t.Refusal e) :=
  (meets_addFunction _ t).mono (fun _ _ h => h) fun _ _ => refusal_of_full

theorem meets_addCdrom (drive : String) (bootIndex : Option Nat) (t : Topology) :
    Meets (addCdrom drive bootIndex) t
      (fun id t' => t.sata < maxSata ∧ id = t.counts.next "sata" ∧ t' = { t with
        devices := t.devices ++
          [.cdrom (t.counts.next "sata") ("ide." ++ toString t.sata) drive bootIndex]
        counts := t.counts.advance "sata"
        sata := t.sata + 1 })
      (fun e t' => t' = t ∧ t.Refusal e) := by
  simp only [Meets, addCdrom]
  by_cases hfull : maxSata ≤ t.sata
  · rw [if_pos hfull]
    exact ⟨rfl, .sataFull hfull⟩
  · rw [if_neg hfull]
    exact ⟨Nat.lt_of_not_le hfull, rfl, rfl⟩

theorem exists_split {α : Type} {xs : List α} {i : Nat} {x : α} (h : xs[i]? = some x) :
    ∃ before after, xs = before ++ x :: after ∧ before.length = i := by
  obtain ⟨hi, rfl⟩ := List.getElem?_eq_some_iff.1 h
  refine ⟨xs.take i, xs.drop (i + 1), ?_, by simp [Nat.le_of_lt hi]⟩
  rw [← List.drop_eq_getElem_cons hi, List.take_append_drop]

section Split

variable {t : Topology} {before after : List TopLevel} {port : RootPort}

theorem attach_of_free (ht : t.devices = before ++ .rootPort port :: after)
    (hfree : port.downstream = none) (family : String) (make : String → String → Downstream) :
    attach ⟨before.length⟩ family make t = .ok (t.counts.next family) { t with
      devices := before ++ .rootPort { port with
        downstream := some (make (t.counts.next family) port.id) } :: after
      counts := t.counts.advance family } := by
  have hroot : t.root? ⟨before.length⟩ = .ok port := by simp [root?, ht]
  simp [attach, hroot, hfree, ht]

theorem setDownstream_of_split (ht : t.devices = before ++ .rootPort port :: after)
    (device : Downstream) : t.setDownstream before.length device = { t with
      devices := before ++ .rootPort { port with downstream := some device } :: after } := by
  have hmodify (f : TopLevel → TopLevel) :
      (before ++ .rootPort port :: after).modify before.length f =
        before ++ f (.rootPort port) :: after := by
    rw [List.modify_eq_take_cons_drop (by simp)]
    simp
  rw [setDownstream, ht, hmodify]

/-- A controller that is put back where it is changes nothing. -/
theorem setDownstream_self {ref : ControllerRef} {c : Controller} (hc : t.controller? ref = .ok c) :
    t.setDownstream ref.position (.controller c) = t := by
  obtain ⟨port, hport, hdown⟩ := controller?_eq_ok.1 hc
  obtain ⟨before, after, ht, hposition⟩ := exists_split hport
  rw [← hposition, setDownstream_of_split ht, ← hdown, ← ht]

end Split

theorem meets_attach (root : RootPortRef) (family : String) (make : String → String → Downstream)
    (t : Topology) : Meets (attach root family make) t
      (fun id t' => id = t.counts.next family ∧ ∃ before after port,
        t.devices = before ++ .rootPort port :: after ∧ before.length = root.position ∧
        port.downstream = none ∧ t' = { t with
          devices := before ++ .rootPort { port with
            downstream := some (make (t.counts.next family) port.id) } :: after
          counts := t.counts.advance family })
      (fun e t' => t' = t ∧ t.Refusal e) := by
  cases hroot : t.root? root with
  | error e =>
    have hfault : ∃ fault, e = .invalidArgument fault := by
      simp only [root?] at hroot
      split at hroot <;> cases hroot
      exact ⟨_, rfl⟩
    obtain ⟨fault, rfl⟩ := hfault
    simp only [Meets, attach, hroot]
    exact ⟨trivial, .argument fault⟩
  | ok port =>
    have hport : t.devices[root.position]? = some (.rootPort port) := root?_eq_ok.1 hroot
    cases hdown : port.downstream with
    | some device =>
      simp only [Meets, attach, hroot, hdown, Option.isSome_some, if_true]
      exact ⟨trivial, .occupied (List.mem_of_getElem? hport) (by rw [hdown]; rfl)⟩
    | none =>
      obtain ⟨before, after, ht, hposition⟩ := exists_split hport
      rw [Meets, ← show (⟨before.length⟩ : RootPortRef) = root from congrArg _ hposition,
        attach_of_free ht hdown]
      exact ⟨rfl, before, after, port, ht, rfl, hdown, rfl⟩

theorem change_addPanic (t : Topology) : Meets addPanic t (fun _ t' => t.Change t')
    (fun e t' => t' = t ∧ t.Refusal e) :=
  (meets_addFunction _ t).mono (fun _ _ ⟨hroom, _, ht⟩ => ht ▸ .panic hroom) fun _ _ =>
    refusal_of_full

theorem change_addDisplay (t : Topology) : Meets addDisplay t (fun _ t' => t.Change t')
    (fun e t' => t' = t ∧ t.Refusal e) :=
  (meets_addFunction _ t).mono (fun _ _ ⟨hroom, _, ht⟩ => ht ▸ .display hroom) fun _ _ =>
    refusal_of_full

theorem change_addCdrom (drive : String) (bootIndex : Option Nat) (t : Topology) :
    Meets (addCdrom drive bootIndex) t (fun _ t' => t.Change t')
      (fun e t' => t' = t ∧ t.Refusal e) :=
  (meets_addCdrom drive bootIndex t).imp fun _ _ ⟨hroom, _, ht⟩ => ht ▸ .cdrom drive bootIndex hroom

theorem change_attach (root : RootPortRef) {family : String} {make : String → String → Downstream}
    (hmake : ∀ id bus, (make id bus).New family id bus) (t : Topology) :
    Meets (attach root family make) t (fun _ t' => t.Change t')
      (fun e t' => t' = t ∧ t.Refusal e) := by
  refine (meets_attach root family make t).imp ?_
  rintro _ _ ⟨-, before, after, port, ht, -, hfree, rfl⟩
  exact .behind ht hfree (hmake _ _)

/-- A port that has just come is free, so that a controller can always be put behind it. -/
theorem change_addController_newPort (kind : ControllerKind) (t : Topology) :
    Meets (addController ⟨t.devices.length⟩ kind) t.withRoot (fun _ t' => t.withRoot.Change t')
      (fun _ _ => False) := by
  have ht : t.withRoot.devices = t.devices ++ .rootPort t.newPort :: [] := rfl
  refine meets_map.2 ?_
  rw [Meets, attach_of_free ht rfl]
  exact .behind ht rfl ⟨rfl, rfl, rfl, rfl⟩

end Edits

end Topology

section Endpoints

/-- What a controller can be asked for. -/
inductive EndpointRequest
  | scsiDisk (drive : String) (disk : DiskOptions)
  | scsiCd (drive : String) (disk : DiskOptions)
  | usbTablet
  | usbRedirect (charDevice : String)
  | usbStorage (drive : String) (bootIndex : Option Nat)
  | serialPort (charDevice name : String)

namespace EndpointRequest

def edit : EndpointRequest → Edit Error Controller String
  | scsiDisk drive disk => Controller.addScsiDisk drive disk
  | scsiCd drive disk => Controller.addScsiCd drive disk
  | usbTablet => Controller.addUsbTablet
  | usbRedirect charDevice => Controller.addUsbRedirect charDevice
  | usbStorage drive bootIndex => Controller.addUsbStorage drive bootIndex
  | serialPort charDevice name => Controller.addSerialPort charDevice name

/-- The kind of controller that a request is for. -/
def family : EndpointRequest → String
  | scsiDisk .. => "scsi"
  | scsiCd .. => "scsi"
  | usbTablet => "usb"
  | usbRedirect .. => "usb"
  | usbStorage .. => "usb"
  | serialPort .. => "serial"

def endpoint : EndpointRequest → Nat → Endpoint
  | scsiDisk drive disk, n => .scsiDisk n drive disk
  | scsiCd drive disk, n => .scsiCd n drive disk
  | usbTablet, n => .usbTablet (n + 1)
  | usbRedirect charDevice, n => .usbRedirect (n + 1) charDevice
  | usbStorage drive bootIndex, n => .usbStorage (n + 1) drive bootIndex
  | serialPort charDevice name, n => .serialPort (n + 1) charDevice name

theorem edit_eq (r : EndpointRequest) : r.edit = Controller.attach r.family r.endpoint := by
  cases r <;> rfl

/-- An endpoint asks for the place that its kind of controller gives. -/
theorem place_endpoint (r : EndpointRequest) {kind : ControllerKind} (h : kind.family = r.family)
    (n : Nat) : (r.endpoint n).place = kind.place n := by
  cases r <;> cases kind <;>
    simp_all [family, ControllerKind.family, endpoint, Endpoint.place, ControllerKind.place]

end EndpointRequest

theorem Controller.meets_attach (family : String) (make : Nat → Endpoint) (c : Controller) :
    Meets (attach family make) c
      (fun id c' => c.kind.family = family ∧ c.endpoints.length < c.kind.capacity ∧
        id = c.endpointId c.endpoints.length ∧
        c' = { c with endpoints := c.endpoints ++ [make c.endpoints.length] })
      (fun e c' => c' = c ∧ (c.kind.family ≠ family ∧
          e = .invalidArgument (.wrongController c.title family) ∨
        c.kind.family = family ∧ c.kind.capacity ≤ c.endpoints.length ∧
          e = .capacity c.title c.kind.capacity c.endpoints.length)) := by
  simp only [Meets, attach]
  by_cases hfamily : c.kind.family = family
  · by_cases hfull : c.kind.capacity ≤ c.endpoints.length
    · rw [if_neg (not_not_intro hfamily), if_pos hfull]
      exact ⟨rfl, .inr ⟨hfamily, hfull, rfl⟩⟩
    · rw [if_neg (not_not_intro hfamily), if_neg hfull]
      exact ⟨hfamily, Nat.lt_of_not_le hfull, rfl, rfl⟩
  · rw [if_pos hfamily]
    exact ⟨rfl, .inl ⟨hfamily, rfl⟩⟩

theorem Topology.meets_onController (ref : ControllerRef) (r : EndpointRequest) (t : Topology) :
    Meets (onController ref r.edit) t
      (fun id t' => ∃ before after port c, t.devices = before ++ .rootPort port :: after ∧
        before.length = ref.position ∧ port.downstream = some (.controller c) ∧
        c.kind.family = r.family ∧ c.endpoints.length < c.kind.capacity ∧
        id = c.endpointId c.endpoints.length ∧ t' = { t with
          devices := before ++ .rootPort { port with downstream := some (.controller { c with
            endpoints := c.endpoints ++ [r.endpoint c.endpoints.length] }) } :: after })
      (fun e t' => t' = t ∧ t.Refusal e) := by
  rw [r.edit_eq]
  cases hc : t.controller? ref with
  | error e =>
    have hfault : ∃ fault, e = .invalidArgument fault := by
      simp only [controller?] at hc
      split at hc <;> cases hc
      exact ⟨_, rfl⟩
    obtain ⟨fault, rfl⟩ := hfault
    simp only [Meets, onController, hc]
    exact ⟨trivial, .argument fault⟩
  | ok c =>
    obtain ⟨port, hport, hdown⟩ := controller?_eq_ok.1 hc
    obtain ⟨before, after, ht, hposition⟩ := exists_split hport
    have hmeets := Controller.meets_attach r.family r.endpoint c
    simp only [Meets, onController, hc]
    cases hrun : Controller.attach r.family r.endpoint c with
    | ok id c' =>
      obtain ⟨hfamily, hroom, hid, rfl⟩ := hmeets.ok hrun
      simp only [← hposition, setDownstream_of_split ht]
      exact ⟨before, after, port, c, ht, rfl, hdown, hfamily, hroom, hid, rfl⟩
    | error e c' =>
      obtain ⟨rfl, hreason⟩ := hmeets.error hrun
      simp only [setDownstream_self hc]
      refine ⟨trivial, ?_⟩
      rcases hreason with ⟨-, rfl⟩ | ⟨-, hfull, rfl⟩
      · exact .argument _
      · exact .controllerFull (mem_controllers.2 ⟨port, List.mem_of_getElem? hport, hdown⟩) hfull

theorem Topology.change_onController (ref : ControllerRef) (r : EndpointRequest) (t : Topology) :
    Meets (onController ref r.edit) t (fun _ t' => t.Change t')
      (fun e t' => t' = t ∧ t.Refusal e) := by
  refine (meets_onController ref r t).imp ?_
  rintro _ _ ⟨before, after, port, c, ht, -, hdown, hfamily, hroom, -, rfl⟩
  exact .endpoint ht hdown hroom (r.place_endpoint hfamily _)

end Endpoints

end GuestCompiler
