import GuestCompiler.Proofs.DevicePaths
import Std.Data.String.ToNat

/-!
# What is written for a device

The id, the bus and the place of a device, as its parameters have them. Only a device on the root
complex has an address, and the first function of a slot is marked as one of several
(`Topology.get?_complex`); an endpoint has the place that its kind of controller gives it.
-/
namespace GuestCompiler

open Parameter

namespace TopLevel

/-- The function that a device takes of the root complex. -/
def address? : TopLevel → Option PciAddress
  | rootPort port => some port.address
  | panic _ address => some address
  | display _ address _ => some address
  | tpm _ => none
  | cdrom .. => none

def cdromBus? : TopLevel → Option String
  | rootPort _ => none
  | panic .. => none
  | display .. => none
  | tpm _ => none
  | cdrom _ bus .. => some bus

/-- Whether a display can show what comes before the guest's own drivers. -/
def vga? : TopLevel → Option Bool
  | rootPort _ => none
  | panic .. => none
  | display _ _ vga => some vga
  | tpm _ => none
  | cdrom .. => none

end TopLevel

@[simp] theorem Parameter.get?_bootParameter (bootIndex : Option Nat) (name : String) :
    get? (bootParameter bootIndex) name =
      if "bootindex" = name then bootIndex.map toString else none :=
  get?_given ..

section Addresses

/-- What says where on the root complex a device is. -/
def PciAddress.names : List String := ["addr", "multifunction"]

theorem TopLevel.get?_addr (d : TopLevel) :
    get? d.parameters "addr" = d.address?.map PciAddress.text := by
  cases d <;> simp [parameters, RootPort.parameters, PciAddress.parameters, address?, number]

theorem TopLevel.get?_multifunction (d : TopLevel) : get? d.parameters "multifunction" =
    d.address?.bind fun a => if a.function = 0 then some "on" else none := by
  cases d <;> simp [parameters, RootPort.parameters, PciAddress.parameters, address?, number]

theorem Downstream.get?_complex (d : Downstream) {name : String} (h : name ∈ PciAddress.names) :
    get? d.parameters name = none := by
  obtain rfl | rfl : name = "addr" ∨ name = "multifunction" := by simpa [PciAddress.names] using h
  all_goals
    cases d with
    | controller c =>
      simp only [parameters, Controller.parameters, Controller.kindParameters]
      cases c.kind <;> simp [number]
    | _ => simp [parameters, number]

theorem Endpoint.get?_complex (e : Endpoint) {name : String} (h : name ∈ PciAddress.names) :
    get? e.ownParameters name = none := by
  obtain rfl | rfl : name = "addr" ∨ name = "multifunction" := by simpa [PciAddress.names] using h
  all_goals cases e <;> simp [ownParameters, scsiParameters, number]

namespace Topology

/-- The top-level device of a path that ends there. -/
def top? (t : Topology) : Nat × DevicePart → Option TopLevel
  | (i, .self) => t.devices[i]?
  | (_, .behind) => none
  | (_, .endpoint _) => none

/-- The function that the device of a path takes. -/
def address? (t : Topology) (path : Nat × DevicePart) : Option PciAddress :=
  (t.top? path).bind TopLevel.address?

variable {t : Topology} {path : Nat × DevicePart} {ps : List Parameter}

theorem get?_complex (h : t.parameters? path = some ps) {name : String}
    (hname : name ∈ PciAddress.names) :
    get? ps name = (t.top? path).bind fun d => get? d.parameters name := by
  cases found h with
  | @self i d hd => rw [top?, hd, Option.bind_some]
  | @behind i port d _ _ => exact d.get?_complex hname
  | @endpoint i k port c e _ _ _ =>
    have hown : get? e.ownParameters name = none := e.get?_complex hname
    obtain rfl | rfl : name = "addr" ∨ name = "multifunction" := by
      simpa [PciAddress.names] using hname
    all_goals simp [top?, hown]

theorem get?_addr (h : t.parameters? path = some ps) :
    get? ps "addr" = (t.address? path).map PciAddress.text := by
  rw [get?_complex h (by simp [PciAddress.names]), address?, Option.map_bind]
  exact congrArg _ (funext TopLevel.get?_addr)

theorem get?_multifunction (h : t.parameters? path = some ps) : get? ps "multifunction" =
    (t.address? path).bind fun a => if a.function = 0 then some "on" else none := by
  rw [get?_complex h (by simp [PciAddress.names]), address?, Option.bind_assoc]
  exact congrArg _ (funext TopLevel.get?_multifunction)

end Topology

end Addresses

section Buses

theorem TopLevel.get?_bus (d : TopLevel) :
    get? d.parameters "bus" = (d.address?.map fun _ => "pcie.0").or d.cdromBus? := by
  cases d <;>
    simp [parameters, RootPort.parameters, PciAddress.parameters, address?, cdromBus?, number]

theorem Downstream.get?_id (d : Downstream) : get? d.parameters "id" = some d.id := by
  cases d <;> simp [parameters, Controller.parameters, id]

theorem Downstream.get?_bus (d : Downstream) : get? d.parameters "bus" = some d.bus := by
  cases d <;> simp [parameters, Controller.parameters, bus]

/-- The parameter that says where on the bus of a controller an endpoint is. -/
def ControllerKind.placeName : ControllerKind → String
  | scsi _ => "lun"
  | usb => "port"
  | serial => "nr"

theorem ControllerKind.place_injective {kind : ControllerKind} {m n : Nat}
    (h : (kind.place m).value = (kind.place n).value) : m = n := by
  cases kind with
  | scsi _ => exact Nat.repr_injective h
  | usb => exact Nat.succ.inj (Nat.repr_injective h)
  | serial => exact Nat.succ.inj (Nat.repr_injective h)

/-- Kinds of one family give the same places, in the same words. -/
theorem ControllerKind.place_of_family {kind kind' : ControllerKind}
    (h : kind.family = kind'.family) (n : Nat) :
    kind.place n = kind'.place n ∧ (kind'.place n).name = kind.placeName := by
  cases kind <;> cases kind' <;> simp_all [family, place, placeName, number]

theorem Endpoint.get?_place (e : Endpoint) :
    get? e.ownParameters e.place.name = some e.place.value := by
  cases e <;> simp [ownParameters, scsiParameters, place, number]

end Buses

end GuestCompiler
