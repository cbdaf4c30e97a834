import GuestCompiler.Proofs.DeviceParameters
import GuestCompiler.Proofs.Numbering

/-!
# Places by position

A device on the root complex, a CD-ROM drive and an endpoint each stand where their number puts
them. `Topology.InOrder` says so of all devices of a topology, with the limits on their numbers, and
holds after any steps (`DeviceTree.run_inOrder`). What that means for the devices as they are
written is `DeviceTree.run_positional`, and which of the addresses a root complex of 32 slots has is
`DeviceTree.addresses_exist_iff`.
-/
namespace GuestCompiler

open FamilyCounts

theorem PciAddress.ofIndex_injective {m n : Nat} (h : ofIndex m = ofIndex n) : m = n := by
  simp only [ofIndex, functionsPerSlot, mk.injEq] at h
  omega

/-- A root port that took the function of a number. -/
structure RootPort.At (p : RootPort) (n : Nat) : Prop where
  address : p.address = .ofIndex n
  id : p.id = "pcie." ++ (PciAddress.ofIndex n).text
  chassis : p.chassis = n + 1

theorem RootPort.At.behind {p : RootPort} {n : Nat} (h : p.At n) (device : Option Downstream) :
    { p with downstream := device }.At n := ⟨h.address, h.id, h.chassis⟩

structure Controller.InOrder (c : Controller) : Prop where
  places : c.endpoints.map Endpoint.place = (List.range c.endpoints.length).map c.kind.place
  room : c.endpoints.length ≤ c.kind.capacity

theorem Controller.InOrder.concat {c : Controller} (hc : c.InOrder) {e : Endpoint}
    (hroom : c.endpoints.length < c.kind.capacity)
    (hplace : e.place = c.kind.place c.endpoints.length) :
    { c with endpoints := c.endpoints ++ [e] }.InOrder where
  places := by simp [hc.places, hplace, List.range_succ]
  room := by
    rw [List.length_append, List.length_singleton]
    exact hroom

structure RootPort.InOrder (p : RootPort) : Prop where
  stands : ∃ n, p.At n
  behind : ∀ d, p.downstream = some d → d.bus = p.id
  controller : ∀ c, p.downstream = some (.controller c) → c.InOrder

namespace Topology

structure InOrder (t : Topology) : Prop where
  addresses : t.devices.filterMap TopLevel.address? =
    (List.range t.functions).map PciAddress.ofIndex
  functions : t.functions ≤ maxFunctions
  ports : ∀ port, .rootPort port ∈ t.devices → port.InOrder
  cdroms : t.devices.filterMap TopLevel.cdromBus? =
    (List.range t.sata).map fun k => "ide." ++ toString k
  sata : t.sata ≤ maxSata
  displays : t.devices.filterMap TopLevel.vga? =
    (List.range (t.counts.count "qxl")).map (· == 0)
  ids : t.counts.Covers t.numbered

section Change

variable {t t' : Topology}

/-- A view that leaves out what is behind a port is the same with another device there. -/
theorem filterMap_behind {α : Type} {f : TopLevel → Option α} {before after : List TopLevel}
    {port : RootPort} (ht : t.devices = before ++ .rootPort port :: after)
    (hf : ∀ device, f (.rootPort { port with downstream := device }) = f (.rootPort port))
    (device : Option Downstream) :
    (before ++ .rootPort { port with downstream := device } :: after).filterMap f =
      t.devices.filterMap f := by
  simp only [ht, List.filterMap_append, List.filterMap_cons, hf]

theorem Change.addresses (h : t.Change t')
    (ht : t.devices.filterMap TopLevel.address? = (List.range t.functions).map .ofIndex) :
    t'.devices.filterMap TopLevel.address? = (List.range t'.functions).map .ofIndex := by
  cases h with
  | root _ => simp [withRoot, newPort, TopLevel.address?, ht, List.range_succ]
  | panic _ => simp [TopLevel.address?, ht, List.range_succ]
  | display _ => simp [TopLevel.address?, ht, List.range_succ]
  | tpm _ => simp [TopLevel.address?, ht]
  | cdrom _ _ _ => simp [TopLevel.address?, ht]
  | behind hsplit _ _ => exact (filterMap_behind hsplit (fun _ => rfl) _).trans ht
  | endpoint hsplit _ _ _ => exact (filterMap_behind hsplit (fun _ => rfl) _).trans ht

theorem Change.functions (h : t.Change t') (ht : t.functions ≤ maxFunctions) :
    t'.functions ≤ maxFunctions := by
  cases h with
  | root hroom => exact hroom
  | panic hroom => exact hroom
  | display hroom => exact hroom
  | _ => exact ht

theorem Change.sata (h : t.Change t') (ht : t.sata ≤ maxSata) : t'.sata ≤ maxSata := by
  cases h with
  | cdrom _ _ hroom => exact hroom
  | _ => exact ht

theorem Change.cdroms (h : t.Change t') (ht : t.devices.filterMap TopLevel.cdromBus? =
      (List.range t.sata).map fun k => "ide." ++ toString k) :
    t'.devices.filterMap TopLevel.cdromBus? =
      (List.range t'.sata).map fun k => "ide." ++ toString k := by
  cases h with
  | cdrom _ _ _ => simp [TopLevel.cdromBus?, ht, List.range_succ]
  | behind hsplit _ _ => exact (filterMap_behind hsplit (fun _ => rfl) _).trans ht
  | endpoint hsplit _ _ _ => exact (filterMap_behind hsplit (fun _ => rfl) _).trans ht
  | _ => simp [withRoot, TopLevel.cdromBus?, ht]

theorem Change.displays (h : t.Change t') (ht : t.devices.filterMap TopLevel.vga? =
      (List.range (t.counts.count "qxl")).map (· == 0)) :
    t'.devices.filterMap TopLevel.vga? =
      (List.range (t'.counts.count "qxl")).map (· == 0) := by
  cases h with
  | display _ => simp [TopLevel.vga?, ht, count_advance, List.range_succ]
  | @behind before after port family device hsplit _ hnew =>
    have hfamily : "qxl" ≠ family := by
      rw [← hnew.family]
      cases device with
      | controller c =>
        simp only [Downstream.family]
        cases c.kind <;> simp [ControllerKind.family]
      | _ => simp [Downstream.family]
    rw [count_advance, if_neg hfamily]
    exact (filterMap_behind hsplit (fun _ => rfl) _).trans ht
  | endpoint hsplit _ _ _ => exact (filterMap_behind hsplit (fun _ => rfl) _).trans ht
  | _ => simp [withRoot, TopLevel.vga?, ht, count_advance]

theorem ports_behind {before after : List TopLevel} {port : RootPort} {device : Option Downstream}
    (hsplit : t.devices = before ++ .rootPort port :: after)
    (ht : ∀ port, .rootPort port ∈ t.devices → port.InOrder)
    (hnew : { port with downstream := device }.InOrder) :
    ∀ q, .rootPort q ∈ before ++ .rootPort { port with downstream := device } :: after →
      q.InOrder := by
  intro q hq
  simp only [List.mem_append, List.mem_cons, TopLevel.rootPort.injEq] at hq
  rcases hq with hq | rfl | hq
  · exact ht q (by simp [hsplit, hq])
  · exact hnew
  · exact ht q (by simp [hsplit, hq])

theorem Change.ports (h : t.Change t') (ht : ∀ port, .rootPort port ∈ t.devices → port.InOrder) :
    ∀ port, .rootPort port ∈ t'.devices → port.InOrder := by
  cases h with
  | root _ =>
    intro port hport
    simp only [withRoot, List.mem_append, List.mem_singleton, TopLevel.rootPort.injEq] at hport
    rcases hport with hport | rfl
    · exact ht port hport
    · exact ⟨⟨t.functions, rfl, rfl, rfl⟩, nofun, nofun⟩
  | @behind before after port family device hsplit _ hnew =>
    have hold : port.InOrder := ht port (by simp [hsplit])
    refine ports_behind hsplit ht ⟨hold.stands.imp fun _ hat => hat.behind _, ?_, ?_⟩
    · rintro d ⟨rfl⟩
      exact hnew.bus
    · rintro c ⟨rfl⟩
      have hnone : c.endpoints = [] := hnew.endpoints
      exact ⟨by simp [hnone], by simp [hnone]⟩
  | @endpoint before after port c e hsplit hc hroom hplace =>
    have hold : port.InOrder := ht port (by simp [hsplit])
    refine ports_behind hsplit ht ⟨hold.stands.imp fun _ hat => hat.behind _, ?_, ?_⟩
    · rintro d ⟨rfl⟩
      exact hold.behind (.controller c) hc
    · rintro _ ⟨rfl⟩
      exact (hold.controller c hc).concat hroom hplace
  | _ => simpa using ht

theorem InOrder.change (h : t.Change t') (ht : t.InOrder) : t'.InOrder where
  addresses := h.addresses ht.addresses
  functions := h.functions ht.functions
  ports := h.ports ht.ports
  cdroms := h.cdroms ht.cdroms
  sata := h.sata ht.sata
  displays := h.displays ht.displays
  ids := h.numbers.covers ht.ids

theorem inOrder_empty : ({} : Topology).InOrder where
  addresses := rfl
  functions := Nat.zero_le _
  ports := nofun
  cdroms := rfl
  sata := Nat.zero_le _
  displays := rfl
  ids := covers_empty

end Change

end Topology

namespace Topology

/-- The devices that take functions of the root complex, in their order. -/
def onComplex (t : Topology) : List TopLevel := t.devices.filter (·.address?.isSome)

/-- A topology whose devices have what their number says. -/
structure Positional (t : Topology) : Prop where
  functions : t.functions = t.onComplex.length ∧ t.functions ≤ 256
  kinds : ∀ d ∈ t.devices, d ∈ t.onComplex ↔ (∃ port, d = .rootPort port) ∨
    (∃ id address, d = .panic id address) ∨ ∃ id address vga, d = .display id address vga
  address : ∀ (n : Nat) (d : TopLevel), t.onComplex[n]? = some d →
    d.address? = some ⟨n / 8 + 1, n % 8⟩
  port : ∀ (n : Nat) (port : RootPort), t.onComplex[n]? = some (.rootPort port) →
    port.id = "pcie." ++ PciAddress.text ⟨n / 8 + 1, n % 8⟩ ∧ port.chassis = n + 1
  written : ∀ path ps, t.parameters? path = some ps →
    Parameter.get? ps "addr" = (t.address? path).map PciAddress.text ∧
      Parameter.get? ps "multifunction" =
        (t.address? path).bind fun a => if a.function = 0 then some "on" else none
  cdroms : (t.devices.filterMap TopLevel.cdromBus?).length ≤ 6 ∧
    ∀ (k : Nat) (bus : String), (t.devices.filterMap TopLevel.cdromBus?)[k]? = some bus →
      bus = "ide." ++ toString k
  displays : ∀ (n : Nat) (vga : Bool), (t.devices.filterMap TopLevel.vga?)[n]? = some vga →
    (vga = true ↔ n = 0)

section InOrder

variable {t : Topology}

theorem eq_of_getElem?_map_range {α : Type} {f : Nat → α} {n k : Nat} {b : α}
    (h : ((List.range n).map f)[k]? = some b) : b = f k := by
  obtain ⟨hk, rfl⟩ := List.getElem?_eq_some_iff.1 h
  simp

theorem map_address?_onComplex (t : Topology) :
    t.onComplex.map TopLevel.address? = (t.devices.filterMap TopLevel.address?).map some := by
  rw [onComplex]
  induction t.devices with
  | nil => rfl
  | cons d ds ih => cases hd : d.address? <;> simp [hd, ih]

theorem InOrder.onComplex (ht : t.InOrder) : t.onComplex.map TopLevel.address? =
    (List.range t.functions).map (some ∘ PciAddress.ofIndex) := by
  rw [map_address?_onComplex, ht.addresses, List.map_map]

theorem InOrder.length_onComplex (ht : t.InOrder) : t.onComplex.length = t.functions := by
  simpa using congrArg List.length ht.onComplex

theorem InOrder.address (ht : t.InOrder) {n : Nat} {d : TopLevel} (hd : t.onComplex[n]? = some d) :
    d.address? = some (.ofIndex n) := by
  have hat : (t.onComplex.map TopLevel.address?)[n]? = some d.address? := by simp [hd]
  rw [ht.onComplex] at hat
  exact eq_of_getElem?_map_range hat

/-- A root port has the number that it is found at. -/
theorem InOrder.port_at (ht : t.InOrder) {n : Nat} {port : RootPort}
    (hport : t.onComplex[n]? = some (.rootPort port)) : port.At n := by
  have hmem : .rootPort port ∈ t.devices := List.mem_of_mem_filter (List.mem_of_getElem? hport)
  obtain ⟨m, hat⟩ := (ht.ports port hmem).stands
  have haddress : some port.address = some (.ofIndex n) := ht.address hport
  obtain rfl : m = n :=
    PciAddress.ofIndex_injective (hat.address.symm.trans (Option.some.inj haddress))
  exact hat

theorem InOrder.positional (ht : t.InOrder) : t.Positional where
  functions := ⟨ht.length_onComplex.symm, ht.functions⟩
  kinds d hd := by cases d <;> simp [Topology.onComplex, hd, TopLevel.address?]
  address _ _ hd := ht.address hd
  port _ _ hport := ⟨(ht.port_at hport).id, (ht.port_at hport).chassis⟩
  written _ _ h := ⟨get?_addr h, get?_multifunction h⟩
  cdroms := by
    rw [ht.cdroms, List.length_map, List.length_range]
    exact ⟨ht.sata, fun _ _ hbus => eq_of_getElem?_map_range hbus⟩
  displays n vga hvga := by
    rw [ht.displays] at hvga
    simp [eq_of_getElem?_map_range hvga]

/-- The slots of the first 248 functions are 1 to 31, and the next slot is 32. -/
theorem InOrder.slots_exist_iff (ht : t.InOrder) : (∀ d ∈ t.devices, ∀ a,
    d.address? = some a → a.slot ≤ 31 ∧ a.function ≤ 7) ↔ t.functions ≤ 248 := by
  have hmem (a : PciAddress) :
      (∃ d ∈ t.devices, d.address? = some a) ↔ ∃ n < t.functions, .ofIndex n = a := by
    rw [← List.mem_filterMap, ht.addresses]
    simp
  constructor
  · intro hexist
    by_contra hmany
    obtain ⟨d, hd, haddress⟩ := (hmem (.ofIndex 248)).2 ⟨248, by omega, rfl⟩
    have hslot : (PciAddress.ofIndex 248).slot ≤ 31 := (hexist d hd _ haddress).1
    exact absurd hslot (by decide)
  · intro hfew d hd a haddress
    obtain ⟨n, hn, rfl⟩ := (hmem a).1 ⟨d, hd, haddress⟩
    simp only [PciAddress.ofIndex, PciAddress.functionsPerSlot]
    omega

end InOrder

/-- A function is refused when all are in use, and for no other reason. -/
theorem meets_function {α : Type} (make : Topology → TopLevel × FamilyCounts × α)
    (answer : α → TreeAnswer) (t : DeviceTree) :
    Edit.Meets (answer <$> DeviceTree.onTopology (addFunction make)) t
      (fun _ t' => t.topology.functions < maxFunctions ∧
        t'.topology.functions = t.topology.functions + 1)
      (fun e _ => maxFunctions ≤ t.topology.functions ∧
        e = .capacity "PCI Express root complex" maxFunctions t.topology.functions) := by
  refine Edit.meets_map.2 (Edit.meets_within.2 ((meets_addFunction make t.topology).mono ?_ ?_))
  · rintro _ _ ⟨hroom, -, rfl⟩
    exact ⟨hroom, rfl⟩
  · rintro _ _ ⟨-, hfull, rfl⟩
    exact ⟨hfull, rfl⟩

end Topology

namespace DeviceTree

theorem run_inOrder (steps : List TreeStep) : (run {} steps).topology.InOrder :=
  run_keeps (fun _ _ ht h => ht.change h) Topology.inOrder_empty steps

/-- No step takes a device away. -/
theorem run_keepsDevices (t : DeviceTree) (steps : List TreeStep) :
    t.topology.KeepsDevices (t.run steps).topology :=
  Topology.keeps_of_changes (P := fun top => t.topology.KeepsDevices top)
    (fun _ _ hkeeps h => hkeeps.trans h.keepsDevices) (t.run_changes steps) (.refl _)

/-- After any steps the devices have what their number says, those of a family are numbered in the
order in which they were made, and further steps leave them as they are. -/
theorem run_positional (steps more : List TreeStep) : (run {} steps).topology.Positional ∧
    (made {} steps).Perm (run {} steps).topology.numbered ∧
    (∀ family, ((made {} steps).filter (·.1 == family)).map (·.2) =
      (List.range ((made {} steps).countP (·.1 == family))).map (nth family)) ∧
    (run {} steps).topology.KeepsDevices (run {} (steps ++ more)).topology := by
  refine ⟨(run_inOrder steps).positional, ?_, fun family => ?_, ?_⟩
  · exact (run_numbered (t := {}) Topology.covers_empty steps).symm
  · have horder := made_in_order steps family
    have hcount := congrArg List.length horder
    rw [List.length_map, List.length_map, List.length_range, ← List.countP_eq_length_filter]
      at hcount
    rw [hcount]
    exact horder
  · rw [run_append]
    exact run_keepsDevices _ more

/-- The devices on the root complex are at addresses that it has as long as 248 functions are in
use; the ones from there to the limit are in a slot that it has not. -/
theorem addresses_exist_iff (steps : List TreeStep) :
    ((∀ d ∈ (run {} steps).topology.devices, ∀ a, d.address? = some a →
      a.slot ≤ 31 ∧ a.function ≤ 7) ↔ (run {} steps).topology.functions ≤ 248) ∧
    ∀ step ∈ [TreeStep.addRoot, .addPanic, .addDisplay], Edit.Meets step.edit (run {} steps)
      (fun _ t' => (run {} steps).topology.functions < 256 ∧
        t'.topology.functions = (run {} steps).topology.functions + 1)
      (fun e _ => (run {} steps).topology.functions = 256 ∧
        e = .capacity "PCI Express root complex" 256 256) := by
  have ht := run_inOrder steps
  refine ⟨ht.slots_exist_iff, fun step hstep => ?_⟩
  have hfull {e : Error} (h : Topology.maxFunctions ≤ (run {} steps).topology.functions ∧
      e = .capacity "PCI Express root complex" Topology.maxFunctions
        (run {} steps).topology.functions) :
      (run {} steps).topology.functions = 256 ∧
        e = .capacity "PCI Express root complex" 256 256 := by
    have hall : (run {} steps).topology.functions = 256 := Nat.le_antisymm ht.functions h.1
    exact ⟨hall, h.2.trans (by rw [hall]; rfl)⟩
  simp only [List.mem_cons, List.not_mem_nil, or_false] at hstep
  rcases hstep with rfl | rfl | rfl
  all_goals exact (Topology.meets_function _ _ _).mono (fun _ _ h => h) fun _ _ h => hfull h

/-- The 249th root port is in slot 32, which a root complex of 32 slots has not. -/
theorem root_address_beyond : ∃ port : RootPort,
    .rootPort port ∈ (run {} (List.replicate 249 .addRoot)).topology.devices ∧
      port.address = ⟨32, 0⟩ ∧ port.id = "pcie.20.0" := by
  refine ⟨⟨"pcie.20.0", ⟨32, 0⟩, 249, none⟩, ?_, rfl, rfl⟩
  decide +kernel

end DeviceTree

end GuestCompiler
