import GuestCompiler.Proofs.DottedNames
import GuestCompiler.Proofs.StepPaths

/-!
# Ids and places of their own

A device has an id and a place on a bus; a security module has neither. Which of them a path leads
to is said by `Topology.Bears` and `Topology.Holds`, and no two paths lead to the same
(`InOrder.eq_of_bears`, `InOrder.eq_of_holds`). As names are told apart by their text, so are the
options, and each step that is taken has its device among them (`DeviceTree.options_apart`).
-/
namespace GuestCompiler

open FamilyCounts Parameter

theorem TopLevel.get?_id (d : TopLevel) {id : String} (h : get? d.parameters "id" = some id) :
    (∃ port, d = .rootPort port ∧ port.id = id) ∨
      (∀ port, d ≠ .rootPort port) ∧ ∃ family, (family, id) ∈ d.numbered := by
  cases d with
  | rootPort port =>
    exact .inl ⟨port, rfl, by simpa [parameters, RootPort.parameters] using h⟩
  | tpm tpmDevice => simp [parameters] at h
  | _ => exact .inr ⟨by simp, by simpa [parameters, numbered, eq_comm] using h⟩

namespace Topology

/-- The names that the ids of devices are. -/
inductive Bears (t : Topology) : Nat × DevicePart → DottedName → Prop
  | port {i n : Nat} {port : RootPort} : t.devices[i]? = some (.rootPort port) → port.At n →
    Bears t (i, .self) (.port n)
  | self {i n : Nat} {d : TopLevel} {family : String} : t.devices[i]? = some d →
    (∀ port, d ≠ .rootPort port) → (family, nth family n) ∈ d.numbered →
    Bears t (i, .self) (.numbered family n)
  | behind {i n : Nat} {port : RootPort} {family : String} :
    t.devices[i]? = some (.rootPort port) →
    (family, nth family n) ∈ (TopLevel.rootPort port).numbered →
    Bears t (i, .behind) (.numbered family n)
  | endpoint {i n k : Nat} {port : RootPort} {family : String} :
    t.devices[i]? = some (.rootPort port) →
    (family, nth family n) ∈ (TopLevel.rootPort port).numbered →
    Bears t (i, .endpoint k) (.endpoint family n k)

/-- The bus that a device is on, and its place there; some buses have only one. -/
inductive Holds (t : Topology) : Nat × DevicePart → DottedName → Nat → Prop
  | complex {i n : Nat} {d : TopLevel} : t.devices[i]? = some d →
    d.address? = some (.ofIndex n) → Holds t (i, .self) .complex n
  | sata {i k : Nat} {d : TopLevel} : t.devices[i]? = some d →
    d.cdromBus? = some ("ide." ++ toString k) → Holds t (i, .self) (.sata k) 0
  | port {i n : Nat} {port : RootPort} : t.devices[i]? = some (.rootPort port) → port.At n →
    Holds t (i, .behind) (.port n) 0
  | endpoint {i n k : Nat} {port : RootPort} {family : String} :
    t.devices[i]? = some (.rootPort port) →
    (family, nth family n) ∈ (TopLevel.rootPort port).numbered →
    Holds t (i, .endpoint k) (.bus family n) k

/-- What is written where there is more than one place on a bus. -/
def Tells (ps : List Parameter) : DottedName → Nat → Prop
  | .complex, n => get? ps "addr" = some (PciAddress.ofIndex n).text
  | .bus family _, k => ∀ kind : ControllerKind, kind.family = family →
    get? ps kind.placeName = some (kind.place k).value
  | _, _ => True

section Unique

variable {t : Topology} {p q : Nat × DevicePart}

/-- Where no value is seen twice, a device is known by one that is seen of it. -/
theorem position_unique {α β : Type} {f : α → List β} {xs : List α} (h : (xs.flatMap f).Nodup)
    {i j : Nat} {a b : α} (ha : xs[i]? = some a) (hb : xs[j]? = some b) {y : β} (hya : y ∈ f a)
    (hyb : y ∈ f b) : i = j := by
  have hdisjoint := List.pairwise_iff_getElem.1 (List.nodup_flatMap.1 h).2
  obtain ⟨hi, rfl⟩ := List.getElem?_eq_some_iff.1 ha
  obtain ⟨hj, rfl⟩ := List.getElem?_eq_some_iff.1 hb
  rcases Nat.lt_trichotomy i j with hlt | heq | hgt
  · exact (hdisjoint i j hi hj hlt hya hyb).elim
  · exact heq
  · exact (hdisjoint j i hj hi hgt hyb hya).elim

variable {i j : Nat} {d d' : TopLevel}

theorem InOrder.eq_of_address (ht : t.InOrder) {n : Nat} (hd : t.devices[i]? = some d)
    (hd' : t.devices[j]? = some d') (h : d.address? = some (.ofIndex n))
    (h' : d'.address? = some (.ofIndex n)) : i = j := by
  have hnodup : (t.devices.flatMap fun d => d.address?.toList).Nodup := by
    rw [← List.filterMap_eq_flatMap_toList, ht.addresses]
    exact List.nodup_range.map fun _ _ hn => PciAddress.ofIndex_injective hn
  exact position_unique hnodup hd hd' (Option.mem_toList.2 h) (Option.mem_toList.2 h')

theorem InOrder.eq_of_cdromBus (ht : t.InOrder) {bus : String} (hd : t.devices[i]? = some d)
    (hd' : t.devices[j]? = some d') (h : d.cdromBus? = some bus) (h' : d'.cdromBus? = some bus) :
    i = j := by
  have hnodup : (t.devices.flatMap fun d => d.cdromBus?.toList).Nodup := by
    rw [← List.filterMap_eq_flatMap_toList, ht.cdroms]
    exact List.nodup_range.map fun _ _ hk =>
      Nat.repr_injective ((String.append_right_inj "ide.").1 hk)
  exact position_unique hnodup hd hd' (Option.mem_toList.2 h) (Option.mem_toList.2 h')

theorem InOrder.eq_of_numbered (ht : t.InOrder) {x : String × String}
    (hd : t.devices[i]? = some d) (hd' : t.devices[j]? = some d') (h : x ∈ d.numbered)
    (h' : x ∈ d'.numbered) : i = j :=
  position_unique ht.ids.nodup hd hd' h h'

theorem InOrder.eq_of_at (ht : t.InOrder) {n : Nat} {port port' : RootPort}
    (hd : t.devices[i]? = some (.rootPort port)) (hd' : t.devices[j]? = some (.rootPort port'))
    (h : port.At n) (h' : port'.At n) : i = j :=
  ht.eq_of_address hd hd' (congrArg some h.address) (congrArg some h'.address)

theorem InOrder.eq_of_bears (ht : t.InOrder) {name : DottedName} (hp : t.Bears p name)
    (hq : t.Bears q name) : p = q := by
  cases hp with
  | port hd hat =>
    cases hq with
    | port hd' hat' => rw [ht.eq_of_at hd hd' hat hat']
  | @self i n d family hd hother hid =>
    cases hq with
    | self hd' _ hid' => rw [ht.eq_of_numbered hd hd' hid hid']
    | @behind j n port family hd' hid' =>
      obtain rfl := ht.eq_of_numbered hd hd' hid hid'
      exact absurd (Option.some.inj (hd.symm.trans hd')) (hother port)
  | @behind i n port family hd hid =>
    cases hq with
    | @self j n d family hd' hother hid' =>
      obtain rfl := ht.eq_of_numbered hd hd' hid hid'
      exact absurd (Option.some.inj (hd'.symm.trans hd)) (hother port)
    | behind hd' hid' => rw [ht.eq_of_numbered hd hd' hid hid']
  | endpoint hd hid =>
    cases hq with
    | endpoint hd' hid' => rw [ht.eq_of_numbered hd hd' hid hid']

theorem InOrder.eq_of_holds (ht : t.InOrder) {bus : DottedName} {k : Nat} (hp : t.Holds p bus k)
    (hq : t.Holds q bus k) : p = q := by
  cases hp with
  | complex hd haddress =>
    cases hq with
    | complex hd' haddress' => rw [ht.eq_of_address hd hd' haddress haddress']
  | sata hd hbus =>
    cases hq with
    | sata hd' hbus' => rw [ht.eq_of_cdromBus hd hd' hbus hbus']
  | port hd hat =>
    cases hq with
    | port hd' hat' => rw [ht.eq_of_at hd hd' hat hat']
  | endpoint hd hid =>
    cases hq with
    | endpoint hd' hid' => rw [ht.eq_of_numbered hd hd' hid hid']

end Unique

section Told

variable {t : Topology} {path : Nat × DevicePart} {ps : List Parameter}

/-- The number of a numbered device, by its id. -/
theorem InOrder.numbered_number (ht : t.InOrder) {i : Nat} {d : TopLevel} {family id : String}
    (hd : t.devices[i]? = some d) (h : (family, id) ∈ d.numbered) :
    family ∈ families ∧ ∃ n, id = nth family n := by
  have hmem : (family, id) ∈ t.numbered := List.mem_flatMap.2 ⟨d, List.mem_of_getElem? hd, h⟩
  obtain ⟨n, -, hid⟩ := ht.ids.exists_number hmem
  exact ⟨TopLevel.family_mem h, n, hid⟩

theorem numbered_of_downstream {port : RootPort} {d : Downstream} (h : port.downstream = some d) :
    (d.family, d.id) ∈ (TopLevel.rootPort port).numbered := by
  simp [TopLevel.numbered, h]

theorem InOrder.bears (ht : t.InOrder) (h : t.parameters? path = some ps) {id : String}
    (hid : get? ps "id" = some id) : ∃ name, t.Bears path name ∧ name.Proper ∧ id = name.text := by
  cases found h with
  | @self i d hd =>
    rcases d.get?_id hid with ⟨port, rfl, rfl⟩ | ⟨hother, family, hnumbered⟩
    · obtain ⟨n, hat⟩ := (ht.ports port (List.mem_of_getElem? hd)).stands
      exact ⟨.port n, .port hd hat, trivial, by rw [hat.id, DottedName.text_port]⟩
    · obtain ⟨hfamily, n, rfl⟩ := ht.numbered_number hd hnumbered
      exact ⟨.numbered family n, .self hd hother hnumbered, hfamily,
        (DottedName.text_numbered _ _).symm⟩
  | @behind i port d hd hdown =>
    have hnumbered := numbered_of_downstream hdown
    obtain ⟨hfamily, n, hn⟩ := ht.numbered_number hd hnumbered
    rw [d.get?_id, Option.some.injEq] at hid
    rw [hn] at hnumbered
    exact ⟨.numbered d.family n, .behind hd hnumbered, hfamily,
      by rw [DottedName.text_numbered, ← hn, hid]⟩
  | @endpoint i k port c e hd hdown he =>
    have hnumbered := numbered_of_downstream hdown
    obtain ⟨hfamily, n, hn⟩ := ht.numbered_number hd hnumbered
    have hendpoint : c.endpointId k = id := by simpa using hid
    have hcontroller : c.id = nth c.kind.family n := hn
    rw [hn] at hnumbered
    refine ⟨.endpoint c.kind.family n k, .endpoint hd hnumbered, hfamily, ?_⟩
    rw [DottedName.text_endpoint, ← hendpoint, Controller.endpointId, Controller.bus, hcontroller]

theorem InOrder.holds (ht : t.InOrder) (h : t.parameters? path = some ps) {text : String}
    (hbus : get? ps "bus" = some text) :
    ∃ bus k, t.Holds path bus k ∧ bus.Proper ∧ text = bus.text ∧ Tells ps bus k := by
  cases found h with
  | @self i d hd =>
    have hmem : d ∈ t.devices := List.mem_of_getElem? hd
    rw [d.get?_bus] at hbus
    cases haddress : d.address? with
    | some a =>
      have ha : a ∈ t.devices.filterMap TopLevel.address? :=
        List.mem_filterMap.2 ⟨d, hmem, haddress⟩
      rw [ht.addresses] at ha
      obtain ⟨n, -, rfl⟩ := List.mem_map.1 ha
      refine ⟨.complex, n, .complex hd haddress, trivial, ?_, ?_⟩
      · rw [haddress] at hbus
        exact (Option.some.inj hbus).symm.trans DottedName.text_complex.symm
      · rw [Tells, d.get?_addr, haddress]
        rfl
    | none =>
      rw [haddress] at hbus
      have hcdrom : d.cdromBus? = some text := hbus
      have hb : text ∈ t.devices.filterMap TopLevel.cdromBus? :=
        List.mem_filterMap.2 ⟨d, hmem, hcdrom⟩
      rw [ht.cdroms] at hb
      obtain ⟨k, -, rfl⟩ := List.mem_map.1 hb
      exact ⟨.sata k, 0, .sata hd hcdrom, trivial, (DottedName.text_sata k).symm, trivial⟩
  | @behind i port d hd hdown =>
    have hport := ht.ports port (List.mem_of_getElem? hd)
    obtain ⟨n, hat⟩ := hport.stands
    rw [d.get?_bus, Option.some.injEq, hport.behind d hdown, hat.id] at hbus
    exact ⟨.port n, 0, .port hd hat, trivial, by rw [DottedName.text_port, hbus], trivial⟩
  | @endpoint i k port c e hd hdown he =>
    have hnumbered := numbered_of_downstream hdown
    obtain ⟨hfamily, n, hn⟩ := ht.numbered_number hd hnumbered
    have hb : c.bus = text := by simpa using hbus
    have hcontroller : c.id = nth c.kind.family n := hn
    rw [hn] at hnumbered
    refine ⟨.bus c.kind.family n, k, .endpoint hd hnumbered, hfamily, ?_, ?_⟩
    · rw [DottedName.text_bus, ← hb, Controller.bus, hcontroller]
    · intro kind hkind
      have hplaces := ((ht.ports port (List.mem_of_getElem? hd)).controller c hdown).places
      have hplace : (c.endpoints.map Endpoint.place)[k]? = some e.place := by simp [he]
      rw [hplaces] at hplace
      obtain ⟨hsame, hname⟩ := ControllerKind.place_of_family hkind k
      have hget := e.get?_place
      rw [eq_of_getElem?_map_range hplace, hname, ← hsame] at hget
      cases kind <;> simpa [ControllerKind.placeName] using hget

end Told

/-- Two options with ids and places of their own. -/
structure Apart (t : Topology) (ps qs : List Parameter) : Prop where
  id : ∀ id, get? ps "id" = some id → get? qs "id" ≠ some id
  complex : get? ps "bus" = some "pcie.0" → get? qs "bus" = some "pcie.0" →
    get? ps "addr" ≠ get? qs "addr"
  sata : ∀ k : Nat, get? ps "bus" = some ("ide." ++ toString k) →
    get? qs "bus" ≠ some ("ide." ++ toString k)
  port : ∀ port, .rootPort port ∈ t.devices → get? ps "bus" = some port.id →
    get? qs "bus" ≠ some port.id
  controller : ∀ c ∈ t.controllers, get? ps "bus" = some c.bus → get? qs "bus" = some c.bus →
    get? ps c.kind.placeName ≠ get? qs c.kind.placeName

section Apart

variable {t : Topology} {p q : Nat × DevicePart} {ps qs : List Parameter}

theorem InOrder.holds_of_text (ht : t.InOrder) (h : t.parameters? p = some ps) {bus : DottedName}
    (hproper : bus.Proper) (hbus : get? ps "bus" = some bus.text) :
    ∃ k, t.Holds p bus k ∧ Tells ps bus k := by
  obtain ⟨bus', k, hholds, hproper', htext, htold⟩ := ht.holds h hbus
  obtain rfl := DottedName.text_injective hproper hproper' htext
  exact ⟨k, hholds, htold⟩

/-- A bus with one place is the bus of one device. -/
theorem InOrder.bus_ne (ht : t.InOrder) (hne : p ≠ q) (hp : t.parameters? p = some ps)
    (hq : t.parameters? q = some qs) {bus : DottedName} (hproper : bus.Proper)
    (hlone : ∀ path k, t.Holds path bus k → k = 0) (hbus : get? ps "bus" = some bus.text) :
    get? qs "bus" ≠ some bus.text := by
  intro hbus'
  obtain ⟨k, hholds, -⟩ := ht.holds_of_text hp hproper hbus
  obtain ⟨k', hholds', -⟩ := ht.holds_of_text hq hproper hbus'
  obtain rfl := hlone p k hholds
  obtain rfl := hlone q k' hholds'
  exact hne (ht.eq_of_holds hholds hholds')

theorem InOrder.apart (ht : t.InOrder) (hne : p ≠ q) (hp : t.parameters? p = some ps)
    (hq : t.parameters? q = some qs) : t.Apart ps qs where
  -- In each clause the two texts are of one name, and what that names is on one path.
  id id hid hid' := by
    obtain ⟨name, hbears, hproper, htext⟩ := ht.bears hp hid
    obtain ⟨name', hbears', hproper', htext'⟩ := ht.bears hq hid'
    obtain rfl := DottedName.text_injective hproper hproper' (htext.symm.trans htext')
    exact hne (ht.eq_of_bears hbears hbears')
  complex hbus hbus' haddr := by
    rw [← DottedName.text_complex] at hbus hbus'
    have hproper : DottedName.complex.Proper := trivial
    obtain ⟨n, hholds, htold⟩ := ht.holds_of_text hp hproper hbus
    obtain ⟨n', hholds', htold'⟩ := ht.holds_of_text hq hproper hbus'
    rw [Tells] at htold htold'
    rw [htold, htold', Option.some.injEq] at haddr
    obtain rfl := PciAddress.text_injective haddr
    exact hne (ht.eq_of_holds hholds hholds')
  sata k := by
    rw [← DottedName.text_sata]
    refine ht.bus_ne hne hp hq trivial fun path n hholds => ?_
    cases hholds with
    | sata _ _ => rfl
  port port hport := by
    obtain ⟨n, hat⟩ := (ht.ports port hport).stands
    rw [hat.id, ← DottedName.text_port]
    refine ht.bus_ne hne hp hq trivial fun path k hholds => ?_
    cases hholds with
    | port _ _ => rfl
  controller c hc hbus hbus' hplace := by
    obtain ⟨port, hport, hdown⟩ := mem_controllers.1 hc
    obtain ⟨i, hi⟩ := List.getElem?_of_mem hport
    obtain ⟨hfamily, n, hn⟩ := ht.numbered_number hi (numbered_of_downstream hdown)
    have htext : c.bus = (DottedName.bus c.kind.family n).text := by
      have hcontroller : c.id = nth c.kind.family n := hn
      rw [DottedName.text_bus, Controller.bus, hcontroller]
    rw [htext] at hbus hbus'
    have hproper : (DottedName.bus c.kind.family n).Proper := hfamily
    obtain ⟨k, hholds, htold⟩ := ht.holds_of_text hp hproper hbus
    obtain ⟨k', hholds', htold'⟩ := ht.holds_of_text hq hproper hbus'
    rw [htold c.kind rfl, htold' c.kind rfl, Option.some.injEq] at hplace
    obtain rfl := ControllerKind.place_injective hplace
    exact hne (ht.eq_of_holds hholds hholds')

end Apart

end Topology

/-- The device of a step that was taken is there after all further steps, and was new then unless it
is a shared controller that had been asked for before. -/
theorem TreeStep.found_in_run {before more : List TreeStep} {step : TreeStep} {answer : TreeAnswer}
    {t' : DeviceTree} (h : step.edit (.run {} before) = .ok answer t') :
    ∃ path, step.Found answer (DeviceTree.run {} (before ++ step :: more)).topology path ∧
      ((∀ kind, step.kind? = some kind → (DeviceTree.run {} before).shared? kind = none) →
        path ∉ (DeviceTree.run {} before).topology.paths) := by
  have hkinded : (DeviceTree.run {} before).Kinded := DeviceTree.kinded_empty.run before
  obtain ⟨path, hfound, hnew⟩ := (step.yields_comes hkinded).ok h
  have hrun : DeviceTree.run {} (before ++ step :: more) = t'.run more := by
    rw [DeviceTree.run_append, DeviceTree.run_cons, h, Edit.state]
  rw [hrun]
  exact ⟨path, hfound.keep (t'.run_keepsDevices more), hnew⟩

/-- After any steps the options are the devices of all paths, each once, the device of each step
that was taken is one of them, and no two of them have the same id or the same place. -/
theorem DeviceTree.options_apart (steps : List TreeStep) :
    let t := (run {} steps).topology
    t.paths.Nodup ∧ (∀ path, path ∈ t.paths ↔ (t.parameters? path).isSome) ∧
      (t.paths.map t.parameters? = t.options.map fun o => some o.parameters) ∧
      (t.options.Pairwise fun o o' => t.Apart o.parameters o'.parameters) ∧
      ∀ before step more answer t', steps = before ++ step :: more →
        step.edit (run {} before) = .ok answer t' → ∃ path ∈ t.paths, step.Found answer t path ∧
          ((∀ kind, step.kind? = some kind → (run {} before).shared? kind = none) →
            path ∉ (run {} before).topology.paths) := by
  intro t
  have hpaths : t.paths.Pairwise fun p q => ∀ ps qs, t.parameters? p = some ps →
      t.parameters? q = some qs → t.Apart ps qs :=
    t.nodup_paths.imp fun hne ps qs hp hq => (run_inOrder steps).apart hne hp hq
  have hoptions : (t.options.map fun o => some o.parameters).Pairwise fun a b =>
      ∀ ps qs, a = some ps → b = some qs → t.Apart ps qs := by
    rw [← t.map_paths]
    exact List.pairwise_map.2 hpaths
  refine ⟨t.nodup_paths, fun _ => Topology.mem_paths, t.map_paths,
    (List.pairwise_map.1 hoptions).imp fun h => h _ _ rfl rfl, ?_⟩
  rintro before step more answer t' rfl hstep
  obtain ⟨path, hfound, hnew⟩ := step.found_in_run hstep
  obtain ⟨ps, hps, -⟩ := hfound.given
  exact ⟨path, Topology.mem_paths.2 (by rw [hps]; rfl), hfound, hnew⟩

end GuestCompiler
