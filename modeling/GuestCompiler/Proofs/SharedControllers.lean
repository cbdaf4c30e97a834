import GuestCompiler.Proofs.Cards
import GuestCompiler.Proofs.Numbering

/-!
# Endpoints of shared controllers

An endpoint goes to the controller that its kind shares, which is made with the first one. How many
endpoints a kind has is a matter of `DeviceTree.Hosts`, and what one more of them changes of
`DeviceTree.Shares`: a function of the root complex for the first, and the endpoint's card. It is
refused only where the controller is full, or cannot be made (`DeviceTree.meets_share`).
-/
namespace GuestCompiler

open Edit

namespace Topology

variable {t t' : Topology} {ref : ControllerRef} {c : Controller}

theorem controller?_append {more : List TopLevel} (hdevices : t'.devices = t.devices ++ more)
    (h : t.controller? ref = .ok c) : t'.controller? ref = .ok c := by
  obtain ⟨port, hport, hdown⟩ := controller?_eq_ok.1 h
  refine controller?_eq_ok.2 ⟨port, ?_, hdown⟩
  rw [hdevices, List.getElem?_append_left (List.getElem?_eq_some_iff.1 hport).1]
  exact hport

theorem cards_append {more : List TopLevel} (hdevices : t'.devices = t.devices ++ more) :
    t'.cards = t.cards ++ more.flatMap TopLevel.cards := by
  rw [cards, hdevices, List.flatMap_append, cards]

/-- The topology with a device behind a new root port. -/
def withBehind (t : Topology) (family : String) (make : String → String → Downstream) :
    Topology where
  devices := t.devices ++ [.rootPort { t.newPort with
    downstream := some (make (t.counts.next family) t.newPort.id) }]
  counts := t.counts.advance family
  functions := t.functions + 1
  sata := t.sata

theorem attach_newPort (t : Topology) (family : String) (make : String → String → Downstream) :
    attach ⟨t.devices.length⟩ family make t.withRoot =
      .ok (t.counts.next family) (t.withBehind family make) := by
  have ht : t.withRoot.devices = t.devices ++ .rootPort t.newPort :: [] := rfl
  exact attach_of_free ht rfl family make

/-- The complex has no function left. -/
def Full (t : Topology) (e : Error) : Prop := maxFunctions ≤ t.functions ∧
  e = .capacity "PCI Express root complex" maxFunctions t.functions

/-- A device behind a new port of its own is refused only for want of a port. -/
theorem meets_attachNew (family : String) (make : String → String → Downstream) (t : Topology) :
    Meets (do attach (← addRoot) family make) t
      (fun id t' => t.functions < maxFunctions ∧ id = t.counts.next family ∧
        t' = t.withBehind family make)
      (fun e t' => t' = t ∧ t.Full e) := by
  refine Meets.bind (meets_addFunction _ t) ?_
  rintro _ _ ⟨hroom, rfl, rfl⟩
  rw [Meets]
  exact (attach_newPort t family make).symm ▸ ⟨hroom, rfl, rfl⟩

/-- A topology in which a controller has an endpoint more. -/
def withEndpoint (t : Topology) (ref : ControllerRef) (c : Controller) (e : Endpoint) : Topology :=
  t.setDownstream ref.position (.controller { c with endpoints := c.endpoints ++ [e] })

theorem meets_attachEndpoint (hc : t.controller? ref = .ok c) (make : Nat → Endpoint) :
    Meets (onController ref (Controller.attach c.kind.family make)) t
      (fun _ t' => c.endpoints.length < c.kind.capacity ∧
        t' = t.withEndpoint ref c (make c.endpoints.length))
      (fun e t' => t' = t ∧ c.kind.capacity ≤ c.endpoints.length ∧
        e = .capacity c.title c.kind.capacity c.endpoints.length) := by
  have hmeets := Controller.meets_attach c.kind.family make c
  simp only [Meets, onController, hc]
  cases hrun : Controller.attach c.kind.family make c with
  | ok id c' =>
    obtain ⟨-, hroom, -, rfl⟩ := hmeets.ok hrun
    exact ⟨hroom, rfl⟩
  | error e c' =>
    obtain ⟨rfl, hreason⟩ := hmeets.error hrun
    rcases hreason with ⟨hne, -⟩ | ⟨-, hfull, rfl⟩
    · exact absurd rfl hne
    · exact ⟨setDownstream_self hc, hfull, rfl⟩

section WithEndpoint

variable (hc : t.controller? ref = .ok c) (e : Endpoint)
include hc

theorem controller?_withEndpoint : (t.withEndpoint ref c e).controller? ref =
    .ok { c with endpoints := c.endpoints ++ [e] } := by
  obtain ⟨port, hport, hdown⟩ := controller?_eq_ok.1 hc
  obtain ⟨before, after, ht, hposition⟩ := exists_split hport
  refine controller?_eq_ok.2 ⟨{ port with
    downstream := some (.controller { c with endpoints := c.endpoints ++ [e] }) }, ?_, rfl⟩
  rw [withEndpoint, ← hposition, setDownstream_of_split ht]
  simp

/-- A controller of another kind is behind another port. -/
theorem controller?_withEndpoint_of_ne {other : ControllerRef} {c' : Controller}
    (hc' : t.controller? other = .ok c') (hkind : c'.kind ≠ c.kind) :
    (t.withEndpoint ref c e).controller? other = .ok c' := by
  have hne : ref.position ≠ other.position := by
    intro hposition
    have hsame : other = ref := congrArg ControllerRef.mk hposition.symm
    rw [hsame, hc] at hc'
    exact hkind (congrArg Controller.kind (Except.ok.inj hc')).symm
  obtain ⟨port, hport, hdown⟩ := controller?_eq_ok.1 hc'
  exact controller?_eq_ok.2 ⟨port, (List.getElem?_modify_ne _ _ hne).trans hport, hdown⟩

theorem cards_withEndpoint : (t.withEndpoint ref c e).cards.Perm (t.cards ++ e.cards) := by
  obtain ⟨port, hport, hdown⟩ := controller?_eq_ok.1 hc
  obtain ⟨before, after, ht, hposition⟩ := exists_split hport
  have hcards (c : Controller) : TopLevel.cards (.rootPort { port with
      downstream := some (.controller c) }) = c.endpoints.flatMap Endpoint.cards := by
    simp [TopLevel.cards, TopLevel.ownCards, TopLevel.downstream?, Downstream.cards,
      Downstream.ownCards, Downstream.endpoints]
  have hold : TopLevel.cards (.rootPort port) = c.endpoints.flatMap Endpoint.cards := by
    rw [← hcards c, ← hdown]
  rw [withEndpoint, ← hposition, setDownstream_of_split ht, cards, cards, ht]
  simp only [List.flatMap_append, List.flatMap_cons, List.flatMap_nil, List.append_nil, hcards,
    hold, List.append_assoc]
  exact .append_left _ (.append_left _ List.perm_append_comm)

end WithEndpoint

end Topology

theorem ControllerKind.capacity_pos (kind : ControllerKind) : 0 < kind.capacity := by
  cases kind <;> simp [capacity]

namespace DeviceTree

section Remembered

/-- The controller that the endpoints of a kind share. -/
def shared? (t : DeviceTree) : ControllerKind → Option ControllerRef
  | .serial => t.serial
  | .usb => t.usb
  | .scsi thread => t.scsi.lookup thread

def remember (kind : ControllerKind) (c : ControllerRef) (t : DeviceTree) : DeviceTree :=
  match kind with
  | .serial => { t with serial := some c }
  | .usb => { t with usb := some c }
  | .scsi thread => { t with scsi := t.scsi ++ [(thread, c)] }

def sharedController : ControllerKind → Edit Error DeviceTree ControllerRef
  | .serial => serialController
  | .usb => usbController
  | .scsi thread => scsiController thread

theorem sharedController_eq (kind : ControllerKind) :
    sharedController kind = shared (·.shared? kind) (remember kind) kind := by
  cases kind <;> rfl

@[simp] theorem remember_topology (kind : ControllerKind) (c : ControllerRef) (t : DeviceTree) :
    (remember kind c t).topology = t.topology := by
  cases kind <;> rfl

variable {t : DeviceTree} {kind : ControllerKind}

theorem shared?_remember (h : t.shared? kind = none) (c : ControllerRef) (other : ControllerKind) :
    (remember kind c t).shared? other = if other = kind then some c else t.shared? other := by
  cases kind with
  | scsi thread =>
    cases other with
    | scsi thread' =>
      by_cases hthread : thread' = thread
      · subst hthread
        have hnone : t.scsi.lookup thread' = none := h
        simp [shared?, remember, List.lookup_append, hnone]
      · have hother : (thread' == thread) = false := beq_false_of_ne hthread
        simp [shared?, remember, List.lookup_append, List.lookup_cons, hthread, hother]
    | _ => simp [shared?, remember]
  | _ => cases other <;> simp [shared?, remember]

end Remembered

/-- The controller of a kind has so many endpoints; without any there is none. -/
inductive Hosts (t : DeviceTree) (kind : ControllerKind) : Nat → Prop
  | none : t.shared? kind = none → Hosts t kind 0
  | some {r : ControllerRef} {c : Controller} : t.shared? kind = some r →
    t.topology.controller? r = .ok c → c.kind = kind → c.endpoints ≠ [] →
    Hosts t kind c.endpoints.length

variable {t t' : DeviceTree} {kind : ControllerKind} {n : Nat}

theorem hosts_empty (kind : ControllerKind) : Hosts {} kind 0 :=
  .none (by cases kind <;> rfl)

theorem Hosts.append (h : t.Hosts kind n) {more : List TopLevel}
    (hdevices : t'.topology.devices = t.topology.devices ++ more)
    (hshared : t'.shared? kind = t.shared? kind) : t'.Hosts kind n := by
  cases h with
  | none hnone => exact .none (hshared.trans hnone)
  | some href hc hkind hends =>
    exact .some (hshared.trans href) (Topology.controller?_append hdevices hc) hkind hends

/-- A tree with an endpoint more on the controller of a kind. -/
structure Shares (kind : ControllerKind) (n : Nat) (cards : List Card) (t t' : DeviceTree) :
    Prop where
  functions : t'.topology.functions = t.topology.functions + if n = 0 then 1 else 0
  sata : t'.topology.sata = t.topology.sata
  counts : ∀ family, family ≠ kind.family →
    t'.topology.counts.count family = t.topology.counts.count family
  cards : t'.topology.cards.Perm (t.topology.cards ++ cards)
  hosts : t'.Hosts kind (n + 1)
  others : ∀ other m, other ≠ kind → t.Hosts other m → t'.Hosts other m

/-- An endpoint on the controller that its kind shares. -/
def share (kind : ControllerKind) (make : Nat → Endpoint) : Edit Error DeviceTree String := do
  let c ← sharedController kind
  onTopology (Topology.onController c (Controller.attach kind.family make))

section Share

variable {make : Nat → Endpoint}

/-- The first time, the controller is made behind a new port. -/
theorem meets_sharedController_first (hnone : t.shared? kind = none) :
    Meets (sharedController kind) t
      (fun c t' => t.topology.functions < Topology.maxFunctions ∧
        c = ⟨t.topology.devices.length⟩ ∧ t' = { remember kind c t with
          topology := t.topology.withBehind kind.family fun id bus =>
            .controller ⟨kind, id, bus, []⟩ })
      (fun e t' => t' = t ∧ t.topology.Full e) := by
  rw [sharedController_eq]
  refine Meets.bind (M := fun seen t' => seen = t ∧ t' = t) ⟨rfl, rfl⟩ ?_
  rintro seen t' ⟨hseen, ht'⟩
  rw [hseen, ht']
  simp only [hnone]
  refine Meets.bind (M := fun root t' => t.topology.functions < Topology.maxFunctions ∧
    root = ⟨t.topology.devices.length⟩ ∧ t' = { t with topology := t.topology.withRoot }) ?_ ?_
  · refine meets_within.2 ((Topology.meets_addFunction _ _).mono ?_ ?_)
    · rintro root top ⟨hroom, rfl, rfl⟩
      exact ⟨hroom, rfl, rfl⟩
    · rintro e top ⟨rfl, hfull⟩
      exact ⟨rfl, hfull⟩
  · rintro _ _ ⟨hroom, rfl, rfl⟩
    refine Meets.bind (M := fun c t' => c = ⟨t.topology.devices.length⟩ ∧ t' = { t with
      topology := t.topology.withBehind kind.family fun id bus =>
        .controller ⟨kind, id, bus, []⟩ }) ?_ ?_
    · refine meets_within.2 (meets_map.2 ?_)
      rw [Meets, Topology.attach_newPort]
      exact ⟨rfl, rfl⟩
    · rintro _ _ ⟨rfl, rfl⟩
      refine ⟨hroom, rfl, ?_⟩
      cases kind <;> rfl

/-- From then on it is there. -/
theorem meets_sharedController_next {ref : ControllerRef} (href : t.shared? kind = some ref) :
    Meets (sharedController kind) t (fun c t' => c = ref ∧ t' = t) (fun _ _ => False) := by
  rw [sharedController_eq]
  refine Meets.bind (M := fun seen t' => seen = t ∧ t' = t) ⟨rfl, rfl⟩ ?_
  rintro seen t' ⟨hseen, ht'⟩
  rw [hseen, ht']
  simp only [href]
  exact ⟨rfl, rfl⟩

/-- The first endpoint of a kind comes with the controller. -/
theorem meets_share_first (hnone : t.shared? kind = none) : Meets (share kind make) t
    (fun _ t' => t.topology.functions < Topology.maxFunctions ∧
      t' = { remember kind ⟨t.topology.devices.length⟩ t with
        topology := t.topology.withBehind kind.family fun id bus =>
          .controller ⟨kind, id, bus, [make 0]⟩ })
    (fun e t' => t' = t ∧ t.topology.Full e) := by
  refine (meets_sharedController_first hnone).bind ?_
  rintro _ _ ⟨hroom, rfl, rfl⟩
  let top := t.topology.withBehind kind.family fun id bus => .controller ⟨kind, id, bus, []⟩
  let c : Controller := ⟨kind, t.topology.counts.next kind.family, t.topology.newPort.id, []⟩
  have hc : top.controller? ⟨t.topology.devices.length⟩ = .ok c :=
    Topology.controller?_eq_ok.2 ⟨_, List.getElem?_concat_length .., rfl⟩
  have htop : top.devices = t.topology.devices ++ .rootPort { t.topology.newPort with
      downstream := some (.controller c) } :: [] := rfl
  have hadd : top.withEndpoint ⟨t.topology.devices.length⟩ c (make 0) =
      t.topology.withBehind kind.family fun id bus => .controller ⟨kind, id, bus, [make 0]⟩ :=
    Topology.setDownstream_of_split htop _
  refine meets_within.2 ((Topology.meets_attachEndpoint hc make).mono ?_ ?_)
  · rintro id _ ⟨-, rfl⟩
    exact ⟨hroom, by rw [← hadd]; rfl⟩
  · -- A new controller has room.
    rintro e _ ⟨-, hfull, -⟩
    exact absurd kind.capacity_pos (Nat.not_lt.2 hfull)

theorem meets_share_next {ref : ControllerRef} {c : Controller} (href : t.shared? kind = some ref)
    (hc : t.topology.controller? ref = .ok c) (hkind : c.kind = kind) :
    Meets (share kind make) t
      (fun _ t' => c.endpoints.length < kind.capacity ∧
        t' = { t with topology := t.topology.withEndpoint ref c (make c.endpoints.length) })
      (fun e t' => t' = t ∧ kind.capacity ≤ c.endpoints.length ∧
        e = .capacity c.title kind.capacity c.endpoints.length) := by
  subst hkind
  refine ((meets_sharedController_next href).mono (fun _ _ => id) fun _ _ => False.elim).bind ?_
  rintro _ _ ⟨rfl, rfl⟩
  refine meets_within.2 ((Topology.meets_attachEndpoint hc make).mono ?_ ?_)
  · rintro id top ⟨hroom, rfl⟩
    exact ⟨hroom, rfl⟩
  · rintro e top ⟨rfl, hfull⟩
    exact ⟨rfl, hfull⟩

theorem shares_first (hnone : t.shared? kind = none) (make : Nat → Endpoint) :
    Shares kind 0 (make 0).cards t { remember kind ⟨t.topology.devices.length⟩ t with
      topology := t.topology.withBehind kind.family fun id bus =>
        .controller ⟨kind, id, bus, [make 0]⟩ } where
  functions := rfl
  sata := rfl
  counts family hfamily := by simp [Topology.withBehind, FamilyCounts.count_advance, hfamily]
  cards := by
    refine .of_eq ((Topology.cards_append rfl).trans ?_)
    simp [TopLevel.cards, TopLevel.ownCards, TopLevel.downstream?, Downstream.cards,
      Downstream.ownCards, Downstream.endpoints]
  hosts := by
    refine .some (r := ⟨t.topology.devices.length⟩)
      (c := ⟨kind, t.topology.counts.next kind.family, t.topology.newPort.id, [make 0]⟩) ?_ ?_
      rfl (List.cons_ne_nil _ _)
    · exact (shared?_remember hnone _ kind).trans (if_pos rfl)
    · exact Topology.controller?_eq_ok.2 ⟨_, List.getElem?_concat_length .., rfl⟩
  others other m hother h :=
    h.append rfl ((shared?_remember hnone _ other).trans (if_neg hother))

theorem shares_next {ref : ControllerRef} {c : Controller} (href : t.shared? kind = some ref)
    (hc : t.topology.controller? ref = .ok c) (hkind : c.kind = kind) (hends : c.endpoints ≠ [])
    (e : Endpoint) : Shares kind c.endpoints.length e.cards t
      { t with topology := t.topology.withEndpoint ref c e } where
  functions := by simp [Topology.withEndpoint, Topology.setDownstream, hends]
  sata := rfl
  counts _ _ := rfl
  cards := Topology.cards_withEndpoint hc e
  hosts := by
    have hlength : c.endpoints.length + 1 = (c.endpoints ++ [e]).length := by simp
    rw [hlength]
    exact .some (c := { c with endpoints := c.endpoints ++ [e] }) href
      (Topology.controller?_withEndpoint hc e) hkind (by simp)
  others other m hother h := by
    cases h with
    | none hnone => exact .none hnone
    | some href' hc' hkind' hends' =>
      refine .some href' (Topology.controller?_withEndpoint_of_ne hc e hc' ?_) hkind' hends'
      rwa [hkind', hkind]

/-- An endpoint more, or no room for it and nothing changed. -/
theorem meets_share (hn : t.Hosts kind n) : Meets (share kind make) t
    (fun _ t' => n < kind.capacity ∧ (n = 0 → t.topology.functions < Topology.maxFunctions) ∧
      Shares kind n (make n).cards t t')
    (fun e t' => t' = t ∧ (∃ resource limit count, e = .capacity resource limit count) ∧
      (n = 0 ∧ Topology.maxFunctions ≤ t.topology.functions ∨ kind.capacity ≤ n)) := by
  cases hn with
  | none hnone =>
    refine (meets_share_first hnone).mono ?_ ?_
    · rintro _ _ ⟨hroom, rfl⟩
      exact ⟨kind.capacity_pos, fun _ => hroom, shares_first hnone make⟩
    · rintro e _ ⟨rfl, hfull, rfl⟩
      exact ⟨rfl, ⟨_, _, _, rfl⟩, .inl ⟨rfl, hfull⟩⟩
  | some href hc hkind hends =>
    refine (meets_share_next href hc hkind).mono ?_ ?_
    · rintro _ _ ⟨hroom, rfl⟩
      refine ⟨hroom, fun hzero => ?_, shares_next href hc hkind hends _⟩
      exact absurd (List.length_eq_zero_iff.1 hzero) hends
    · rintro e _ ⟨rfl, hfull, rfl⟩
      exact ⟨rfl, ⟨_, _, _, rfl⟩, .inr hfull⟩

end Share

end DeviceTree

end GuestCompiler
