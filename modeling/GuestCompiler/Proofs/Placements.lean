import GuestCompiler.Proofs.SharedControllers
import Mathlib.Data.List.Indexes
import Mathlib.Data.List.Induction
import Mathlib.Data.List.ReduceOption

/-!
# Branches of a device tree

The devices of a guest are written in branches: a top-level device, the device behind it, and the
endpoints of that one. Placements are what a tree has been given, in order. Most of them are a
branch of their own; an endpoint starts one where it is the first of its kind, and is then written
in it with all others of its kind (`Placement.branches`). A tree lists placements when its branches
are theirs (`DeviceTree.Lists`), and each edit of it places one thing more.
-/
namespace GuestCompiler

open Edit

namespace Parameter

/-- What a device is, and what it is wired to outside of the tree, by the names of parameters. -/
def wires : List String := ["driver", "drive", "chardev", "netdev", "tpmdev", "sysfsdev"]

def wiring (ps : List Parameter) : List Parameter := ps.filter (·.name ∈ wires)

section Wiring

@[simp] theorem mem_wires {name : String} : name ∈ wires ↔ name = "driver" ∨ name = "drive" ∨
    name = "chardev" ∨ name = "netdev" ∨ name = "tpmdev" ∨ name = "sysfsdev" := by
  simp [wires]

@[simp] theorem wiring_nil : wiring [] = [] := rfl

@[simp] theorem wiring_cons (p : Parameter) (ps : List Parameter) :
    wiring (p :: ps) = if p.name ∈ wires then p :: wiring ps else wiring ps := by
  by_cases h : p.name ∈ wires
  · rw [if_pos h, wiring, List.filter_cons_of_pos (by simpa using h), wiring]
  · rw [if_neg h, wiring, List.filter_cons_of_neg (by simpa using h), wiring]

@[simp] theorem wiring_append (ps qs : List Parameter) :
    wiring (ps ++ qs) = wiring ps ++ wiring qs :=
  List.filter_append ..

@[simp] theorem wiring_given (name : String) (value : Option String) :
    wiring (given name value) = if name ∈ wires then given name value else [] := by
  cases value <;> simp [given]

@[simp] theorem wiring_switch (name : String) (on : Bool) :
    wiring (switch name on) = if name ∈ wires then switch name on else [] := by
  cases on <;> simp [switch]

end Wiring

end Parameter

/-- A top-level device and all that is behind it, by the wiring of each; and the kind of the
controller that is there. -/
structure Branch where
  kind : Option ControllerKind := none
  rows : List (List Parameter)
  deriving DecidableEq

/-- What a device tree can be given. -/
inductive Placement
  /-- A branch of its own. -/
  | lone (rows : List (List Parameter))
  | display
  /-- A network card on the next interface. -/
  | network
  /-- An endpoint of the controller that its kind shares. -/
  | endpoint (kind : ControllerKind) (row : List Parameter)
  deriving DecidableEq

namespace Placement

def portRow : List Parameter := [⟨"driver", "ioh3420"⟩]

/-- The row of an endpoint of a kind. -/
def row? (kind : ControllerKind) : Placement → Option (List Parameter)
  | endpoint k row => if k = kind then some row else none
  | _ => none

/-- The endpoints of a kind, in order. -/
def rowsOf (kind : ControllerKind) (ps : List Placement) : List (List Parameter) :=
  ps.filterMap (row? kind)

/-- The branch that a placement starts, by those before it; the endpoints in it are those of all
placements. Only the first display is a VGA card. -/
def branch? (all before : List Placement) : Placement → Option Branch
  | lone rows => some { rows := rows }
  | display => some {
      rows := [[⟨"driver", if display ∈ before then "qxl" else "qxl-vga"⟩]] }
  | network => some {
      rows := [portRow,
        [⟨"driver", "virtio-net-pci"⟩, ⟨"netdev", "net." ++ toString (before.count network)⟩]] }
  | endpoint kind _ =>
    if rowsOf kind before = [] then
      some ⟨some kind, portRow :: [⟨"driver", kind.driver⟩] :: rowsOf kind all⟩
    else none

/-- The branches of placements, in the order in which they were started. -/
def branches (ps : List Placement) : List Branch :=
  (ps.mapIdx fun i p => p.branch? ps (ps.take i)).reduceOption

/-- A branch with a placement in it, if it is an endpoint of the branch's kind. -/
def join (p : Placement) (b : Branch) : Branch :=
  { b with rows := b.rows ++ (b.kind.bind fun kind => p.row? kind).toList }

variable {ps : List Placement} {p : Placement} {kind : ControllerKind} {row : List Parameter}
  {b : Branch}

@[simp] theorem row?_endpoint : row? kind (endpoint kind row) = some row := if_pos rfl

theorem rowsOf_concat : rowsOf kind (ps ++ [p]) = rowsOf kind ps ++ (row? kind p).toList := by
  rw [rowsOf, List.filterMap_append, rowsOf]
  cases h : row? kind p <;> simp [h]

/-- A placement more is seen only in the branch of its kind. -/
theorem branch?_concat (p : Placement) (all before : List Placement) (x : Placement) :
    x.branch? (all ++ [p]) before = (x.branch? all before).map p.join := by
  cases x with
  | endpoint kind row =>
    by_cases hfirst : rowsOf kind before = []
    · simp [branch?, hfirst, join, rowsOf_concat]
    · simp [branch?, hfirst]
  | _ => simp [branch?, join]

theorem branches_concat (ps : List Placement) (p : Placement) :
    branches (ps ++ [p]) = (branches ps).map p.join ++ (p.branch? (ps ++ [p]) ps).toList := by
  have hbefore : (ps.mapIdx fun i x => x.branch? (ps ++ [p]) ((ps ++ [p]).take i)) =
      (ps.mapIdx fun i x => x.branch? ps (ps.take i)).map (Option.map p.join) := by
    refine List.ext_getElem (by simp) fun i hi _ => ?_
    have hlength : i ≤ ps.length := by
      rw [List.length_mapIdx] at hi
      omega
    simp [List.take_append_of_le_length hlength, branch?_concat]
  have hlast : [p.branch? (ps ++ [p]) ps].reduceOption = (p.branch? (ps ++ [p]) ps).toList := by
    cases p.branch? (ps ++ [p]) ps <;> rfl
  rw [branches, List.mapIdx_concat, List.reduceOption_append, hbefore, List.reduceOption_map,
    branches]
  simp [hlast]

/-- What is no endpoint joins no branch. -/
theorem join_eq_self (h : ∀ kind, b.kind = some kind → row? kind p = none) : p.join b = b := by
  obtain ⟨kind?, rows⟩ := b
  cases kind? with
  | none => simp [join]
  | some kind => simp [join, h kind rfl]

theorem branches_concat_of_lone (hrow : ∀ kind, row? kind p = none) :
    branches (ps ++ [p]) = branches ps ++ (p.branch? (ps ++ [p]) ps).toList := by
  have hjoin : (branches ps).map p.join = branches ps := by
    refine List.map_id'' (fun b => ?_) _
    exact join_eq_self fun kind _ => hrow kind
  rw [branches_concat, hjoin]

section Kinds

/-- The kinds that have a branch. -/
def kinds (ps : List Placement) : List ControllerKind := (branches ps).filterMap Branch.kind

theorem kinds_concat (ps : List Placement) (p : Placement) :
    kinds (ps ++ [p]) = kinds ps ++ ((p.branch? (ps ++ [p]) ps).bind Branch.kind).toList := by
  have hjoin : ((branches ps).map p.join).filterMap Branch.kind = kinds ps := by
    rw [List.filterMap_map]
    rfl
  rw [kinds, branches_concat, List.filterMap_append, hjoin]
  cases h : p.branch? (ps ++ [p]) ps with
  | none => rfl
  | some b => cases hkind : b.kind <;> simp [hkind]

/-- A branch of a kind is started only where there is none. -/
theorem branch?_kind {all before : List Placement}
    (h : (p.branch? all before).bind Branch.kind = some kind) :
    rowsOf kind before = [] ∧ ∃ row, p = endpoint kind row := by
  cases p with
  | endpoint k row =>
    by_cases hfirst : rowsOf k before = []
    · simp only [branch?, hfirst, if_true, Option.bind_some, Option.some.injEq] at h
      subst h
      exact ⟨hfirst, row, rfl⟩
    · simp [branch?, hfirst] at h
  | _ => simp [branch?] at h

theorem rowsOf_ne_nil (h : kind ∈ kinds ps) : rowsOf kind ps ≠ [] := by
  induction ps using List.reverseRecOn with
  | nil => exact absurd h List.not_mem_nil
  | append_singleton ps p ih =>
    rw [kinds_concat] at h
    rw [rowsOf_concat]
    rcases List.mem_append.1 h with hold | hnew
    · simp [ih hold]
    · obtain ⟨-, row, rfl⟩ := branch?_kind (Option.mem_toList.1 hnew)
      simp

/-- Each kind has one branch. -/
theorem nodup_kinds (ps : List Placement) : (kinds ps).Nodup := by
  induction ps using List.reverseRecOn with
  | nil => exact List.nodup_nil
  | append_singleton ps p ih =>
    rw [kinds_concat]
    cases hkind : (p.branch? (ps ++ [p]) ps).bind Branch.kind with
    | none => simpa using ih
    | some kind =>
      have hnew : kind ∉ kinds ps := fun hmem => rowsOf_ne_nil hmem (branch?_kind hkind).1
      rw [Option.toList_some, List.nodup_append]
      exact ⟨ih, List.nodup_singleton kind, fun a ha b hb heq =>
        hnew (List.mem_singleton.1 hb ▸ heq ▸ ha)⟩

/-- An endpoint joins no branch of another kind. -/
theorem map_join_eq_self {bs : List Branch} (h : kind ∉ bs.filterMap Branch.kind)
    (row : List Parameter) : bs.map (endpoint kind row).join = bs := by
  refine (List.map_congr_left fun b hb => ?_).trans (List.map_id bs)
  refine join_eq_self fun other hother => if_neg ?_
  rintro rfl
  exact h (List.mem_filterMap.2 ⟨b, hb, hother⟩)

theorem branches_concat_first (h : rowsOf kind ps = []) (row : List Parameter) :
    branches (ps ++ [endpoint kind row]) = branches ps ++
      [⟨some kind, [portRow, [⟨"driver", kind.driver⟩], row]⟩] := by
  have hnone : kind ∉ kinds ps := fun hmem => rowsOf_ne_nil hmem h
  rw [branches_concat, map_join_eq_self hnone]
  simp [branch?, h, rowsOf_concat]

/-- A later endpoint comes last in the branch of its kind. -/
theorem branches_concat_next {before after : List Branch}
    (h : branches ps = before ++ b :: after) (hkind : b.kind = some kind) (row : List Parameter) :
    branches (ps ++ [endpoint kind row]) =
      before ++ { b with rows := b.rows ++ [row] } :: after := by
  have hkinds : kinds ps = before.filterMap Branch.kind ++ kind :: after.filterMap Branch.kind := by
    rw [kinds, h, List.filterMap_append, List.filterMap_cons_some hkind]
  obtain ⟨-, hafter, hbefore⟩ := List.nodup_append.1 (hkinds ▸ nodup_kinds ps)
  have hfirst : rowsOf kind ps ≠ [] := rowsOf_ne_nil (by simp [hkinds])
  have hjoin : (endpoint kind row).join b = { b with rows := b.rows ++ [row] } := by
    simp [join, hkind]
  rw [branches_concat, h, List.map_append, List.map_cons, hjoin,
    map_join_eq_self fun hmem => hbefore kind hmem kind List.mem_cons_self rfl,
    map_join_eq_self (List.nodup_cons.1 hafter).1]
  simp [branch?, hfirst]

end Kinds

end Placement

open Parameter

/-- The row of an endpoint, wherever it is attached. -/
def Endpoint.row (e : Endpoint) : List Parameter := ⟨"driver", e.driver⟩ :: wiring e.ownParameters

namespace TopLevel

def branch (d : TopLevel) : Branch where
  kind := d.controller?.map Controller.kind
  rows := d.allParameters.map wiring

theorem branch_bare {d : TopLevel} (h : d.downstream? = none) :
    d.branch = { rows := [wiring d.parameters] } := by
  simp [branch, controller?, allParameters, h]

theorem branch_behind {port : RootPort} {device : Downstream}
    (h : ∀ c, device ≠ .controller c) :
    branch (.rootPort { port with downstream := some device }) =
      { rows := [Placement.portRow, wiring device.parameters] } := by
  cases device with
  | controller c => exact absurd rfl (h c)
  | _ => simp [branch, controller?, allParameters, downstream?, parameters, RootPort.parameters,
      RootPort.driver, PciAddress.parameters, number, Placement.portRow]

theorem branch_controller (port : RootPort) (c : Controller) :
    branch (.rootPort { port with downstream := some (.controller c) }) =
      ⟨some c.kind, Placement.portRow :: [⟨"driver", c.kind.driver⟩] ::
        c.endpoints.map Endpoint.row⟩ := by
  have hself : wiring c.parameters = [⟨"driver", c.kind.driver⟩] := by
    obtain ⟨kind, _, _, _⟩ := c
    cases kind <;> simp [Controller.parameters, Controller.kindParameters, number]
  have hendpoints : c.endpointParameters.map wiring = c.endpoints.map Endpoint.row := by
    refine List.ext_getElem (by simp [Controller.endpointParameters]) fun i _ _ => ?_
    simp [Controller.endpointParameters, Endpoint.row]
  simp [branch, controller?, allParameters, downstream?, parameters, RootPort.parameters,
    RootPort.driver, PciAddress.parameters, number, Placement.portRow, hself, hendpoints]

end TopLevel

namespace DeviceTree

/-- A tree whose branches are those of what has been placed in it. -/
structure Lists (t : DeviceTree) (ps : List Placement) : Prop where
  branches : t.topology.devices.map TopLevel.branch = Placement.branches ps
  displays : t.topology.counts.count "qxl" = ps.count .display
  hosts : ∀ kind, t.Hosts kind (Placement.rowsOf kind ps).length

theorem lists_empty : Lists {} [] := ⟨rfl, rfl, hosts_empty⟩

variable {t : DeviceTree} {ps : List Placement} {p : Placement} {d : TopLevel}

/-- A device comes last, and is the branch of a placement. -/
theorem Lists.concat (h : t.Lists ps) {top : Topology}
    (hdevices : top.devices = t.topology.devices ++ [d])
    (hdisplays : top.counts.count "qxl" =
      t.topology.counts.count "qxl" + if p = .display then 1 else 0)
    (hrow : ∀ kind, p.row? kind = none) (hbranch : p.branch? (ps ++ [p]) ps = some d.branch) :
    { t with topology := top }.Lists (ps ++ [p]) where
  branches := by
    rw [hdevices, List.map_append, h.branches, Placement.branches_concat_of_lone hrow, hbranch]
    rfl
  displays := by
    rw [hdisplays, h.displays, List.count_append, List.count_singleton]
    simp
  hosts kind := by
    rw [Placement.rowsOf_concat, hrow, Option.toList_none, List.append_nil]
    exact (h.hosts kind).append hdevices (by cases kind <;> rfl)

section Edits

/-- A device at the next function of the root complex. -/
theorem addFunction_lists {α : Type} {make : Topology → TopLevel × FamilyCounts × α}
    (hrow : ∀ kind, p.row? kind = none)
    (hmake : ∀ t ps, Lists t ps → (make t.topology).2.1.count "qxl" =
        t.topology.counts.count "qxl" + (if p = .display then 1 else 0) ∧
      p.branch? (ps ++ [p]) ps = some (make t.topology).1.branch) :
    Appends Lists (onTopology (Topology.addFunction make)) [p] fun _ => True := by
  refine appends_iff.2 fun t ps h => ?_
  obtain ⟨hdisplays, hbranch⟩ := hmake t ps h
  refine meets_within.2 ((Topology.meets_addFunction make _).yields.imp ?_)
  rintro _ _ ⟨-, -, rfl⟩
  exact ⟨h.concat rfl hdisplays hrow hbranch, trivial⟩

theorem addPanic_lists : Appends Lists (onTopology Topology.addPanic)
    [.lone [[⟨"driver", "pvpanic-pci"⟩]]] fun _ => True := by
  refine addFunction_lists (fun _ => rfl) fun t ps _ => ⟨?_, ?_⟩
  · simp [FamilyCounts.count_advance]
  · rw [TopLevel.branch_bare rfl]
    simp [Placement.branch?, TopLevel.parameters, PciAddress.parameters]

/-- The first display is told by the number of displays. -/
theorem addDisplay_lists : Appends Lists (onTopology Topology.addDisplay) [.display]
    fun _ => True := by
  refine addFunction_lists (fun _ => rfl) fun t ps h => ⟨?_, ?_⟩
  · simp [FamilyCounts.count_advance]
  · have hfirst : (t.topology.counts.count "qxl" == 0) = !decide (Placement.display ∈ ps) := by
      rw [h.displays, Bool.eq_iff_iff]
      simp [List.count_eq_zero]
    rw [TopLevel.branch_bare rfl]
    by_cases hmem : Placement.display ∈ ps <;>
      simp [Placement.branch?, TopLevel.parameters, PciAddress.parameters, hfirst, hmem]

theorem addTpm_lists (tpmDevice : String) : Appends Lists (onTopology (Topology.addTpm tpmDevice))
    [.lone [[⟨"driver", "tpm-tis"⟩, ⟨"tpmdev", tpmDevice⟩]]] fun _ => True := by
  refine appends_iff.2 fun t ps h => ?_
  refine ⟨h.concat rfl rfl (fun _ => rfl) ?_, trivial⟩
  rw [TopLevel.branch_bare rfl]
  simp [Placement.branch?, TopLevel.parameters]

theorem addCdrom_lists (node : String) (bootIndex : Option Nat) :
    Appends Lists (onTopology (Topology.addCdrom node bootIndex))
      [.lone [[⟨"driver", "ide-cd"⟩, ⟨"drive", node⟩]]] fun _ => True := by
  refine appends_iff.2 fun t ps h => ?_
  simp only [Yields, Meets, onTopology, within, Topology.addCdrom]
  by_cases hfull : Topology.maxSata ≤ t.topology.sata
  · simp only [hfull, if_true]
  · simp only [hfull, if_false]
    refine ⟨h.concat rfl ?_ (fun _ => rfl) ?_, trivial⟩
    · simp [FamilyCounts.count_advance]
    · rw [TopLevel.branch_bare rfl]
      simp [Placement.branch?, TopLevel.parameters, bootParameter]

/-- A device behind a port of its own. -/
theorem Lists.attachNew (h : t.Lists ps) {family : String} (hfamily : family ≠ "qxl")
    {make : String → String → Downstream} (hmake : ∀ id bus c, make id bus ≠ .controller c)
    (hp : p ≠ .display) (hrow : ∀ kind, p.row? kind = none)
    (hbranch : ∀ id bus, p.branch? (ps ++ [p]) ps =
      some { rows := [Placement.portRow, wiring (make id bus).parameters] }) :
    Yields (onTopology do Topology.attach (← Topology.addRoot) family make) t
      fun _ t' => t'.Lists (ps ++ [p]) := by
  refine meets_within.2 ((Topology.meets_attachNew family make _).yields.imp ?_)
  rintro _ _ ⟨-, -, rfl⟩
  refine h.concat rfl ?_ hrow ?_
  · simp [Topology.withBehind, FamilyCounts.count_advance, hfamily.symm, hp]
  · rw [TopLevel.branch_behind (hmake _ _)]
    exact hbranch _ _

section Share

variable {t' : DeviceTree} {kind : ControllerKind} {make : Nat → Endpoint}
  {row : List Parameter} {cards : List Card} {n : Nat}

theorem eq_zero_of_hosts (h : t.Hosts kind n) (hnone : t.shared? kind = none) : n = 0 := by
  cases h with
  | none _ => rfl
  | some href _ _ _ => cases hnone.symm.trans href

theorem exists_controller_of_hosts (h : t.Hosts kind n) {ref : ControllerRef}
    (href : t.shared? kind = some ref) : ∃ c, t.topology.controller? ref = .ok c ∧
      c.kind = kind ∧ c.endpoints ≠ [] ∧ n = c.endpoints.length := by
  cases h with
  | none hnone => cases hnone.symm.trans href
  | some href' hc hkind hends =>
    cases href.symm.trans href'
    exact ⟨_, hc, hkind, hends, rfl⟩

/-- One endpoint more of a kind, and the branch that it is in. -/
theorem Lists.share (h : t.Lists ps) (hn : (Placement.rowsOf kind ps).length = n)
    (hshares : Shares kind n cards t t')
    (hbranches : t'.topology.devices.map TopLevel.branch =
      Placement.branches (ps ++ [.endpoint kind row])) :
    t'.Lists (ps ++ [.endpoint kind row]) where
  branches := hbranches
  displays := by
    have hfamily : "qxl" ≠ kind.family := by cases kind <;> simp [ControllerKind.family]
    rw [hshares.counts _ hfamily, h.displays]
    simp
  hosts other := by
    rw [Placement.rowsOf_concat, List.length_append]
    by_cases hother : other = kind
    · subst hother
      rw [Placement.row?_endpoint, hn]
      exact hshares.hosts
    · have hrow : Placement.row? other (.endpoint kind row) = none := if_neg (Ne.symm hother)
      rw [hrow]
      exact hshares.others other _ hother (h.hosts other)

/-- The first endpoint starts a branch with the controller. -/
theorem Lists.first (h : t.Lists ps) (hnone : t.shared? kind = none) (hrow : (make 0).row = row) :
    Lists { remember kind ⟨t.topology.devices.length⟩ t with
      topology := t.topology.withBehind kind.family fun id bus =>
        .controller ⟨kind, id, bus, [make 0]⟩ } (ps ++ [.endpoint kind row]) := by
  have hlength : (Placement.rowsOf kind ps).length = 0 := eq_zero_of_hosts (h.hosts kind) hnone
  have hzero : Placement.rowsOf kind ps = [] := List.length_eq_zero_iff.1 hlength
  refine h.share hlength (shares_first hnone make) ?_
  rw [Placement.branches_concat_first hzero, ← h.branches, Topology.withBehind, List.map_append,
    List.map_singleton, TopLevel.branch_controller, List.map_singleton, hrow]

/-- A later endpoint comes last behind the controller. -/
theorem Lists.next (h : t.Lists ps) {ref : ControllerRef} {c : Controller} {e : Endpoint}
    (href : t.shared? kind = some ref) (hc : t.topology.controller? ref = .ok c)
    (hkind : c.kind = kind) (hends : c.endpoints ≠ [])
    (hlength : (Placement.rowsOf kind ps).length = c.endpoints.length) (hrow : e.row = row) :
    Lists { t with topology := t.topology.withEndpoint ref c e } (ps ++ [.endpoint kind row]) := by
  refine h.share hlength (shares_next href hc hkind hends e) ?_
  obtain ⟨port, hport, hdown⟩ := Topology.controller?_eq_ok.1 hc
  obtain ⟨before, after, hdevices, hposition⟩ := Topology.exists_split hport
  have hself : port = { port with downstream := some (.controller c) } := by rw [← hdown]
  have hbranches := h.branches
  rw [hdevices, hself, List.map_append, List.map_cons, TopLevel.branch_controller] at hbranches
  rw [Placement.branches_concat_next hbranches.symm (congrArg some hkind), Topology.withEndpoint,
    ← hposition, Topology.setDownstream_of_split hdevices]
  simp [TopLevel.branch_controller, hrow]

theorem share_lists (hrow : ∀ n, (make n).row = row) :
    Appends Lists (DeviceTree.share kind make) [.endpoint kind row] fun _ => True := by
  refine appends_iff.2 fun t ps h => ?_
  cases href : t.shared? kind with
  | none =>
    refine (meets_share_first href).yields.imp ?_
    rintro _ _ ⟨-, rfl⟩
    exact ⟨h.first href (hrow 0), trivial⟩
  | some ref =>
    obtain ⟨c, hc, hkind, hends, hlength⟩ := exists_controller_of_hosts (h.hosts kind) href
    refine (meets_share_next href hc hkind).yields.imp ?_
    rintro _ _ ⟨-, rfl⟩
    exact ⟨h.next href hc hkind hends hlength (hrow _), trivial⟩

end Share

end Edits

end DeviceTree

end GuestCompiler
