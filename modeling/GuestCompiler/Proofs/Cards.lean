import GuestCompiler.Proofs.FirmwareNodes

/-!
# Drives, network cards and devices of the host

Of the devices of a guest some stand for something outside of it: a volume, a network, a device of
the host. They are the cards of a topology, whatever they are attached to (`Topology.cards`). The
columns of an option are what some of its parameters are set to, and a way to read the columns of
the devices of one sort is a way to read the cards of that sort (`CardReader.topology`).
-/
namespace GuestCompiler

namespace Parameter

/-- What the parameters of a name are set to. -/
def column (ps : List Parameter) (name : String) : List String :=
  (ps.filter (·.name == name)).map (·.value)

section Columns

variable {name : String}

@[simp] theorem column_nil : column [] name = [] := rfl

@[simp] theorem column_cons (p : Parameter) (ps : List Parameter) :
    column (p :: ps) name =
      if p.name = name then p.value :: column ps name else column ps name := by
  by_cases h : p.name = name <;> simp [column, h]

@[simp] theorem column_append (ps qs : List Parameter) :
    column (ps ++ qs) name = column ps name ++ column qs name := by
  simp [column]

@[simp] theorem column_given (n : String) (value : Option String) :
    column (given n value) name = if n = name then value.toList else [] := by
  cases value <;> simp [given]

@[simp] theorem column_switch (n : String) (on : Bool) :
    column (switch n on) name = if n = name ∧ on then ["on"] else [] := by
  cases on <;> simp [switch]

@[simp] theorem column_bootParameter (bootIndex : Option Nat) :
    column (bootParameter bootIndex) name =
      if "bootindex" = name then (bootIndex.map toString).toList else [] :=
  column_given ..

end Columns

end Parameter

open Parameter

namespace CommandOption

def columns (names : List String) (o : CommandOption) : List (List String) := names.map o.values

/-- The options of a kind that are of a sort, by some of their parameters. -/
def table (os : List CommandOption) (kind : String) (sort : CommandOption → Bool)
    (names : List String) : List (List (List String)) :=
  (os.filter fun o => o.kind == kind && sort o).map (columns names)

/-- All options of a kind, by some of their parameters. -/
def rows (os : List CommandOption) (kind : String) (names : List String) :
    List (List (List String)) :=
  table os kind (fun _ => true) names

/-- The devices with a drive: their driver, and what the drive is known by. -/
def drives (os : List CommandOption) : List (List (List String)) :=
  table os "device" (fun o => o.values "drive" != []) ["driver", "drive", "wwn", "serial"]

def devicesOf (os : List CommandOption) (driver : String) (names : List String) :
    List (List (List String)) :=
  table os "device" (fun o => o.values "driver" == [driver]) names

end CommandOption

/-- A device that stands for something outside of the guest, as far as that is known. -/
inductive Card
  | drive (driver node : String) (disk : DiskOptions)
  | network (id : String) (mac : Option MacAddress) (tap : String)
  | passthrough (id : String) (path : Option Path)
  deriving DecidableEq

namespace Endpoint

def cards : Endpoint → List Card
  | scsiDisk _ drive disk => [.drive "scsi-hd" drive disk]
  | scsiCd _ drive disk => [.drive "scsi-cd" drive disk]
  | usbTablet _ => []
  | usbRedirect .. => []
  | usbStorage _ drive bootIndex => [.drive "usb-storage" drive { bootIndex := bootIndex }]
  | serialPort .. => []

end Endpoint

namespace Downstream

/-- A device as a card, without the endpoints behind it. -/
def ownCards : Downstream → List Card
  | controller _ => []
  | block _ _ _ drive disk => [.drive "virtio-blk-pci" drive { disk with wwn := none }]
  | network id _ mac tap => [.network id (some mac) tap]
  | vfio id _ path => [.passthrough id (some path)]

def cards (d : Downstream) : List Card := d.ownCards ++ d.endpoints.flatMap Endpoint.cards

end Downstream

namespace TopLevel

def ownCards : TopLevel → List Card
  | cdrom _ _ drive bootIndex => [.drive "ide-cd" drive { bootIndex := bootIndex }]
  | _ => []

def cards (d : TopLevel) : List Card := d.ownCards ++ d.downstream?.toList.flatMap Downstream.cards

end TopLevel

def Topology.cards (t : Topology) : List Card := t.devices.flatMap TopLevel.cards

section Readers

variable {α : Type} {row : List Parameter → Option α} {entry : Card → Option α}

/-- To read what is written for a device is to read the card that the device is. -/
structure CardReader (row : List Parameter → Option α) (entry : Card → Option α) : Prop where
  top : ∀ d : TopLevel, [d.parameters].filterMap row = d.ownCards.filterMap entry
  behind : ∀ d : Downstream, [d.parameters].filterMap row = d.ownCards.filterMap entry
  endpoint : ∀ (c : Controller) (k : Nat) (e : Endpoint),
    [[⟨"driver", e.driver⟩, ⟨"id", c.endpointId k⟩, ⟨"bus", c.bus⟩] ++
      e.ownParameters].filterMap row = e.cards.filterMap entry

theorem CardReader.controller (h : CardReader row entry) (c : Controller) :
    c.endpointParameters.filterMap row = (c.endpoints.flatMap Endpoint.cards).filterMap entry := by
  rw [Controller.endpointParameters]
  -- The position of an endpoint does not show in its card.
  suffices hall : ∀ (es : List Endpoint) (f : Nat → Endpoint → List Parameter),
      (∀ k e, [f k e].filterMap row = e.cards.filterMap entry) →
        (es.mapIdx f).filterMap row = (es.flatMap Endpoint.cards).filterMap entry from
    hall _ _ fun k e => h.endpoint c k e
  intro es
  induction es with
  | nil => exact fun _ _ => rfl
  | cons e es ih =>
    intro f hf
    rw [List.mapIdx_cons, List.flatMap_cons, ← List.singleton_append, List.filterMap_append,
      List.filterMap_append, hf, ih _ fun k e => hf (k + 1) e]

theorem CardReader.device (h : CardReader row entry) (d : TopLevel) :
    d.allParameters.filterMap row = d.cards.filterMap entry := by
  rw [TopLevel.allParameters, TopLevel.cards, ← List.singleton_append, List.filterMap_append,
    List.filterMap_append, h.top]
  refine congrArg _ ?_
  cases d.downstream? with
  | none => rfl
  | some device =>
    rw [Option.toList_some, List.flatMap_singleton]
    cases device with
    | controller c =>
      have hself := h.behind (.controller c)
      rw [Downstream.cards, List.filterMap_append, ← hself, Downstream.endpoints,
        ← h.controller c, ← List.filterMap_append]
      rfl
    | _ => exact (h.behind _).trans (by simp [Downstream.cards, Downstream.endpoints])

theorem CardReader.topology (h : CardReader row entry) (t : Topology) :
    (t.devices.flatMap TopLevel.allParameters).filterMap row = t.cards.filterMap entry := by
  rw [Topology.cards, List.filterMap_flatMap, List.filterMap_flatMap]
  exact List.flatMap_congr fun d _ => h.device d

end Readers

section Tables

/-- The row of a drive, a network card or a device of the host in the table of its sort. -/
def Card.driveRow? : Card → Option (List (List String))
  | drive driver node disk => some
    [[driver], [node], (disk.wwn.map Wwn.toString).toList, disk.serial.toList]
  | network .. => none
  | passthrough .. => none

/-- The row of a network card, if its address is known. -/
def Card.networkRow? : Card → Option (Option (List (List String)))
  | drive .. => none
  | network id mac tap => some (mac.map fun mac => [[id], [mac.toString], [tap]])
  | passthrough .. => none

/-- The row of a device of the host, if its directory is known. -/
def Card.passthroughRow? : Card → Option (Option (List (List String)))
  | drive .. => none
  | network .. => none
  | passthrough id path => some (path.map fun path => [[id], [path.text]])

/-- The row of a device in the table of a sort. -/
def Parameter.row? (sort : List Parameter → Bool) (names : List String) (ps : List Parameter) :
    Option (List (List String)) :=
  if sort ps then some (names.map (column ps)) else none

theorem Parameter.filterMap_row? (sort : List Parameter → Bool) (names : List String)
    (pss : List (List Parameter)) :
    pss.filterMap (row? sort names) = (pss.filter sort).map fun ps => names.map (column ps) := by
  induction pss with
  | nil => rfl
  | cons ps pss ih => cases hsort : sort ps <;> simp [row?, hsort, ih]

section Drives

/-- What is written for a drive wherever it is attached. -/
def Card.driveParameters? : Card → Option (List Parameter)
  | drive driver node disk => some ([⟨"driver", driver⟩, ⟨"drive", node⟩] ++
      given "wwn" (disk.wwn.map Wwn.toString) ++ given "serial" disk.serial ++
      bootParameter disk.bootIndex)
  | network .. => none
  | passthrough .. => none

variable {key : String} {names : List String} {ps qs : List Parameter}

theorem filterMap_row?_congr (h : ∀ name ∈ ["driver", "drive", "wwn", "serial", "bootindex"],
    column ps name = column qs name)
    (hkey : key ∈ ["drive", "wwn", "serial", "bootindex"])
    (hnames : names ⊆ ["driver", "drive", "wwn", "serial", "bootindex"]) :
    [ps].filterMap (row? (fun ps => column ps key != []) names) =
      [qs].filterMap (row? (fun ps => column ps key != []) names) := by
  have hsort : column ps key = column qs key := h key (List.mem_cons_of_mem _ hkey)
  have hcolumns : names.map (column ps) = names.map (column qs) :=
    List.map_congr_left fun name hname => h name (hnames hname)
  simp only [List.filterMap_cons, row?, hsort, hcolumns]

theorem filterMap_row?_eq_nil (h : ∀ name ∈ ["drive", "wwn", "serial", "bootindex"],
    column ps name = []) (hkey : key ∈ ["drive", "wwn", "serial", "bootindex"]) :
    [ps].filterMap (row? (fun ps => column ps key != []) names) = [] := by
  simp [row?, h key hkey]

/-- Only drives are written with what makes a drive known, and all of them in the same way. -/
theorem CardReader.ofDrives (hkey : key ∈ ["drive", "wwn", "serial", "bootindex"])
    (hnames : names ⊆ ["driver", "drive", "wwn", "serial", "bootindex"]) :
    CardReader (row? (fun ps => column ps key != []) names)
      (fun c => c.driveParameters?.bind (row? (fun ps => column ps key != []) names)) where
  top d := by
    cases d with
    | cdrom => exact filterMap_row?_congr (by simp [TopLevel.parameters]) hkey hnames
    | _ => exact filterMap_row?_eq_nil (by simp [TopLevel.parameters, RootPort.parameters,
        PciAddress.parameters, number]) hkey
  behind d := by
    cases d with
    | controller c =>
      obtain ⟨kind, _, _, _⟩ := c
      cases kind <;> exact filterMap_row?_eq_nil (by simp [Downstream.parameters,
        Controller.parameters, Controller.kindParameters, number]) hkey
    | block => exact filterMap_row?_congr (by simp [Downstream.parameters, number]) hkey hnames
    | _ => exact filterMap_row?_eq_nil (by simp [Downstream.parameters]) hkey
  endpoint c k e := by
    cases e with
    | scsiDisk | scsiCd | usbStorage =>
      exact filterMap_row?_congr (by simp [Endpoint.ownParameters, Endpoint.scsiParameters,
        Endpoint.driver, number]) hkey hnames
    | _ => exact filterMap_row?_eq_nil (by simp [Endpoint.ownParameters, number]) hkey

theorem CardReader.congr {α : Type} {row : List Parameter → Option α}
    {entry entry' : Card → Option α} (h : CardReader row entry)
    (heq : ∀ c, entry c = entry' c) : CardReader row entry' := funext heq ▸ h

theorem driveReader : CardReader
    (row? (fun ps => column ps "drive" != []) ["driver", "drive", "wwn", "serial"])
    Card.driveRow? := by
  refine (CardReader.ofDrives (by simp) (by simp)).congr fun c => ?_
  cases c <;> simp [Card.driveParameters?, Card.driveRow?, row?]

end Drives

/-- Network cards and devices of the host are behind root ports, and nowhere else. -/
theorem CardReader.ofBehind {driver : String} {names : List String}
    {entry : Card → Option (Option (List (List String)))}
    (hdriver : driver ∈ ["virtio-net-pci", "vfio-pci"])
    (hdrive : ∀ driver node disk, entry (.drive driver node disk) = none)
    (hbehind : ∀ d : Downstream, (∀ c, d ≠ .controller c) →
      [d.parameters].filterMap (fun ps =>
        (row? (fun ps => column ps "driver" == [driver]) names ps).map some) =
        d.ownCards.filterMap entry) :
    CardReader (fun ps => (row? (fun ps => column ps "driver" == [driver]) names ps).map some)
      entry where
  top d := by
    simp only [List.mem_cons, List.not_mem_nil, or_false] at hdriver
    cases d with
    | display id address vga =>
      rcases hdriver with rfl | rfl <;> cases vga <;>
        simp [row?, TopLevel.ownCards, TopLevel.parameters, PciAddress.parameters]
    | _ =>
      rcases hdriver with rfl | rfl <;>
        simp [row?, hdrive, TopLevel.ownCards, TopLevel.parameters, RootPort.parameters,
          RootPort.driver, PciAddress.parameters, number]
  behind d := by
    simp only [List.mem_cons, List.not_mem_nil, or_false] at hdriver
    cases d with
    | controller c =>
      obtain ⟨kind, _, _, _⟩ := c
      rcases hdriver with rfl | rfl <;> cases kind <;>
        simp [row?, Downstream.ownCards, Downstream.parameters, Controller.parameters,
          Controller.kindParameters, ControllerKind.driver, number]
    | _ => exact hbehind _ (by simp)
  endpoint c k e := by
    simp only [List.mem_cons, List.not_mem_nil, or_false] at hdriver
    cases e <;> rcases hdriver with rfl | rfl <;>
      simp [row?, hdrive, Endpoint.cards, Endpoint.ownParameters, Endpoint.scsiParameters,
        Endpoint.driver, number]

theorem networkReader : CardReader
    (fun ps => (row? (fun ps => column ps "driver" == ["virtio-net-pci"])
      ["id", "mac", "netdev"] ps).map some) Card.networkRow? := by
  refine .ofBehind (by simp) (fun _ _ _ => rfl) fun d hd => ?_
  cases d with
  | controller c => exact absurd rfl (hd c)
  | _ => simp [row?, Card.networkRow?, Downstream.ownCards, Downstream.parameters, number]

theorem passthroughReader : CardReader
    (fun ps => (row? (fun ps => column ps "driver" == ["vfio-pci"])
      ["id", "sysfsdev"] ps).map some) Card.passthroughRow? := by
  refine .ofBehind (by simp) (fun _ _ _ => rfl) fun d hd => ?_
  cases d with
  | controller c => exact absurd rfl (hd c)
  | _ => simp [row?, Card.passthroughRow?, Downstream.ownCards, Downstream.parameters, number]

open CommandOption

namespace Target

theorem table_options {t : Target} {kind : String} {pss : List (List Parameter)}
    (h : (kind, pss) ∈ t.sections) (sort : List Parameter → Bool) (names : List String) :
    table t.options kind (fun o => sort o.parameters) names = pss.filterMap (row? sort names) := by
  have hsplit : t.options.filter (fun o => o.kind == kind && sort o.parameters) =
      (t.options.filter (·.kind == kind)).filter fun o => sort o.parameters := by
    rw [List.filter_filter]
    exact List.filter_congr fun o _ => Bool.and_comm ..
  rw [table, hsplit, filter_options h, ofKind, List.filter_map, List.map_map, filterMap_row?]
  rfl

theorem rows_options {t : Target} {kind : String} {pss : List (List Parameter)}
    (h : (kind, pss) ∈ t.sections) (names : List String) :
    rows t.options kind names = pss.map fun ps => names.map (column ps) := by
  have htable := table_options h (fun _ => true) names
  rw [filterMap_row?, List.filter_true] at htable
  exact htable

variable (t : Target)

theorem drives_options : drives t.options = t.tree.topology.cards.filterMap Card.driveRow? :=
  (table_options t.device_mem_sections _ _).trans (driveReader.topology _)

theorem devicesOf_options (driver : String) (names : List String) :
    devicesOf t.options driver names =
      (t.tree.topology.devices.flatMap TopLevel.allParameters).filterMap
        (row? (fun ps => column ps "driver" == [driver]) names) :=
  table_options t.device_mem_sections (fun ps => column ps "driver" == [driver]) names

theorem networks_options :
    (devicesOf t.options "virtio-net-pci" ["id", "mac", "netdev"]).map some =
      t.tree.topology.cards.filterMap Card.networkRow? := by
  rw [devicesOf_options, List.map_filterMap]
  exact networkReader.topology _

theorem passthroughs_options :
    (devicesOf t.options "vfio-pci" ["id", "sysfsdev"]).map some =
      t.tree.topology.cards.filterMap Card.passthroughRow? := by
  rw [devicesOf_options, List.map_filterMap]
  exact passthroughReader.topology _

end Target

end Tables

end GuestCompiler
