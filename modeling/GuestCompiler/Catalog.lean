import GuestCompiler.Brand
import GuestCompiler.Definition.Basic
import GuestCompiler.Pattern.Basic

/-!
# The host's catalog

What a host offers to machines: storage pools, networks, devices that can be shared out, processors,
and the tags that machines name. All is kept by name, and whatever is listed is listed in order of
name.
-/
namespace GuestCompiler

open Json

/-- A directory of images that are attached in one way. -/
structure Pool where
  path : Path := ⟨""⟩
  pattern : String := ""
  kind : String := ""
  readOnly : Bool := false
  deriving DecidableEq

namespace Pool

/-- The file of a volume: by the pattern where there is one, and else the volume's name with the
first part of the pool's kind, or `raw`, as its extension. -/
def fileName (p : Pool) (machine : MachineInfo) (volume : String) : String :=
  if p.pattern ≠ "" then
    Pattern.expand (fun name =>
      if name = "name" then machine.name
      else if name = "id" then machine.id.toString
      else if name = "volume" then volume
      else "") p.pattern
  else
    match p.kind.toList.takeWhile (· ≠ '-') with
    | [] => volume ++ ".raw"
    | ext => volume ++ "." ++ String.ofList ext

/-- Slashes at the front of the file's name do not lead out of the pool. -/
def volumePath (p : Pool) (machine : MachineInfo) (volume : String) : Path :=
  p.path.join (String.ofList ((p.fileName machine volume).toList.dropWhile (· = '/')))

def display (p : Pool) : String :=
  p.path.text ++ (if p.kind = "" then "" else s!" ({p.kind})") ++
    if p.readOnly then " [read-only]" else ""

def codec : Codec Pool := .record {} [
  .always "path" .path path fun x p => { p with path := x },
  .string "pattern" pattern fun x p => { p with pattern := x },
  .string "type" kind fun x p => { p with kind := x },
  .flag "readonly" readOnly fun x p => { p with readOnly := x }]

end Pool

/-- A bridge, and the scripts that put an interface onto it and take it off. -/
structure Network where
  device : String := ""
  up : String := ""
  down : String := ""
  deriving DecidableEq

namespace Network

def codec : Codec Network := .record {} [
  .always "device" .string device fun x n => { n with device := x },
  .string "up" up fun x n => { n with up := x },
  .string "down" down fun x n => { n with down := x }]

end Network

/-- What a shared device supplies for a class, and where it is best placed. -/
structure MediatedType where
  name : String := ""
  placements : List UInt32 := []
  deriving DecidableEq

def MediatedType.codec : Codec MediatedType := .record {} [
  .always "name" .string name fun x t => { t with name := x },
  .list "placements" .uint32 placements fun x t => { t with placements := x }]

/-- A device that can be shared out among machines. -/
structure MediatedDevice where
  address : String := ""
  heterogeneous : Bool := false
  classes : NameMap MediatedType := ∅
  deriving DecidableEq

def MediatedDevice.codec : Codec MediatedDevice := .record {} [
  .always "address" .string address fun x d => { d with address := x },
  .always "heterogeneous" .bool heterogeneous fun x d => { d with heterogeneous := x },
  .nameMap "classes" MediatedType.codec classes fun x d => { d with classes := x }]

structure Processor where
  brand : String := ""
  model : String := ""
  threads : UInt32 := 0
  isDefault : Bool := false
  deriving DecidableEq

namespace Processor

def isAmd (p : Processor) : Bool := isBrand p.brand "AMD"

def isIntel (p : Processor) : Bool := isBrand p.brand "Intel"

def codec : Codec Processor := .record {} [
  .always "brand" .string brand fun x p => { p with brand := x },
  .string "model" model fun x p => { p with model := x },
  .always "threads" .uint32 threads fun x p => { p with threads := x },
  .always "default" .bool isDefault fun x p => { p with isDefault := x }]

end Processor

structure Catalog where
  pools : NameMap Pool := ∅
  networks : NameMap Network := ∅
  mediatedDevices : NameMap MediatedDevice := ∅
  processors : NameMap Processor := ∅
  tags : NameMap Definition := ∅
  deriving DecidableEq

namespace Catalog

def codec : Codec Catalog := .record {} [
  .nameMap "storage" Pool.codec pools fun x c => { c with pools := x },
  .nameMap "network" Network.codec networks fun x c => { c with networks := x },
  .nameMap "mdev" MediatedDevice.codec mediatedDevices fun x c => { c with mediatedDevices := x },
  .nameMap "processor" Processor.codec processors fun x c => { c with processors := x },
  .nameMap "tag" Definition.codec tags fun x c => { c with tags := x }]

/-- The definitions of some tags in order; the first that is missing is the error. -/
def collectTags (c : Catalog) (machine : String) (names : List String) :
    Except Error (List Definition) :=
  names.mapM fun name =>
    match c.tags.get? name with
    | some d => .ok d
    | none => .error (.unresolved "tag" ("machine " ++ machine) name)

def devicesOfClass (c : Catalog) (deviceClass : String) : List MediatedDevice :=
  (c.mediatedDevices.values.filter (·.classes.contains deviceClass)).mergeSort
    fun a b => a.address ≤ b.address

/-- The first processor that is a default one, or else the first. -/
def defaultProcessor? (c : Catalog) : Option String :=
  let entries := c.processors.entries
  ((entries.find? (·.2.isDefault)).or entries.head?).map (·.1)

/-- A catalog and what another one has beside it. -/
def absorb (c other : Catalog) : Catalog where
  pools := c.pools.fill other.pools
  networks := c.networks.fill other.networks
  mediatedDevices := c.mediatedDevices.fill other.mediatedDevices
  processors := c.processors.fill other.processors
  tags := c.tags.fill other.tags

/-- A heading and what is written for each entry below it; nothing for an empty map. -/
def summarizeMap {α : Type} (m : NameMap α) (heading : String)
    (write : Summary → String × α → Summary) (s : Summary) : Summary :=
  if m.isEmpty then s else (m.entries.foldl write (s.add heading).descend).ascend

def summarizeDevice (s : Summary) (e : String × MediatedDevice) : Summary :=
  let s := (s.add s!"{e.1}: {e.2.address}").descend
  (e.2.classes.entries.foldl (fun s c => s.add s!"{c.1}: {c.2.name}") s).ascend

def summarizeTag (s : Summary) (e : String × Definition) : Summary :=
  (e.2.summarize (s.add s!"{e.1}:").descend).ascend

def summary (c : Catalog) : String :=
  let s : Summary := { level := 1 }
  let s := summarizeMap c.pools "Storage:" (fun s e => s.add s!"{e.1}: {e.2.display}") s
  let s := summarizeMap c.networks "Networks:" (fun s e => s.add s!"{e.1}: {e.2.device}") s
  let s := summarizeMap c.mediatedDevices "Mediated Devices:" summarizeDevice s
  let s := summarizeMap c.tags "Tags:" summarizeTag s
  s.text

end Catalog

end GuestCompiler
