import GuestCompiler.Locations
import GuestCompiler.Machine.Basic

/-!
# Configuration directories

The files of a host as a finite map from places to bytes, and how the catalog and the machines are
read from them. The catalog is the main file and then each fragment in order of its name; of the
entries of one name the first stays.
-/
namespace GuestCompiler

open Json

/-- A place in a host's files: the names that lead to it from where relative paths begin, or from
the root. -/
abbrev Place := List Path.Component

structure HostFiles where
  files : List (Place × List UInt8) := []
  directories : List Place := []
  deriving DecidableEq

namespace HostFiles

def content? (h : HostFiles) (p : Place) : Option (List UInt8) := h.files.lookup p

/-- A directory is where a path begins, what is one by itself, and what leads to anything. -/
def isDirectory (h : HostFiles) (p : Place) : Bool :=
  p = [] || h.directories.any (p.isPrefixOf ·) ||
    h.files.any fun f => p.isPrefixOf f.1 && p != f.1

def isThere (h : HostFiles) (p : Place) : Bool := (h.content? p).isSome || h.isDirectory p

/-- Where one step leads from a directory. -/
def enter (h : HostFiles) (at_ : Place) : Path.Component → Option Place
  | .current => some at_
  | .parent =>
    match at_.getLast? with
    | some .root => some at_
    | some (.name _) => some at_.dropLast
    | _ => none
  | c => if h.isThere (at_ ++ [c]) then some (at_ ++ [c]) else none

/-- Why a path leads nowhere. -/
inductive Obstacle
  | missing
  /-- The path goes on from a file. -/
  | notDirectory
  deriving DecidableEq

/-- Where a path leads. Whatever it passes through has to be a directory that is there. -/
def walk (h : HostFiles) : Place → List Path.Component → Except Obstacle Place
  | at_, [] => .ok at_
  | at_, c :: rest =>
    if h.isDirectory at_ then
      match h.enter at_ c with
      | some next => walk h next rest
      | none => .error .missing
    else .error .notDirectory

def find (h : HostFiles) (p : Path) : Except Obstacle Place := h.walk [] p.components

def place? (h : HostFiles) (p : Path) : Option Place := (h.find p).toOption

def fileNames (h : HostFiles) (p : Place) : List String :=
  h.files.filterMap fun f =>
    match f.1.getLast? with
    | some (.name n) => if f.1.dropLast = p then some n else none
    | _ => none

def readRecord {α : Type} (h : HostFiles) (c : Codec α) (p : Path) : Except Error α :=
  match (h.place? p).bind h.content? with
  | none => .error (.config (.unreadable p.text))
  | some bytes => (c.decodeDocument (.ofBytes bytes)).mapError fun _ => .config (.undecodable p.text)

/-- The name of a record's file without its ending; a file that is all ending is no record. -/
def recordName? (file : String) : Option String :=
  let cs := file.toList
  let n := cs.length - Locations.recordSuffix.toList.length
  if cs.drop n = Locations.recordSuffix.toList ∧ n ≠ 0 then some (String.ofList (cs.take n)) else none

/-- The names of the records in a directory, in order; none where there is no directory. -/
def recordNames (h : HostFiles) (p : Path) : Except Error (List String) :=
  match h.find p with
  | .error .missing => .ok []
  | .error .notDirectory => .error .io
  | .ok place =>
    if h.isDirectory place then
      .ok (((h.fileNames place).filterMap recordName?).mergeSort fun a b => a ≤ b)
    else .error .io

def machineNames (h : HostFiles) (l : Locations) : Except Error (List String) :=
  h.recordNames l.machineDir

/-- Lay the fragments of some names under a catalog, one after the other. -/
def absorbFragments (h : HostFiles) (dir : Path) :
    Catalog → List String → Except Error Catalog
  | catalog, [] => .ok catalog
  | catalog, name :: rest => do
    let fragment ← h.readRecord Catalog.codec (dir.join (name ++ Locations.recordSuffix))
    absorbFragments h dir (catalog.absorb fragment) rest

def loadCatalog (h : HostFiles) (l : Locations) : Except Error Catalog := do
  let main ← if (h.place? l.systemFile).isSome then h.readRecord Catalog.codec l.systemFile
    else .ok {}
  absorbFragments h l.systemDir main (← h.recordNames l.systemDir)

/-- A machine whose record has no name is named after its file. -/
def loadMachine (h : HostFiles) (l : Locations) (name : String) : Except Error Machine := do
  let path := l.machineFile name
  if (h.place? path).isNone then
    throw (.unresolved "machine" ("machine directory " ++ l.machineDir.text) name)
  let m ← h.readRecord Machine.codec path
  return if m.name = "" then { m with name := name } else m

end HostFiles

end GuestCompiler
