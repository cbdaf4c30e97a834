import GuestCompiler.CommandLine
import GuestCompiler.Host.Registry
import GuestCompiler.Path

/-!
# Block nodes

A protocol node gives access to a file or a directory of the host; a format node reads the bytes of
the node that backs it. A node can be added only after the one that backs it, so that following the
backing nodes always ends at a protocol node.
-/
namespace GuestCompiler

inductive DetectZeroes
  | off
  | on
  | unmap
  deriving DecidableEq

structure NodeFlags where
  readOnly : Bool := false
  cacheDirect : Bool := false
  cacheNoFlush : Bool := false
  discard : Bool := false
  detectZeroes : DetectZeroes := .off
  deriving DecidableEq

def NodeFlags.parameters (f : NodeFlags) : List Parameter :=
  Parameter.switch "read-only" f.readOnly ++ Parameter.switch "cache.direct" f.cacheDirect ++
    Parameter.switch "cache.no-flush" f.cacheNoFlush ++
    (if f.discard then [⟨"discard", "unmap"⟩] else []) ++
    match f.detectZeroes with
    | .off => []
    | .on => [⟨"detect-zeroes", "on"⟩]
    | .unmap => [⟨"detect-zeroes", "unmap"⟩]

inductive BlockNode
  /-- A file of the host. -/
  | file (name : String) (filename : Path) (flags : NodeFlags)
  /-- A directory of the host, shown as a disk. -/
  | directory (name : String) (dir : Path) (label : Option String) (readOnly : Bool)
  /-- The bytes of another node, as they are. -/
  | raw (name : String) (backing : String) (flags : NodeFlags)
  deriving DecidableEq

namespace BlockNode

def name : BlockNode → String
  | file name _ _ => name
  | directory name _ _ _ => name
  | raw name _ _ => name

instance : Named BlockNode := ⟨name⟩

def driver : BlockNode → String
  | file .. => "file"
  | directory .. => "vvfat"
  | raw .. => "raw"

/-- The node that a format node reads. -/
def backing? : BlockNode → Option String
  | raw _ backing _ => some backing
  | _ => none

def isReadOnly : BlockNode → Bool
  | file _ _ flags => flags.readOnly
  | directory _ _ _ readOnly => readOnly
  | raw _ _ flags => flags.readOnly

def parameters (node : BlockNode) : List Parameter :=
  ⟨"driver", node.driver⟩ :: ⟨"node-name", node.name⟩ ::
    match node with
    | file _ filename flags => flags.parameters ++ [⟨"filename", filename.text⟩]
    | directory _ dir label readOnly =>
      Parameter.switch "read-only" readOnly ++ Parameter.given "label" label ++ [⟨"dir", dir.text⟩]
    | raw _ backing flags => flags.parameters ++ [⟨"file", backing⟩]

/-- The name of a node made for another one. -/
def childName (parent child : String) : String := parent ++ "-" ++ child

end BlockNode

abbrev BlockGraph := Registry BlockNode

namespace BlockGraph

def empty : BlockGraph := { label := "block device graph" }

/-- Add a node whose backing node is there, and answer its name. -/
def add (node : BlockNode) : Edit Error BlockGraph String := fun graph =>
  match node.backing? with
  | none => Registry.add node graph
  | some backing =>
    if graph.contains backing then Registry.add node graph
    else .error (.unresolved "block node" ("block node " ++ node.name) backing) graph

end BlockGraph

end GuestCompiler
