import GuestCompiler.Host.Block
import GuestCompiler.Host.CharDevice

/-!
# Host resources

What a guest's devices are wired to: threads, block nodes, character devices, security modules and
network interfaces. Threads and interfaces are named by their position.
-/
namespace GuestCompiler

/-- A thread that serves disks, by its position. -/
structure IoThread where
  position : Nat
  deriving DecidableEq

def IoThread.id (t : IoThread) : String := "iothread." ++ toString t.position

structure Tap where
  id : String
  interface : String
  up : String
  down : String
  deriving DecidableEq

/-- A script that is not there is written `no`. -/
def Tap.parameters (t : Tap) : List Parameter :=
  let script (s : String) := if s = "" then "no" else s
  [.bare "tap", ⟨"id", t.id⟩, ⟨"ifname", t.interface⟩, ⟨"script", script t.up⟩,
    ⟨"downscript", script t.down⟩]

structure Resources where
  threads : List IoThread := []
  blocks : BlockGraph := .empty
  charDevices : CharDevices := .empty
  tpmDevices : TpmDevices := .empty
  taps : List Tap := []
  deriving DecidableEq

namespace Resources

def addThread : Edit Error Resources IoThread := fun r =>
  let thread : IoThread := ⟨r.threads.length⟩
  .ok thread { r with threads := r.threads ++ [thread] }

/-- The newest thread; the first one is added when it is asked for. -/
def sharedThread : Edit Error Resources IoThread := fun r =>
  match r.threads.getLast? with
  | some thread => .ok thread r
  | none => addThread r

def addTap (interface up down : String) : Edit Error Resources Tap := fun r =>
  let tap : Tap := ⟨"net." ++ toString r.taps.length, interface, up, down⟩
  .ok tap { r with taps := r.taps ++ [tap] }

def addBlock (node : BlockNode) : Edit Error Resources String :=
  Edit.within blocks (fun x r => { r with blocks := x }) (BlockGraph.add node)

def addCharDevice (d : CharDevice) : Edit Error Resources String :=
  Edit.within charDevices (fun x r => { r with charDevices := x }) (CharDevices.add d)

def addTpmDevice (d : TpmDevice) : Edit Error Resources String :=
  Edit.within tpmDevices (fun x r => { r with tpmDevices := x }) (Registry.add d)

/-- Add a module in software behind a character device that is there. -/
def addEmulatedTpm (id charDevice : String) : Edit Error Resources String := fun r =>
  if r.charDevices.contains charDevice then addTpmDevice (.emulated id charDevice) r
  else .error (.unresolved "character device" ("TPM device " ++ id) charDevice) r

def options (r : Resources) : List CommandOption :=
  (r.threads.map fun t => ⟨"object", [.bare "iothread", ⟨"id", t.id⟩]⟩) ++
    (r.blocks.entries.map fun n => ⟨"blockdev", n.parameters⟩) ++
    (r.charDevices.entries.map fun d => ⟨"chardev", d.parameters⟩) ++
    (r.tpmDevices.entries.map fun d => ⟨"tpmdev", d.parameters⟩) ++
    r.taps.map fun t => ⟨"netdev", t.parameters⟩

end Resources

end GuestCompiler
