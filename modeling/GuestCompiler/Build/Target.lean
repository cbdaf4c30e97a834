import GuestCompiler.Devices.Tree
import GuestCompiler.Guest.Settings

/-!
# Build targets

What the steps of a build work on: the settings, resources and devices of the guest so far, and the
boot positions given out.
-/
namespace GuestCompiler

structure Target where
  settings : Guest.Settings := {}
  resources : Resources := {}
  tree : DeviceTree := {}
  bootOrder : BootOrder := {}
  deriving DecidableEq

namespace Target

def onSettings (change : Guest.Settings → Guest.Settings) : Edit Error Target Unit :=
  modify fun t => { t with settings := change t.settings }

def onResources {α : Type} (edit : Edit Error Resources α) : Edit Error Target α :=
  Edit.within resources (fun x t => { t with resources := x }) edit

def onTree {α : Type} (edit : Edit Error DeviceTree α) : Edit Error Target α :=
  Edit.within tree (fun x t => { t with tree := x }) edit

def onTopology {α : Type} (edit : Edit Error Topology α) : Edit Error Target α :=
  onTree (DeviceTree.onTopology edit)

/-- Attach to the shared controller that an edit answers. -/
def onShared {α : Type} (which : Edit Error DeviceTree ControllerRef)
    (edit : Edit Error Controller α) : Edit Error Target α := do
  let c ← onTree which
  onTopology (Topology.onController c edit)

def thread : Edit Error Target IoThread := onResources Resources.sharedThread

def nextBootIndex : Edit Error Target Nat := fun t =>
  let index := t.bootOrder.used + 1
  .ok index { t with bootOrder := ⟨index⟩ }

/-- The next boot position, for what can be booted from. -/
def bootIndex (bootable : Bool) : Edit Error Target (Option Nat) :=
  if bootable then some <$> nextBootIndex else pure none

/-- Settings come before resources, and resources before the devices wired to them. -/
def options (t : Target) : List CommandOption :=
  t.settings.options ++ t.resources.options ++ t.tree.topology.options

end Target

end GuestCompiler
