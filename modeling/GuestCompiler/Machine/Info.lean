import GuestCompiler.Error
import GuestCompiler.Identity.Seed
import GuestCompiler.NameMap

/-!
# What identifies a machine

The permanent id, the name and the description of a machine, without what it is made of.
-/
namespace GuestCompiler

/-- Named values for patterns. -/
abbrev Vars := NameMap String

/-- The value of a name, empty where it has none. -/
def Vars.lookup (vars : Vars) (name : String) : String := (vars.get? name).getD ""

/-- The port that a pattern names with these values. -/
def Vars.port (vars : Vars) (pattern : String) : Except Error Nat :=
  (Pattern.expandPort vars.lookup pattern).mapError fun fault => .config (.port pattern fault)

/-- The first set that has a name gives its value. -/
def Vars.merge (sets : List Vars) : Vars := sets.foldl NameMap.fill ∅

structure MachineInfo where
  id : Uuid := default
  name : String := ""
  description : String := ""
  deriving DecidableEq

namespace MachineInfo

def seed (m : MachineInfo) : Seed := ⟨m.id, m.name⟩

def vars (m : MachineInfo) : Vars :=
  .ofList [("machine-name", m.name), ("machine-description", m.description),
    ("machine-id", m.id.toString)]

end MachineInfo

end GuestCompiler
