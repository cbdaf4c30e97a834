import GuestCompiler.Edit
import GuestCompiler.Error
import GuestCompiler.NameMap

/-!
# Registries

Entries in the order of their arrival, found by name through an index of positions. A registry takes
no entry without a name and no second entry of a name.
-/
namespace GuestCompiler

/-- What is kept under a name of its own. -/
class Named (α : Type) where
  name : α → String

structure Registry (α : Type) where
  label : String
  entries : List α := []
  index : NameMap Nat := ∅
  deriving DecidableEq

namespace Registry

variable {α : Type} [Named α]

def contains (r : Registry α) (name : String) : Bool := r.index.contains name

def find? (r : Registry α) (name : String) : Option α := do
  let position ← r.index.get? name
  r.entries[position]?

def insert (r : Registry α) (entry : α) : Registry α :=
  { r with
    entries := r.entries ++ [entry]
    index := r.index.insert (Named.name entry) r.entries.length }

def add (entry : α) : Edit Error (Registry α) String := fun r =>
  let name := Named.name entry
  if name = "" then .error (.invalidArgument (.unnamed r.label)) r
  else if r.contains name then .error (.duplicateName r.label name) r
  else .ok name (r.insert entry)

end Registry

end GuestCompiler
