import GuestCompiler.Catalog

/-!
# Machines

A machine has a definition of its own and names tags of the host's catalog. Resolving it merges its
definition with those of its tags, in order, and then fills in the identities that are still absent,
so that an entry's identity does not depend on where the entry came from.
-/
namespace GuestCompiler

open Json

structure Machine where
  name : String := ""
  description : String := ""
  id : Uuid := default
  tags : List String := []
  definition : Definition := {}
  deriving DecidableEq

namespace Machine

def info (m : Machine) : MachineInfo := ⟨m.id, m.name, m.description⟩

def members : List (Member Machine) := [
  .always "name" .string name fun x m => { m with name := x },
  .string "description" description fun x m => { m with description := x },
  .always "id" Uuid.codec id fun x m => { m with id := x },
  .list "tags" .string tags fun x m => { m with tags := x }]

/-- The members of the definition stand beside the machine's own. -/
def codec : Codec Machine :=
  .flattened {} members {} Definition.members definition fun d m => { m with definition := d }

def resolve (m : Machine) (catalog : Catalog) : Except Error Definition := do
  let tags ← catalog.collectTags m.name m.tags
  return (Definition.merge (m.definition :: tags)).populate m.name m.info.seed

def summary (m : Machine) : String :=
  let s : Summary := { level := 1 }
  let s := s.addIf (m.name != "") s!"Name: {m.name}"
  let s := s.addIf (m.description != "") s!"Description: {m.description}"
  let s := s.addIf (!m.id.isNil) s!"ID: {m.id}"
  let s := s.addIf (!m.tags.isEmpty) ("Tags: " ++ ",".intercalate m.tags)
  (m.definition.summarize s).text

end Machine

end GuestCompiler
