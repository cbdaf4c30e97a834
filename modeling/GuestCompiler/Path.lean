/-!
# Host paths

A path is a text. Joining follows the host: an absolute right side replaces the left one, and a
separator is written only after a non-empty left side that does not end in one. Two paths with the
same components name the same place; `resolve` also removes `.` and `..`, by their text alone.
-/
namespace GuestCompiler

structure Path where
  text : String
  deriving DecidableEq, Inhabited

namespace Path

inductive Component
  | root
  | current
  | parent
  | name (text : String)
  deriving DecidableEq

def isAbsolute (p : Path) : Bool := p.text.toList.head? == some '/'

/-- What `join` writes between a left side and a relative right side. -/
def separator (p : Path) : String :=
  if p.text.toList = [] ∨ p.text.toList.getLast? = some '/' then "" else "/"

def join (p : Path) (right : String) : Path :=
  if isAbsolute ⟨right⟩ then ⟨right⟩ else ⟨p.text ++ p.separator ++ right⟩

/-- The component that a piece between separators stands for; an empty piece and a `.` stand for
none. -/
def ofPiece : List Char → Option Component
  | [] => none
  | ['.'] => none
  | ['.', '.'] => some .parent
  | cs => some (.name (String.ofList cs))

/-- Repeated and trailing separators, and every `.` but one that begins the path, are no
components. -/
def components (p : Path) : List Component :=
  let pieces := p.text.toList.splitOn '/'
  match pieces with
  | ['.'] :: rest => .current :: rest.filterMap ofPiece
  | [] :: rest => (if rest = [] then [] else [.root]) ++ rest.filterMap ofPiece
  | pieces => pieces.filterMap ofPiece

/-- One step of reading a path from the left: a `..` takes back the name before it, stays at the
root, and is kept where no name is left to take back. -/
def enter (stack : List Component) : Component → List Component
  | .current => stack
  | .parent =>
    match stack with
    | .name _ :: rest => rest
    | .root :: rest => .root :: rest
    | stack => .parent :: stack
  | c => c :: stack

/-- The components with `.` and `..` removed by their text alone. -/
def resolve (p : Path) : List Component := (p.components.foldl enter []).reverse

end Path

end GuestCompiler
