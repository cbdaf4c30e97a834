/-!
# Summaries

Text of indented lines, two spaces a level. A line is put on a new line when there is text before
it, so that empty lines at the start of an unindented summary leave no trace.
-/
namespace GuestCompiler

structure Summary where
  text : String := ""
  level : Nat := 0
  deriving DecidableEq

namespace Summary

def descend (s : Summary) : Summary := { s with level := s.level + 1 }

def ascend (s : Summary) : Summary := { s with level := s.level - 1 }

def indent (level : Nat) : String := String.ofList (List.replicate (2 * level) ' ')

def add (s : Summary) (line : String) : Summary :=
  let start := if s.text = "" then "" else s.text ++ "\n"
  { s with text := start ++ indent s.level ++ line }

/-- A heading with its items one level deeper; nothing where there are no items. -/
def addList (s : Summary) (heading : String) (items : List String) : Summary :=
  if items = [] then s else (items.foldl add (s.add heading).descend).ascend

def addIf (s : Summary) (shown : Bool) (line : String) : Summary := if shown then s.add line else s

end Summary

end GuestCompiler
