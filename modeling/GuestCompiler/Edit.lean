/-!
# Edits

An edit changes a state and answers, or fails; what it had changed before it failed stays changed.
-/
namespace GuestCompiler

abbrev Edit (ε σ α : Type) := EStateM ε σ α

namespace Edit

variable {ε σ τ α : Type}

/-- An edit of a part of a state. -/
def within (get : τ → σ) (set : σ → τ → τ) (edit : Edit ε σ α) : Edit ε τ α := fun t =>
  match edit (get t) with
  | .ok a s => .ok a (set s t)
  | .error e s => .error e (set s t)

/-- An answer that needs no state. -/
def ofExcept : Except ε α → Edit ε σ α
  | .ok a => pure a
  | .error e => throw e

/-- The answer of an edit. -/
def answer : EStateM.Result ε σ α → Except ε α
  | .ok a _ => .ok a
  | .error e _ => .error e

/-- The state that an edit leaves, whether it fails or not. -/
def state : EStateM.Result ε σ α → σ
  | .ok _ s => s
  | .error _ s => s

end Edit

end GuestCompiler
