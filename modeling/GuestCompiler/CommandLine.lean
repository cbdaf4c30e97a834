/-!
# Command lines

An option is a kind and a list of named parameters. Its text is the kind behind a hyphen, and its
parameters with commas between.
-/
namespace GuestCompiler

structure Parameter where
  name : String
  value : String
  deriving DecidableEq

namespace Parameter

def flag (name : String) : Parameter := ⟨name, ""⟩

def bare (value : String) : Parameter := ⟨"", value⟩

def number (name : String) (value : Nat) : Parameter := ⟨name, toString value⟩

/-- A parameter where there is a value for it. -/
def given (name : String) (value : Option String) : List Parameter :=
  value.toList.map fun v => ⟨name, v⟩

/-- A parameter that is there when it is on. -/
def switch (name : String) (on : Bool) : List Parameter := if on then [⟨name, "on"⟩] else []

/-- A half that is empty is left out, and the sign between the halves with it. -/
def text (p : Parameter) : String :=
  if p.name = "" then p.value else if p.value = "" then p.name else p.name ++ "=" ++ p.value

def texts (ps : List Parameter) : String := ",".intercalate (ps.map text)

def get? (ps : List Parameter) (name : String) : Option String :=
  (ps.find? (·.name == name)).map (·.value)

section LookUp

variable {name : String}

@[simp] theorem get?_nil : get? [] name = none := rfl

@[simp] theorem get?_cons (p : Parameter) (ps : List Parameter) :
    get? (p :: ps) name = if p.name = name then some p.value else get? ps name := by
  by_cases h : p.name = name <;> simp [get?, h]

@[simp] theorem get?_append (ps qs : List Parameter) :
    get? (ps ++ qs) name = (get? ps name).or (get? qs name) := by
  rw [get?, List.find?_append, Option.map_or, get?, get?]

@[simp] theorem get?_given (n : String) (value : Option String) :
    get? (given n value) name = if n = name then value else none := by
  cases value <;> simp [given]

@[simp] theorem get?_switch (n : String) (on : Bool) :
    get? (switch n on) name = if n = name ∧ on then some "on" else none := by
  cases on <;> simp [switch]

end LookUp

end Parameter

structure CommandOption where
  kind : String
  parameters : List Parameter := []
  deriving DecidableEq

namespace CommandOption

def args (o : CommandOption) : List String :=
  ("-" ++ o.kind) :: if o.parameters = [] then [] else [Parameter.texts o.parameters]

def text (o : CommandOption) : String := " ".intercalate o.args

def line (os : List CommandOption) : String := " ".intercalate (os.map text)

/-- One option a line, with a continuation mark at the end of every line but the last. -/
def lines (os : List CommandOption) : String := " \\\n".intercalate (os.map text)

end CommandOption

end GuestCompiler
