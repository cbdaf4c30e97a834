/-!
# Patterns

A pattern is a text with references to named values: `$name` over letters, digits and underscores,
or a name of any characters in braces. `tokens` reads a pattern from the left; `expand` puts a value
in the place of each reference and keeps all else. What is put in is not read again.
-/
namespace GuestCompiler.Pattern

inductive Token
  /-- Characters other than a dollar sign. -/
  | plain (cs : List Char)
  | braced (name : List Char)
  /-- A name without braces, which goes on as far as it can. -/
  | bare (name : List Char)
  /-- A dollar sign that begins no reference. -/
  | dollar
  /-- A brace that nothing closes, and all that follows it. -/
  | unclosed (rest : List Char)
  deriving DecidableEq

/-- The characters of a name without braces. -/
def isName (c : Char) : Bool := c.isAlphanum || c == '_'

def Token.source : Token → List Char
  | plain cs => cs
  | braced name => '$' :: '\x7b' :: (name ++ ['\x7d'])
  | bare name => '$' :: name
  | dollar => ['$']
  | unclosed rest => '$' :: '\x7b' :: rest

def Token.value (lookup : String → String) : Token → List Char
  | braced name => (lookup (String.ofList name)).toList
  | bare name => (lookup (String.ofList name)).toList
  | token => token.source

/-- The token at the head of a text, and what follows it. -/
def next : List Char → Token × List Char
  | '$' :: '\x7b' :: rest =>
    match rest.dropWhile (· ≠ '\x7d') with
    | [] => (.unclosed rest, [])
    | _ :: after => (.braced (rest.takeWhile (· ≠ '\x7d')), after)
  | '$' :: rest =>
    match rest.takeWhile isName with
    | [] => (.dollar, rest)
    | name => (.bare name, rest.dropWhile isName)
  | cs => (.plain (cs.takeWhile (· ≠ '$')), cs.dropWhile (· ≠ '$'))

theorem length_dropWhile_le (p : Char → Bool) (cs : List Char) :
    (cs.dropWhile p).length ≤ cs.length := (List.dropWhile_sublist p).length_le

theorem length_next_lt {cs : List Char} (h : cs ≠ []) : (next cs).2.length < cs.length := by
  unfold next
  split
  · rename_i rest
    have hle := length_dropWhile_le (· ≠ '\x7d') rest
    split
    · simp
    · rename_i heq
      simp only [heq, List.length_cons] at hle ⊢
      omega
  · rename_i rest _
    have hle := length_dropWhile_le isName rest
    split
    · simp
    · simp only [List.length_cons]
      omega
  · rename_i hdollar
    cases cs with
    | nil => exact absurd rfl h
    | cons c rest =>
      have hc : c ≠ '$' := fun hc => hdollar rest (by rw [hc])
      have hle := length_dropWhile_le (· ≠ '$') rest
      simp only [List.dropWhile_cons, ne_eq, hc, not_false_eq_true, decide_true, if_true,
        List.length_cons]
      exact Nat.lt_succ_of_le hle

def tokens (cs : List Char) : List Token :=
  if _h : cs = [] then [] else (next cs).1 :: tokens (next cs).2
  termination_by cs.length
  decreasing_by exact length_next_lt ‹_›

def expand (lookup : String → String) (pattern : String) : String :=
  String.ofList ((tokens pattern.toList).flatMap (Token.value lookup))

end GuestCompiler.Pattern
