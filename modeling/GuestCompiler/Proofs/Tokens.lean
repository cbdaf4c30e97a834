import GuestCompiler.Pattern.Basic

/-!
# The grammar of patterns

`Begins` says which token a text begins with and what follows the token, by rules of the grammar
alone, and `Tokenized` reads a whole text by them. Every text begins in one way only, so that it has
one reading, whose tokens make up the text again; a pattern is expanded along that reading
(`expand_tokenized`).
-/
namespace GuestCompiler.Pattern

/-- ASCII letters and digits, and the underscore. -/
def NameChar (c : Char) : Prop :=
  ('A' ≤ c ∧ c ≤ 'Z') ∨ ('a' ≤ c ∧ c ≤ 'z') ∨ ('0' ≤ c ∧ c ≤ '9') ∨ c = '_'

theorem isName_iff {c : Char} : isName c = true ↔ NameChar c := by
  have hname : isName c = (decide ('A' ≤ c ∧ c ≤ 'Z') || (decide ('a' ≤ c) && decide (c ≤ 'z')) ||
      (decide ('0' ≤ c) && decide (c ≤ '9')) || c == '_') := rfl
  simp only [hname, NameChar, Bool.or_eq_true, Bool.and_eq_true, decide_eq_true_eq, beq_iff_eq,
    or_assoc]

/-- A text that is empty or goes on with a character of some kind. -/
def GoesOn (p : Char → Prop) (cs : List Char) : Prop := ∀ c ∈ cs.head?, p c

@[simp] theorem goesOn_nil {p : Char → Prop} : GoesOn p [] := nofun

@[simp] theorem goesOn_cons {p : Char → Prop} {c : Char} {cs : List Char} :
    GoesOn p (c :: cs) ↔ p c := by simp [GoesOn]

/-- A text, the token that it begins with, and the text behind the token. -/
inductive Begins : List Char → Token → List Char → Prop
  | plain {cs rest : List Char} : cs ≠ [] → '$' ∉ cs → GoesOn (· = '$') rest →
    Begins (cs ++ rest) (.plain cs) rest
  | braced {name rest : List Char} : '\x7d' ∉ name →
    Begins ('$' :: '\x7b' :: (name ++ '\x7d' :: rest)) (.braced name) rest
  | bare {name rest : List Char} : name ≠ [] → (∀ c ∈ name, NameChar c) →
    GoesOn (¬ NameChar ·) rest → Begins ('$' :: (name ++ rest)) (.bare name) rest
  | dollar {rest : List Char} : GoesOn (fun c => c ≠ '\x7b' ∧ ¬ NameChar c) rest →
    Begins ('$' :: rest) .dollar rest
  | unclosed {rest : List Char} : '\x7d' ∉ rest →
    Begins ('$' :: '\x7b' :: rest) (.unclosed rest) []

/-- A text and its tokens from the left. -/
inductive Tokenized : List Char → List Token → Prop
  | nil : Tokenized [] []
  | cons {cs rest : List Char} {t : Token} {ts : List Token} : Begins cs t rest →
    Tokenized rest ts → Tokenized cs (t :: ts)

section Fronts

variable {p : Char → Bool} {cs front rest : List Char}

theorem GoesOn.imp {q r : Char → Prop} (h : GoesOn q cs) (hqr : ∀ c, q c → r c) : GoesOn r cs :=
  fun c hc => hqr c (h c hc)

/-- A text as what a test takes off its front and what goes on where the test fails. -/
theorem exists_front (p : Char → Bool) (cs : List Char) : ∃ front rest, cs = front ++ rest ∧
    (∀ c ∈ front, p c) ∧ GoesOn (fun c => ¬ p c) rest := by
  refine ⟨cs.takeWhile p, cs.dropWhile p, List.takeWhile_append_dropWhile.symm, ?_, ?_⟩
  · exact List.all_eq_true.1 List.all_takeWhile
  · intro c hc
    have hhead := List.head?_dropWhile_not p cs
    rw [hc] at hhead
    simpa using hhead

theorem takeWhile_front (hfront : ∀ c ∈ front, p c) (hrest : GoesOn (fun c => ¬ p c) rest) :
    (front ++ rest).takeWhile p = front := by
  rw [List.takeWhile_append_of_pos hfront]
  cases rest with
  | nil => exact List.append_nil front
  | cons c rest => rw [List.takeWhile_cons_of_neg (goesOn_cons.1 hrest), List.append_nil]

theorem dropWhile_front (hfront : ∀ c ∈ front, p c) (hrest : GoesOn (fun c => ¬ p c) rest) :
    (front ++ rest).dropWhile p = rest := by
  rw [List.dropWhile_append_of_pos hfront]
  cases rest with
  | nil => rfl
  | cons c rest => exact List.dropWhile_cons_of_neg (goesOn_cons.1 hrest)

theorem forall_ne {stop : Char} (h : stop ∉ front) : ∀ c ∈ front, decide (c ≠ stop) = true :=
  fun _ hc => decide_eq_true fun heq => h (heq ▸ hc)

end Fronts

namespace Begins

variable {cs rest : List Char} {t : Token}

theorem ne_nil (h : Begins cs t rest) : cs ≠ [] := by
  cases h with
  | plain hcs _ _ => exact List.append_ne_nil_of_left_ne_nil hcs _
  | _ => exact List.cons_ne_nil _ _

/-- A token and what follows it make up the text. -/
theorem source_append (h : Begins cs t rest) : t.source ++ rest = cs := by
  cases h <;> simp [Token.source]

/-- What a text begins with is what is read of it. -/
theorem next_eq (h : Begins cs t rest) : next cs = (t, rest) := by
  cases h with
  | @plain cs rest hcs hplain hrest =>
    have hstop : GoesOn (fun c => ¬ decide (c ≠ '$') = true) rest :=
      hrest.imp fun c hc => by simpa using hc
    have hhead (more : List Char) : cs ++ rest ≠ '$' :: more := by
      obtain ⟨c, cs, rfl⟩ := List.exists_cons_of_ne_nil hcs
      intro heq
      exact hplain ((List.cons.inj heq).1 ▸ List.mem_cons_self)
    rw [next.eq_3 _ (fun more => hhead _) hhead, takeWhile_front (forall_ne hplain) hstop,
      dropWhile_front (forall_ne hplain) hstop]
  | @braced name rest hname =>
    have hstop : GoesOn (fun c => ¬ decide (c ≠ '\x7d') = true) ('\x7d' :: rest) := by simp
    rw [next, takeWhile_front (forall_ne hname) hstop, dropWhile_front (forall_ne hname) hstop]
  | @bare name rest hname hchars hrest =>
    have hnames : ∀ c ∈ name, isName c = true := fun c hc => isName_iff.2 (hchars c hc)
    have hstop : GoesOn (fun c => ¬ isName c = true) rest :=
      hrest.imp fun c hc => mt isName_iff.1 hc
    have hbrace (more : List Char) : name ++ rest ≠ '\x7b' :: more := by
      obtain ⟨c, name, rfl⟩ := List.exists_cons_of_ne_nil hname
      intro heq
      have hc := hnames c List.mem_cons_self
      rw [(List.cons.inj heq).1] at hc
      exact absurd hc (by decide)
    rw [next.eq_2 _ hbrace, takeWhile_front hnames hstop, dropWhile_front hnames hstop]
    cases name with
    | nil => exact absurd rfl hname
    | cons c name => rfl
  | dollar hrest =>
    have hstop : GoesOn (fun c => ¬ isName c = true) rest :=
      hrest.imp fun c hc => mt isName_iff.1 hc.2
    have hbrace (more : List Char) : rest ≠ '\x7b' :: more := by
      rintro rfl
      exact (goesOn_cons.1 hrest).1 rfl
    have hnone : ([] ++ rest).takeWhile isName = [] := takeWhile_front nofun hstop
    rw [List.nil_append] at hnone
    rw [next.eq_2 _ hbrace, hnone]
  | @unclosed rest hrest =>
    have hnone : (rest ++ []).dropWhile (· ≠ '\x7d') = [] :=
      dropWhile_front (forall_ne hrest) goesOn_nil
    rw [List.append_nil] at hnone
    rw [next, hnone]

end Begins

/-- Every text that is not empty begins with some token. -/
theorem exists_begins {cs : List Char} (hcs : cs ≠ []) : ∃ t rest, Begins cs t rest := by
  obtain ⟨c, cs, rfl⟩ := List.exists_cons_of_ne_nil hcs
  by_cases hc : c = '$'
  case neg =>
    obtain ⟨front, rest, rfl, hfront, hrest⟩ := exists_front (· ≠ '$') cs
    have hplain : '$' ∉ c :: front := by
      rintro (_ | ⟨_, hmem⟩)
      · exact hc rfl
      · simpa using hfront '$' hmem
    exact ⟨.plain (c :: front), rest,
      .plain (List.cons_ne_nil _ _) hplain (hrest.imp fun d hd => by simpa using hd)⟩
  subst hc
  obtain ⟨name, rest, rfl, hname, hrest⟩ := exists_front isName cs
  have hstop : GoesOn (¬ NameChar ·) rest := hrest.imp fun d hd => mt isName_iff.2 hd
  by_cases hempty : name = []
  case neg => exact ⟨_, _, .bare hempty (fun d hd => isName_iff.1 (hname d hd)) hstop⟩
  subst hempty
  cases rest with
  | nil => exact ⟨.dollar, [], .dollar goesOn_nil⟩
  | cons d rest =>
    by_cases hd : d = '\x7b'
    case neg => exact ⟨.dollar, _, .dollar (goesOn_cons.2 ⟨hd, goesOn_cons.1 hstop⟩)⟩
    subst hd
    by_cases hclosed : '\x7d' ∈ rest
    · obtain ⟨name, after, rfl, hname⟩ := List.eq_append_cons_of_mem hclosed
      exact ⟨_, _, .braced hname⟩
    · exact ⟨_, _, .unclosed hclosed⟩

theorem begins_next {cs : List Char} (hcs : cs ≠ []) : Begins cs (next cs).1 (next cs).2 := by
  obtain ⟨t, rest, h⟩ := exists_begins hcs
  rw [h.next_eq]
  exact h

/-- The tokens of a text are a reading of it. -/
theorem tokenized_tokens (cs : List Char) : Tokenized cs (tokens cs) := by
  fun_induction tokens cs with
  | case1 => exact .nil
  | case2 cs hcs ih => exact .cons (begins_next hcs) ih

namespace Tokenized

variable {cs : List Char} {ts : List Token}

/-- There is no other reading. -/
theorem eq_tokens (h : Tokenized cs ts) : ts = tokens cs := by
  induction h with
  | nil => rw [tokens, dif_pos rfl]
  | cons hbegins _ ih => rw [tokens, dif_neg hbegins.ne_nil, hbegins.next_eq, ih]

theorem flatMap_source (h : Tokenized cs ts) : ts.flatMap Token.source = cs := by
  induction h with
  | nil => rfl
  | cons hbegins _ ih => rw [List.flatMap_cons, ih, hbegins.source_append]

end Tokenized

/-- A pattern has one reading, decided by its own text. It loses nothing of the pattern and reads
nothing twice, and whatever the values are, the expansion is the reading with each reference
replaced by its value. -/
theorem expand_tokenized (pattern : String) : ∃ ts,
    (∀ ts', Tokenized pattern.toList ts' ↔ ts' = ts) ∧
    ts.flatMap Token.source = pattern.toList ∧
    ∀ lookup, (expand lookup pattern).toList = ts.flatMap (Token.value lookup) := by
  have hreading := tokenized_tokens pattern.toList
  refine ⟨tokens pattern.toList, fun ts' => ⟨Tokenized.eq_tokens, ?_⟩, hreading.flatMap_source, ?_⟩
  · rintro rfl
    exact hreading
  · intro lookup
    rw [expand, String.toList_ofList]

/-- A name ends where its characters do, and an open brace ends the reading. -/
example : expand (fun name => "<" ++ name ++ "$>") "$$a_é$\x7ba b\x7d$\x7b\x7d$.$\x7bc" =
    "$<a_$>é<a b$><$>$.$\x7bc" := by decide +kernel

end GuestCompiler.Pattern
