import GuestCompiler.CommandLine

/-!
# Reading parameters back

The reader of a parameter list takes two commas for one of a value and any other comma for the end
of a parameter, from the left; of a parameter, the first equals sign ends the name. A list of
parameters of the shape that all options have is read back just when no value has a comma
(`split_texts_iff`), and the halves of its parameters are read back where a name is not left out
before a value with an equals sign (`ofText_text`).
-/
namespace GuestCompiler

/-- Has no comma. -/
def NoComma (s : String) : Prop := ',' ∉ s.toList

instance (s : String) : Decidable (NoComma s) := inferInstanceAs (Decidable (',' ∉ s.toList))

namespace Parameter

/-- A character before the first of some pieces. -/
def push (c : Char) : List (List Char) → List (List Char)
  | [] => [[c]]
  | p :: ps => (c :: p) :: ps

def pieces : List Char → List (List Char)
  | [] => [[]]
  | ',' :: ',' :: rest => push ',' (pieces rest)
  | ',' :: rest => [] :: pieces rest
  | c :: rest => push c (pieces rest)

def split (text : String) : List String := (pieces text.toList).map String.ofList

/-- Each comma twice. -/
def escape (cs : List Char) : List Char := cs.flatMap fun c => if c = ',' then [',', ','] else [c]

section Pieces

theorem pieces_ne_nil (cs : List Char) : pieces cs ≠ [] := by
  have hpush (c : Char) (ps : List (List Char)) : push c ps ≠ [] := by cases ps <;> simp [push]
  fun_cases pieces cs <;> simp [hpush]

theorem intercalate_push (c : Char) (ps : List (List Char)) :
    [','].intercalate ((push c ps).map escape) =
      escape [c] ++ [','].intercalate (ps.map escape) := by
  cases ps with
  | nil => simp [push, escape]
  | cons p ps => cases ps <;> simp [push, escape]

/-- Reading loses nothing: pieces with their commas doubled again are the text. -/
theorem intercalate_pieces (cs : List Char) :
    [','].intercalate ((pieces cs).map escape) = cs := by
  fun_induction pieces cs with
  | case1 => rfl
  | case2 rest ih =>
    rw [intercalate_push, ih]
    rfl
  | case3 rest _ ih =>
    rw [List.map_cons, List.intercalate_cons_of_ne_nil (by simpa using pieces_ne_nil rest), ih]
    rfl
  | case4 c rest _ hc ih =>
    have hcomma : c ≠ ',' := hc
    rw [intercalate_push, ih]
    simp [escape, hcomma]

theorem pieces_append {p : List Char} (hp : ',' ∉ p) (cs : List Char) :
    pieces (p ++ cs) = p.foldr push (pieces cs) := by
  induction p with
  | nil => rfl
  | cons c p ih =>
    rw [List.mem_cons, not_or] at hp
    rw [List.cons_append, List.foldr_cons, ← ih hp.2]
    exact pieces.eq_4 _ _ (by simp [Ne.symm hp.1]) (by simp [Ne.symm hp.1])

theorem foldr_push (p q : List Char) (ps : List (List Char)) :
    p.foldr push (q :: ps) = (p ++ q) :: ps := by
  induction p with
  | nil => rfl
  | cons c p ih => rw [List.foldr_cons, ih, push, List.cons_append]

theorem pieces_of_not_mem {p : List Char} (hp : ',' ∉ p) : pieces p = [p] := by
  have hlone := pieces_append hp []
  rw [List.append_nil, pieces, foldr_push, List.append_nil] at hlone
  exact hlone

/-- A comma is the end of a parameter where no second one follows. -/
theorem pieces_comma {cs : List Char} (h : cs.head? ≠ some ',') :
    pieces (',' :: cs) = [] :: pieces cs := by
  cases cs with
  | nil => rfl
  | cons c cs =>
    have hc : c ≠ ',' := by simpa using h
    exact pieces.eq_3 _ (by simp [hc])

theorem head?_intercalate {p : List Char} (hne : p ≠ []) (hp : ',' ∉ p) (ps : List (List Char)) :
    ([','].intercalate (p :: ps)).head? ≠ some ',' := by
  obtain ⟨c, p, rfl⟩ := List.exists_cons_of_ne_nil hne
  have hc : c ≠ ',' := fun hc => hp (hc ▸ List.mem_cons_self)
  cases ps <;> simpa using hc

theorem pieces_intercalate {ps : List (List Char)} (hps : ps ≠ [])
    (h : ∀ p ∈ ps, p ≠ [] ∧ ',' ∉ p) : pieces ([','].intercalate ps) = ps := by
  induction ps with
  | nil => exact absurd rfl hps
  | cons p ps ih =>
    obtain ⟨⟨-, hp⟩, hrest⟩ := List.forall_mem_cons.1 h
    cases ps with
    | nil =>
      rw [List.intercalate_singleton]
      exact pieces_of_not_mem hp
    | cons q qs =>
      obtain ⟨hne, hq⟩ := hrest q List.mem_cons_self
      -- An empty piece would put two commas side by side.
      rw [List.intercalate_cons_cons, List.append_assoc, List.singleton_append, pieces_append hp,
        pieces_comma (head?_intercalate hne hq qs), ih (List.cons_ne_nil q qs) hrest, foldr_push,
        List.append_nil]

theorem count_escape (cs : List Char) : (escape cs).count ',' = 2 * cs.count ',' := by
  induction cs with
  | nil => rfl
  | cons c cs ih =>
    have hsplit : escape (c :: cs) = escape [c] ++ escape cs := by simp [escape]
    rw [hsplit, List.count_append, ih]
    by_cases hc : c = ','
    · simp [escape, hc]
      omega
    · simp [escape, hc]

theorem count_intercalate {ps : List (List Char)} (hps : ps ≠ []) :
    ([','].intercalate ps).count ',' + 1 = ps.flatten.count ',' + ps.length := by
  induction ps with
  | nil => exact absurd rfl hps
  | cons p ps ih =>
    cases ps with
    | nil => simp
    | cons q qs =>
      have hrest := ih (List.cons_ne_nil q qs)
      simp only [List.intercalate_cons_cons, List.count_append, List.count_singleton_self,
        List.flatten_cons, List.length_cons] at hrest ⊢
      omega

/-- Where pieces are read back, doubling their commas would have changed nothing. -/
theorem not_mem_of_pieces_intercalate {ps : List (List Char)} (hps : ps ≠ [])
    (h : pieces ([','].intercalate ps) = ps) : ∀ p ∈ ps, ',' ∉ p := by
  have htext := intercalate_pieces ([','].intercalate ps)
  have hflatten : (ps.map escape).flatten = escape ps.flatten := by
    simp only [escape, List.flatten_eq_flatMap, List.flatMap_map, List.flatMap_assoc, id]
  -- One text joins the pieces as they are and with their commas doubled: it cannot count both.
  have hescaped := @count_intercalate (ps.map escape) (by simpa using hps)
  have hplain := count_intercalate hps
  rw [h] at htext
  rw [htext, hflatten, count_escape, List.length_map] at hescaped
  have hnone : ps.flatten.count ',' = 0 := by omega
  intro p hp hcomma
  exact List.count_eq_zero.1 hnone (List.mem_flatten_of_mem hp hcomma)

end Pieces

theorem toList_texts (ps : List Parameter) :
    (texts ps).toList = [','].intercalate (ps.map fun p => p.text.toList) := by
  rw [texts, String.toList_intercalate, List.map_map]
  rfl

/-- A list of parameters is read back from its text just when no parameter's text has a comma. -/
theorem split_texts {ps : List Parameter} (hps : ps ≠ []) (h : ∀ p ∈ ps, p.text ≠ "") :
    split (texts ps) = ps.map text ↔ ∀ p ∈ ps, NoComma p.text := by
  have hchars : split (texts ps) = ps.map text ↔
      pieces ([','].intercalate (ps.map fun p => p.text.toList)) =
        ps.map fun p => p.text.toList := by
    rw [split, toList_texts]
    constructor
    · intro heq
      have hlists := congrArg (List.map String.toList) heq
      simpa [Function.comp_def] using hlists
    · intro heq
      rw [heq, List.map_map]
      simp [Function.comp_def]
  rw [hchars]
  constructor
  · intro heq p hp
    exact not_mem_of_pieces_intercalate (by simpa using hps) heq _ (List.mem_map_of_mem hp)
  · intro hplain
    refine pieces_intercalate (by simpa using hps) ?_
    intro cs hcs
    obtain ⟨p, hp, rfl⟩ := List.mem_map.1 hcs
    exact ⟨by simpa using h p hp, hplain p hp⟩

/-- A name that is not empty and has neither sign. -/
def Key (name : String) : Prop := name ≠ "" ∧ NoComma name ∧ '=' ∉ name.toList

instance (name : String) : Decidable (Key name) :=
  inferInstanceAs (Decidable (name ≠ "" ∧ NoComma name ∧ '=' ∉ name.toList))

/-- Has a name, or has none and is not empty. -/
def Shaped (p : Parameter) : Prop := Key p.name ∨ p.name = "" ∧ p.value ≠ ""

/-- Has a name, or has none and no equals sign either. -/
def Legible (p : Parameter) : Prop := Key p.name ∨ p.name = "" ∧ p.value ≠ "" ∧ '=' ∉ p.value.toList

theorem Legible.shaped {p : Parameter} (h : p.Legible) : p.Shaped :=
  h.imp id fun ⟨hname, hvalue, _⟩ => ⟨hname, hvalue⟩

theorem Shaped.text_ne_empty {p : Parameter} (h : p.Shaped) : p.text ≠ "" := by
  rcases h with ⟨hname, -⟩ | ⟨hname, hvalue⟩
  · by_cases hvalue : p.value = "" <;> simp [text, hname, hvalue]
  · simpa [text, hname] using hvalue

theorem Shaped.noComma_text_iff {p : Parameter} (h : p.Shaped) :
    NoComma p.text ↔ NoComma p.value := by
  rcases h with ⟨hname, hplain, -⟩ | ⟨hname, -⟩
  · have hcomma : ',' ∉ p.name.toList := hplain
    by_cases hvalue : p.value = ""
    · simp [NoComma, text, hname, hvalue, hcomma]
    · simp [NoComma, text, hname, hvalue, hcomma]
  · simp [text, hname]

theorem split_texts_iff {ps : List Parameter} (hps : ps ≠ []) (h : ∀ p ∈ ps, p.Shaped) :
    split (texts ps) = ps.map text ↔ ∀ p ∈ ps, NoComma p.value := by
  rw [split_texts hps fun p hp => (h p hp).text_ne_empty]
  exact forall₂_congr fun p hp => (h p hp).noComma_text_iff

/-- Read a parameter: the first equals sign ends the name. -/
def ofText (s : String) : Parameter :=
  match s.toList.dropWhile (· ≠ '=') with
  | [] => flag s
  | _ :: value => ⟨String.ofList (s.toList.takeWhile (· ≠ '=')), String.ofList value⟩

/-- A half that is alone does not show which one it is, and is read as a name. -/
def word (p : Parameter) : Parameter := if p.name = "" then flag p.value else p

/-- No name ends before its last character. -/
theorem ne_sign {cs : List Char} (h : '=' ∉ cs) : ∀ c ∈ cs, decide (c ≠ '=') = true := by
  intro c hc
  have hne : c ≠ '=' := fun heq => h (heq ▸ hc)
  simpa using hne

theorem ofText_of_not_mem {s : String} (h : '=' ∉ s.toList) : ofText s = flag s := by
  have hnone : (s.toList ++ []).dropWhile (· ≠ '=') = [] :=
    List.dropWhile_append_of_pos (ne_sign h)
  rw [List.append_nil] at hnone
  simp only [ofText, hnone]

theorem ofText_append {name : String} (h : '=' ∉ name.toList) (value : String) :
    ofText (name ++ "=" ++ value) = ⟨name, value⟩ := by
  have htext : (name ++ "=" ++ value).toList = name.toList ++ '=' :: value.toList := by simp
  have hdrop : (name.toList ++ '=' :: value.toList).dropWhile (· ≠ '=') = '=' :: value.toList := by
    rw [List.dropWhile_append_of_pos (ne_sign h), List.dropWhile_cons_of_neg (by decide)]
  have htake : (name.toList ++ '=' :: value.toList).takeWhile (· ≠ '=') = name.toList := by
    rw [List.takeWhile_append_of_pos (ne_sign h), List.takeWhile_cons_of_neg (by decide),
      List.append_nil]
  simp only [ofText, htext, hdrop, htake, String.ofList_toList]

theorem Legible.ofText_text {p : Parameter} (h : p.Legible) : ofText p.text = p.word := by
  rcases h with ⟨hname, -, hsign⟩ | ⟨hname, -, hsign⟩
  · rw [word, if_neg hname, text, if_neg hname]
    by_cases hvalue : p.value = ""
    · rw [if_pos hvalue, ofText_of_not_mem hsign, flag, ← hvalue]
    · rw [if_neg hvalue, ofText_append hsign]
  · rw [text, word, if_pos hname, if_pos hname, ofText_of_not_mem hsign]

end Parameter

/-- What stands behind the kind of an option is read as the option's parameters. -/
def CommandOption.ReadsBack (o : CommandOption) : Prop :=
  ∀ text ∈ o.args.tail, Parameter.split text = o.parameters.map Parameter.text

theorem CommandOption.readsBack_iff {o : CommandOption} (h : ∀ p ∈ o.parameters, p.Shaped) :
    o.ReadsBack ↔ ∀ p ∈ o.parameters, NoComma p.value := by
  by_cases hnone : o.parameters = []
  · simp [ReadsBack, args, hnone]
  · rw [← Parameter.split_texts_iff hnone h]
    simp [ReadsBack, args, hnone]

end GuestCompiler
