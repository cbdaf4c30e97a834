import GuestCompiler.Build.Machine
import GuestCompiler.Proofs.CommandText

/-!
# Texts without commas

What the build makes up itself has no comma: numbers, identities and places. What it makes of texts
that it is given, such as paths and patterns, has none where they have none.
-/
namespace GuestCompiler

@[simp] theorem noComma_append (a b : String) : NoComma (a ++ b) ↔ NoComma a ∧ NoComma b := by
  simp [NoComma]

@[simp] theorem noComma_ofList (cs : List Char) : NoComma (String.ofList cs) ↔ ',' ∉ cs := by
  simp [NoComma]

@[simp] theorem noComma_ite {c : Prop} [Decidable c] {a b : String} :
    NoComma (if c then a else b) ↔ (c → NoComma a) ∧ (¬ c → NoComma b) := by
  by_cases hc : c <;> simp [hc]

/-- A text of the program decides by itself. -/
theorem noComma_literal {s : String} (h : NoComma s) : NoComma s ↔ True := iff_true_intro h

section Numbers

theorem mem_toDigits {b n : Nat} (hb : 1 < b) {c : Char} (hc : c ∈ b.toDigits n) :
    ∃ k, c = Nat.digitChar k := by
  induction n using Nat.strongRecOn with
  | ind n ih =>
    rw [Nat.toDigits_eq_if hb] at hc
    split at hc
    · exact ⟨n, List.mem_singleton.1 hc⟩
    · rename_i hn
      rcases List.mem_append.1 hc with hfront | hlast
      · exact ih (n / b) (Nat.div_lt_self (by omega) hb) hfront
      · exact ⟨n % b, List.mem_singleton.1 hlast⟩

theorem comma_not_mem_toDigits {b : Nat} (hb : 1 < b) (n : Nat) : ',' ∉ b.toDigits n := by
  intro hc
  obtain ⟨k, hk⟩ := mem_toDigits hb hc
  exact Nat.digitChar_ne ',' rfl hk.symm

@[simp] theorem noComma_repr (n : Nat) : NoComma n.repr := by
  rw [NoComma, Nat.toList_repr]
  exact comma_not_mem_toDigits (by decide) n

@[simp] theorem PciAddress.noComma_text (a : PciAddress) : NoComma a.text := by
  have hslot := @comma_not_mem_toDigits 16 (by decide) a.slot
  simp (disch := decide) [text, hslot, noComma_literal]

end Numbers

section Identities

theorem toNat_ofNat (k : Nat) : (Char.ofNat k).toNat = k ∨ (Char.ofNat k).toNat = 0 := by
  by_cases hk : k.isValidChar
  · left
    rw [Char.ofNat, dif_pos hk]
    rfl
  · right
    rw [Char.ofNat, dif_neg hk]
    rfl

/-- No digit, whatever letters there are beyond 9, is a sign. -/
theorem digit_ne {c : Char} (hc : c = ',' ∨ c = '=') (letters : Nat) (hletters : 55 ≤ letters)
    (n : Nat) : Char.ofNat (if n < 10 then n + 48 else n + letters) ≠ c := by
  intro heq
  have hpoint := toNat_ofNat (if n < 10 then n + 48 else n + letters)
  have hsign : c.toNat = 44 ∨ c.toNat = 61 := hc.imp (congrArg Char.toNat) (congrArg Char.toNat)
  rw [heq] at hpoint
  split at hpoint <;> omega

theorem not_mem_encode {digit : Nat → Char} {c : Char} (h : ∀ n, digit n ≠ c)
    (bytes : List UInt8) : c ∉ Text.Hex.encode digit bytes := by
  intro hmem
  obtain ⟨b, -, hb⟩ := List.mem_flatMap.1 hmem
  simp only [List.mem_cons, List.not_mem_nil, or_false] at hb
  exact hb.elim (h _ ·.symm) (h _ ·.symm)

theorem mem_hyphenate {c : Char} {digits : List Char} (h : c ∈ Uuid.hyphenate digits) :
    c = '-' ∨ c ∈ digits := by
  simp only [Uuid.hyphenate, List.mem_append, List.mem_cons] at h
  rcases h with h | rfl | h | rfl | h | rfl | h | rfl | h
  · exact .inr (List.mem_of_mem_take h)
  · exact .inl rfl
  · exact .inr (List.mem_of_mem_drop (List.mem_of_mem_take h))
  · exact .inl rfl
  · exact .inr (List.mem_of_mem_drop (List.mem_of_mem_take h))
  · exact .inl rfl
  · exact .inr (List.mem_of_mem_drop (List.mem_of_mem_take h))
  · exact .inl rfl
  · exact .inr (List.mem_of_mem_drop h)

theorem Uuid.not_mem_toString {c : Char} (hc : c = ',' ∨ c = '=') (u : Uuid) :
    c ∉ u.toString.toList := by
  rw [toString, String.toList_ofList]
  intro hmem
  rcases mem_hyphenate hmem with rfl | hdigit
  · simp at hc
  · exact not_mem_encode (digit_ne hc 87 (by decide)) _ hdigit

theorem Uuid.toString_ne_empty (u : Uuid) : u.toString ≠ "" := by
  intro h
  have hchars := congrArg String.toList h
  simp [toString, hyphenate] at hchars

@[simp] theorem Uuid.noComma_toString (u : Uuid) : NoComma u.toString :=
  u.not_mem_toString (.inl rfl)

@[simp] theorem Wwn.noComma_toString (w : Wwn) : NoComma w.toString := by
  rw [toString, noComma_ofList, List.mem_cons, List.mem_cons, not_or, not_or]
  exact ⟨by decide, by decide, not_mem_encode (digit_ne (.inl rfl) 55 (by decide)) w.bytes⟩

theorem mem_intercalate {α : Type} {x : α} {separator : List α} {xss : List (List α)}
    (h : x ∈ separator.intercalate xss) : x ∈ separator ∨ ∃ xs ∈ xss, x ∈ xs := by
  induction xss with
  | nil => simp at h
  | cons xs xss ih =>
    cases xss with
    | nil => exact .inr ⟨xs, List.mem_cons_self, by simpa using h⟩
    | cons ys yss =>
      rw [List.intercalate_cons_cons, List.mem_append, List.mem_append] at h
      rcases h with (hfirst | hseparator) | hrest
      · exact .inr ⟨xs, List.mem_cons_self, hfirst⟩
      · exact .inl hseparator
      · exact (ih hrest).imp id fun ⟨zs, hzs, hx⟩ => ⟨zs, List.mem_cons_of_mem _ hzs, hx⟩

@[simp] theorem MacAddress.noComma_toString (m : MacAddress) : NoComma m.toString := by
  have hpair (b : UInt8) : ',' ∉ Text.Hex.encode Text.Hex.lower [b] :=
    not_mem_encode (digit_ne (.inl rfl) 87 (by decide)) [b]
  rw [toString, noComma_ofList]
  intro hmem
  rcases mem_intercalate hmem with hcolon | ⟨pair, hpairs, hcomma⟩
  · simp at hcolon
  · obtain ⟨b, -, rfl⟩ := List.mem_map.1 hpairs
    exact hpair b hcomma

@[simp] theorem Seed.noComma_serial (seed : Seed) (domain : Seed.Domain) (entity : String) :
    NoComma (seed.serial domain entity) := by
  rw [serial, noComma_ofList, Text.Base32Hex.encode]
  intro hmem
  obtain ⟨bits, -, hbits⟩ := List.mem_map.1 hmem
  exact digit_ne (.inl rfl) 55 (by decide) _ hbits

end Identities

section Places

theorem Path.noComma_join {p : Path} {right : String} (hp : NoComma p.text)
    (hright : NoComma right) : NoComma (p.join right).text := by
  have hseparator : NoComma p.separator := by
    rw [separator]
    split <;> decide
  rw [join]
  split
  · exact hright
  · simp [hp, hseparator, hright]

theorem Connection.noComma_linkName {machine : String} {c : Connection} (hmachine : NoComma machine)
    (hc : NoComma c.name) : NoComma (c.linkName machine) := by
  rw [linkName, noComma_ofList]
  intro hmem
  have hall : NoComma (machine ++ "-" ++ c.name) := by
    simp only [noComma_append]
    exact ⟨⟨hmachine, by decide⟩, hc⟩
  exact hall (List.mem_filter.1 hmem).1

end Places

section Patterns

namespace Pattern

theorem source_next (cs : List Char) : (next cs).1.source ++ (next cs).2 = cs := by
  fun_cases next cs with
  | case1 rest hopen => simp [Token.source]
  | case2 rest brace after hclosed =>
    have hstop := List.head?_dropWhile_not (fun c => decide (c ≠ '\x7d')) rest
    rw [hclosed] at hstop
    have hbrace : brace = '\x7d' := by simpa using hstop
    have hsplit : rest.takeWhile (· ≠ '\x7d') ++ rest.dropWhile (· ≠ '\x7d') = rest :=
      List.takeWhile_append_dropWhile
    rw [hclosed, hbrace] at hsplit
    simpa [Token.source] using hsplit
  | case3 rest _ hbare => simp [Token.source]
  | case4 rest _ hbare => simp [Token.source]
  | case5 cs _ _ => simp [Token.source]

/-- Reading a pattern loses nothing. -/
theorem flatMap_source_tokens (cs : List Char) : (tokens cs).flatMap Token.source = cs := by
  fun_induction tokens cs with
  | case1 => rfl
  | case2 cs hcs ih => rw [List.flatMap_cons, ih, source_next]

theorem noComma_expand {lookup : String → String} {pattern : String} (hpattern : NoComma pattern)
    (hlookup : ∀ name, NoComma (lookup name)) : NoComma (expand lookup pattern) := by
  rw [expand, noComma_ofList]
  intro hcomma
  obtain ⟨token, htoken, hvalue⟩ := List.mem_flatMap.1 hcomma
  have hsource : ',' ∉ token.source := by
    intro hmem
    have hread := List.mem_flatMap.2 ⟨token, htoken, hmem⟩
    rw [flatMap_source_tokens] at hread
    exact hpattern hread
  cases token with
  | braced name => exact hlookup _ hvalue
  | bare name => exact hlookup _ hvalue
  | plain cs => exact hsource hvalue
  | dollar => exact hsource hvalue
  | unclosed rest => exact hsource hvalue

end Pattern

end Patterns

section Volumes

theorem Pool.noComma_fileName {pool : Pool} {machine : MachineInfo} {volume : String}
    (hkind : NoComma pool.kind) (hpattern : NoComma pool.pattern) (hmachine : NoComma machine.name)
    (hvolume : NoComma volume) : NoComma (pool.fileName machine volume) := by
  rw [fileName]
  split
  · refine Pattern.noComma_expand hpattern fun name => ?_
    simp (disch := decide) [hmachine, hvolume, noComma_literal]
  · have hext : ',' ∉ pool.kind.toList.takeWhile (· ≠ '-') :=
      fun hmem => hkind ((List.takeWhile_sublist _).mem hmem)
    split
    · simp (disch := decide) [hvolume, noComma_literal]
    · rw [noComma_append, noComma_append]
      exact ⟨⟨hvolume, by decide⟩, (noComma_ofList _).2 hext⟩

theorem Pool.noComma_volumePath {pool : Pool} {machine : MachineInfo} {volume : String}
    (hpath : NoComma pool.path.text) (hkind : NoComma pool.kind) (hpattern : NoComma pool.pattern)
    (hmachine : NoComma machine.name) (hvolume : NoComma volume) :
    NoComma (pool.volumePath machine volume).text := by
  have hfile := noComma_fileName hkind hpattern hmachine hvolume
  refine Path.noComma_join hpath ?_
  rw [noComma_ofList]
  exact fun hmem => hfile ((List.dropWhile_sublist _).mem hmem)

/-- The kinds of pools that volumes are attached from. -/
def Attachment.kinds : List String := ["raw", "raw-scsi", "raw-block", "vvfat-block", "iso-ahci",
  "iso-scsi", "iso-usb", "firmware", "tpm-data"]

theorem Attachment.mem_kinds {kind : String} {a : Attachment} (h : ofKind? kind = some a) :
    kind ∈ kinds := by
  simp only [kinds, List.mem_cons, List.not_mem_nil, or_false]
  grind [ofKind?]

theorem Attachment.noComma_kind {kind : String} {a : Attachment} (h : ofKind? kind = some a) :
    NoComma kind := by
  have hkinds : ∀ kind ∈ kinds, NoComma kind := by decide
  exact hkinds kind (mem_kinds h)

end Volumes

end GuestCompiler
