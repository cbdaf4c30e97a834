import GuestCompiler.Proofs.IdentityText

/-!
# The grammar of hardware addresses

An address in writing is six groups of two hexadecimal digits each, with a colon or a hyphen between
(`Grouped HexPair`). All such texts are read, to the octets that their digits stand for; besides
them, texts are read in which a plus sign stands in the place of a group's first digit
(`parse?_grammar`).
-/
namespace GuestCompiler

namespace Text.Hex

/-- A digit in lower or upper case, and its value. -/
def Digit (c : Char) (n : Nat) : Prop :=
  "0123456789abcdef".toList[n]? = some c ∨ "0123456789ABCDEF".toList[n]? = some c

theorem digits_lower : ∀ n < 16, "0123456789abcdef".toList[n]? = some (lower n) := by decide

theorem digits_upper : ∀ n < 16, "0123456789ABCDEF".toList[n]? = some (upper n) := by decide

theorem Digit.lt {c : Char} {n : Nat} (h : Digit c n) : n < 16 := by
  rcases h with h | h <;> exact (List.getElem?_eq_some_iff.1 h).1

/-- A character with a value is the digit of that value in one case or the other. -/
theorem eq_of_value? {c : Char} {n : Nat} (h : value? c = some n) : c = lower n ∨ c = upper n := by
  have hshift {k : Nat} (hk : k ≤ c.toNat) : Char.ofNat (c.toNat - k + k) = c := by
    rw [Nat.sub_add_cancel hk, Char.ofNat_toNat]
  simp only [value?] at h
  split at h
  · cases h
    left
    rw [lower, if_pos (by omega), hshift (by omega)]
  · split at h
    · cases h
      right
      rw [upper, if_neg (by omega), hshift (by omega)]
    · split at h
      · cases h
        left
        rw [lower, if_neg (by omega), hshift (by omega)]
      · cases h

theorem value?_eq_some_iff {c : Char} {n : Nat} : value? c = some n ↔ Digit c n := by
  constructor
  · intro h
    have hn := value?_lt h
    rcases eq_of_value? h with rfl | rfl
    · exact .inl (digits_lower n hn)
    · exact .inr (digits_upper n hn)
  · intro h
    have hn := h.lt
    rcases h with h | h
    · rw [digits_lower n hn] at h
      cases h
      exact value?_lower n hn
    · rw [digits_upper n hn] at h
      cases h
      exact value?_upper n hn

/-- Two digits are a byte. -/
theorem toNat_digits {h l : Nat} (hh : h < 16) (hl : l < 16) :
    (UInt8.ofNat (16 * h + l)).toNat = 16 * h + l :=
  UInt8.toNat_ofNat_of_lt' (by simp only [UInt8.size]; omega)

end Text.Hex

namespace MacAddress

open Text.Hex

/-- A group of two digits, and the octet that they write. -/
def HexPair (cs : List Char) (b : UInt8) : Prop :=
  ∃ hi lo h l, cs = [hi, lo] ∧ Digit hi h ∧ Digit lo l ∧ b.toNat = 16 * h + l

/-- A plus sign and a digit. -/
def SignedDigit (cs : List Char) (b : UInt8) : Prop :=
  ∃ lo, cs = ['+', lo] ∧ Digit lo b.toNat

/-- A text of groups with separators between, and what the groups stand for. -/
inductive Grouped (group : List Char → UInt8 → Prop) : List Char → List UInt8 → Prop
  | one {cs : List Char} {b : UInt8} : group cs b → Grouped group cs [b]
  | more {cs rest : List Char} {sep : Char} {b : UInt8} {bs : List UInt8} : group cs b →
    sep = ':' ∨ sep = '-' → Grouped group rest bs → Grouped group (cs ++ sep :: rest) (b :: bs)

section Parts

theorem parts_ne_nil (cs : List Char) : parts cs ≠ [] := by
  cases cs with
  | nil => exact List.cons_ne_nil _ _
  | cons c cs =>
    rw [parts]
    split
    · exact List.cons_ne_nil _ _
    · split <;> exact List.cons_ne_nil _ _

/-- A text without separators is a part of its own, and any other one goes on behind a separator. -/
theorem parts_eq_cons {cs part : List Char} {ps : List (List Char)} (h : parts cs = part :: ps) :
    (cs = part ∧ ps = []) ∨
      ∃ sep rest, (sep = ':' ∨ sep = '-') ∧ cs = part ++ sep :: rest ∧ parts rest = ps := by
  induction cs generalizing part with
  | nil =>
    cases h
    exact .inl ⟨rfl, rfl⟩
  | cons c cs ih =>
    by_cases hc : c = ':' ∨ c = '-'
    · rw [parts, if_pos hc] at h
      cases h
      exact .inr ⟨c, cs, hc, rfl, rfl⟩
    · obtain ⟨q, qs, hparts⟩ := List.exists_cons_of_ne_nil (parts_ne_nil cs)
      rw [parts, if_neg hc, hparts] at h
      cases h
      rcases ih hparts with ⟨rfl, rfl⟩ | ⟨sep, rest, hsep, rfl, hrest⟩
      · exact .inl ⟨rfl, rfl⟩
      · exact .inr ⟨sep, rest, hsep, rfl, hrest⟩

variable {group : List Char → UInt8 → Prop} {cs : List Char} {bs : List UInt8}

theorem Grouped.of_parts (h : List.Forall₂ group (parts cs) bs) : Grouped group cs bs := by
  generalize hparts : parts cs = ps at h
  induction h generalizing cs with
  | nil => exact absurd hparts (parts_ne_nil cs)
  | cons hgroup hmore ih =>
    rcases parts_eq_cons hparts with ⟨rfl, rfl⟩ | ⟨sep, rest, hsep, rfl, hrest⟩
    · cases hmore
      exact .one hgroup
    · exact .more hgroup hsep (ih hrest)

/-- Where groups have no separators in them, they are the parts of the text. -/
theorem Grouped.parts (hgroup : ∀ part b, group part b → ∀ c ∈ part, ¬ (c = ':' ∨ c = '-'))
    (h : Grouped group cs bs) : List.Forall₂ group (parts cs) bs := by
  induction h with
  | one hone =>
    rw [parts_eq_self (hgroup _ _ hone)]
    exact .cons hone .nil
  | more hone hsep _ ih =>
    rw [parts_append (hgroup _ _ hone) hsep]
    exact .cons hone ih

theorem Grouped.imp {group' : List Char → UInt8 → Prop}
    (himp : ∀ part b, (∀ c ∈ part, c ∈ cs) → group part b → group' part b)
    (h : Grouped group cs bs) : Grouped group' cs bs := by
  induction h with
  | one hone => exact .one (himp _ _ (fun _ => id) hone)
  | more hone hsep _ ih =>
    refine .more (himp _ _ (fun _ => List.mem_append_left _) hone) hsep (ih fun part b hpart => ?_)
    exact himp part b fun c hc => List.mem_append_right _ (List.mem_cons_of_mem _ (hpart c hc))

end Parts

section Groups

variable {cs : List Char} {b : UInt8}

theorem not_digit_plus {n : Nat} : ¬ Digit '+' n := fun h => by
  have hnone : value? '+' = some n := value?_eq_some_iff.2 h
  exact absurd hnone nofun

theorem ofPart?_eq_some_iff : ofPart? cs = some b ↔ HexPair cs b ∨ SignedDigit cs b := by
  constructor
  · intro h
    unfold ofPart? at h
    split at h
    · rename_i lo
      obtain ⟨n, hn, rfl⟩ := Option.map_eq_some_iff.1 h
      have hlt := value?_lt hn
      have hvalue : (UInt8.ofNat n).toNat = n :=
        UInt8.toNat_ofNat_of_lt' (by simp only [UInt8.size]; omega)
      rw [← hvalue] at hn
      exact .inr ⟨lo, rfl, value?_eq_some_iff.1 hn⟩
    · rename_i hi lo _
      obtain ⟨h₁, hh, h⟩ := Option.bind_eq_some_iff.1 h
      obtain ⟨l, hl, h⟩ := Option.bind_eq_some_iff.1 h
      cases h
      have hhi := value?_eq_some_iff.1 hh
      have hlo := value?_eq_some_iff.1 hl
      exact .inl ⟨hi, lo, h₁, l, rfl, hhi, hlo, toNat_digits hhi.lt hlo.lt⟩
    · cases h
  · rintro (⟨hi, lo, h, l, rfl, hhi, hlo, hb⟩ | ⟨lo, rfl, hlo⟩)
    · have hplus : hi ≠ '+' := fun heq => not_digit_plus (heq ▸ hhi)
      rw [ofPart?.eq_2 _ _ hplus, value?_eq_some_iff.2 hhi, value?_eq_some_iff.2 hlo]
      change some (UInt8.ofNat (16 * h + l)) = some b
      rw [← hb, UInt8.ofNat_toNat]
    · rw [ofPart?, value?_eq_some_iff.2 hlo]
      change some (UInt8.ofNat b.toNat) = some b
      rw [UInt8.ofNat_toNat]

theorem HexPair.ne_plus (h : HexPair cs b) : ∀ c ∈ cs, c ≠ '+' := by
  obtain ⟨hi, lo, _, _, rfl, hhi, hlo, -⟩ := h
  have hne {c : Char} {n : Nat} (hc : Digit c n) : c ≠ '+' := fun heq => not_digit_plus (heq ▸ hc)
  simpa using ⟨hne hhi, hne hlo⟩

/-- Neither digits nor separators are plus signs. -/
theorem Grouped.not_mem_plus {bs : List UInt8} (h : Grouped HexPair cs bs) : '+' ∉ cs := by
  induction h with
  | one hone => exact fun hmem => hone.ne_plus _ hmem rfl
  | more hone hsep _ ih =>
    simp only [List.mem_append, List.mem_cons, not_or]
    refine ⟨fun hmem => hone.ne_plus _ hmem rfl, ?_, ih⟩
    rintro rfl
    exact absurd hsep (by decide)

end Groups

/-- A list of values where there are some for all elements. -/
theorem optionMapM_eq_some {α β : Type} {f : α → Option β} {xs : List α} {ys : List β} :
    xs.mapM f = some ys ↔ List.Forall₂ (fun x y => f x = some y) xs ys := by
  induction xs generalizing ys with
  | nil => cases ys <;> simp
  | cons x xs ih =>
    rw [List.mapM_cons]
    cases hx : f x <;> cases hxs : xs.mapM f <;> cases ys <;> simp [← ih, hx, hxs]

theorem ofList?_eq_some_iff {n : Nat} {bytes : List UInt8} {o : Octets n} :
    Octets.ofList? n bytes = some o ↔ bytes = o.toList := by
  constructor
  · intro h
    unfold Octets.ofList? at h
    split at h <;> cases h
    rfl
  · rintro rfl
    exact o.ofList?_toList

section Grammar

variable {text : String} {m : MacAddress}

theorem parse?_eq_some_iff : parse? text = some m ↔
    List.Forall₂ (fun part b => ofPart? part = some b) (parts text.toList) m.octets.toList := by
  rw [← optionMapM_eq_some, parse?]
  cases (parts text.toList).mapM ofPart? with
  | none => simp
  | some bytes =>
    have hoctets : (Octets.ofList? 6 bytes >>= fun o => some (⟨o⟩ : MacAddress)) = some m ↔
        Octets.ofList? 6 bytes = some m.octets := by
      cases Octets.ofList? 6 bytes with
      | none => simp
      | some o => exact ⟨fun h => by cases h; rfl, fun h => by cases h; rfl⟩
    exact hoctets.trans (ofList?_eq_some_iff.trans (Option.some_inj).symm)

theorem no_separator {part : List Char} {b : UInt8} (h : HexPair part b ∨ SignedDigit part b) :
    ∀ c ∈ part, ¬ (c = ':' ∨ c = '-') := by
  have hdigit {c : Char} {n : Nat} (hc : Digit c n) : ¬ (c = ':' ∨ c = '-') := by
    rintro (rfl | rfl)
    · exact absurd (value?_eq_some_iff.2 hc) nofun
    · exact absurd (value?_eq_some_iff.2 hc) nofun
  rcases h with ⟨hi, lo, _, _, rfl, hhi, hlo, -⟩ | ⟨lo, rfl, hlo⟩
  · simpa using ⟨not_or.1 (hdigit hhi), not_or.1 (hdigit hlo)⟩
  · simpa using not_or.1 (hdigit hlo)

theorem parse?_grouped : parse? text = some m ↔
    Grouped (fun part b => HexPair part b ∨ SignedDigit part b) text.toList m.octets.toList := by
  rw [parse?_eq_some_iff]
  simp only [ofPart?_eq_some_iff]
  exact ⟨.of_parts, Grouped.parts fun _ _ => no_separator⟩

end Grammar

/-- A text is read as an address exactly where it is six groups with colons or hyphens between, each
of two digits or of a plus sign and a digit, and the octets are the values of the groups. Those
among them that have no plus sign are the six groups of two digits. What an address is written as is
read as that address again. -/
theorem parse?_grammar (text : String) (m : MacAddress) :
    (parse? text = some m ↔
      Grouped (fun part b => HexPair part b ∨ SignedDigit part b) text.toList m.octets.toList) ∧
    (Grouped HexPair text.toList m.octets.toList ↔ parse? text = some m ∧ '+' ∉ text.toList) ∧
    parse? m.toString = some m := by
  refine ⟨parse?_grouped, ⟨fun h => ⟨?_, ?_⟩, fun ⟨h, hplus⟩ => ?_⟩, parse?_toString m⟩
  · exact parse?_grouped.2 (h.imp fun _ _ _ => .inl)
  · exact h.not_mem_plus
  · refine (parse?_grouped.1 h).imp fun part b hpart hgroup => hgroup.resolve_right ?_
    rintro ⟨lo, rfl, -⟩
    exact hplus (hpart '+' List.mem_cons_self)

/-- A text with a plus sign in it is read, which is not of the form of an address. -/
theorem signed_read : parse? "+5:00:00:00:00:00" = some ⟨⟨[5, 0, 0, 0, 0, 0], rfl⟩⟩ ∧
    ∀ bs, ¬ Grouped HexPair "+5:00:00:00:00:00".toList bs := by
  refine ⟨by decide, fun bs h => ?_⟩
  exact h.not_mem_plus (by decide)

end MacAddress

end GuestCompiler
