import GattGateway.Command
import GattGateway.Proofs.Identifiers

/-!
# Texts of addresses and of identifiers

A text is taken for an address or for an identifier if all its digits stand where they should, with
one exception: in an octet and in a short identifier a plus sign may stand in the place of the first
digit.
-/
namespace GattGateway

open Text

/-! ## Digits -/

theorem bounds_of_hexValue? {c : Char} {d : Nat} (h : hexValue? c = some d) :
    c.toNat < 128 ∧ d < 16 := by
  have le {a b : Char} (h : a ≤ b) : a.toNat ≤ b.toNat := h
  unfold hexValue? at h
  split_ifs at h with digit lower upper
  · have first : '0'.toNat = 48 := rfl
    have last : c.toNat ≤ 57 := le digit.2
    simp only [Option.some.injEq] at h
    omega
  · have first : 'a'.toNat = 97 := rfl
    have last : c.toNat ≤ 102 := le lower.2
    simp only [Option.some.injEq] at h
    omega
  · have first : 'A'.toNat = 65 := rfl
    have last : c.toNat ≤ 70 := le upper.2
    simp only [Option.some.injEq] at h
    omega

/-- What holds of the first 128 characters one by one. -/
theorem forall_small {P : Char → Prop} (h : ∀ n < 128, P (Char.ofNat n)) {c : Char}
    (small : c.toNat < 128) : P c := by
  have hc := h c.toNat small
  rwa [Char.ofNat_toNat] at hc

theorem hexValue?_eq_some_iff {c : Char} {d : Nat} : hexValue? c = some d ↔ IsDigit d c := by
  refine ⟨fun h => ?_, hexValue?_of_isDigit⟩
  obtain ⟨small, digit⟩ := bounds_of_hexValue? h
  have digits := forall_small (P := fun c => ∀ d < 16, hexValue? c = some d → IsDigit d c)
    (by decide +kernel) small
  exact digits d digit h

theorem isHexDigit_iff {c : Char} : isHexDigit c = true ↔ ∃ d, IsDigit d c := by
  simp only [isHexDigit, Option.isSome_iff_exists, hexValue?_eq_some_iff]

theorem hexNumber?_unsigned {c : Char} {cs : List Char} (h : c ≠ '+') :
    hexNumber? (c :: cs) = hexRun? (c :: cs) := by
  unfold hexNumber?
  split
  · cases ‹_›
  · exact absurd (List.cons.inj ‹_›).1 h
  · exact absurd (List.cons.inj ‹_›).1 h
  · rfl

/-- Only capital letters have another character as their lowercase form. -/
theorem toLower_of_large {c : Char} (h : 128 ≤ c.toNat) : c.toLower = c := by
  have last : 'Z'.val.toNat = 90 := rfl
  have large : 128 ≤ c.val.toNat := h
  unfold Char.toLower
  rw [dif_neg]
  rintro ⟨-, le⟩
  have := UInt32.le_iff_toNat_le.1 le
  omega

/-- A digit in any letter case is one whose lowercase form is the lowercase digit. -/
theorem isDigit_iff_toLower {c : Char} {d : Nat} :
    IsDigit d c ↔ d < 16 ∧ c.toLower = hexDigit .lower d := by
  have bounds : ∀ d < 16, ∀ letters ∈ [LetterCase.lower, .upper],
      (hexDigit letters d).toNat < 128 := by decide
  rcases Nat.lt_or_ge c.toNat 128 with small | large
  · have same := forall_small
      (P := fun c => ∀ d < 16, IsDigit d c ↔ c.toLower = hexDigit .lower d) (by decide +kernel) small
    exact ⟨fun h => ⟨h.1, (same d h.1).1 h⟩, fun h => (same d h.1).2 h.2⟩
  · rw [toLower_of_large large]
    constructor
    · rintro ⟨hd, rfl | rfl⟩
      · exact ⟨hd, rfl⟩
      · exact absurd (bounds d hd .upper (by decide)) (by omega)
    · rintro ⟨hd, rfl⟩
      exact absurd (bounds d hd .lower (by decide)) (by omega)

theorem toLower_eq_colon {c : Char} : c.toLower = ':' ↔ c = ':' := by
  rcases Nat.lt_or_ge c.toNat 128 with small | large
  · exact forall_small (P := fun c => c.toLower = ':' ↔ c = ':') (by decide) small
  · rw [toLower_of_large large]

/-- The digits of a byte, in any letter case. -/
theorem map_toLower_eq_hexByte_iff {b : UInt8} {h l : Char} :
    [h, l].map Char.toLower = (hexByte .upper b).map Char.toLower ↔
      IsDigit (b.toNat / 16) h ∧ IsDigit (b.toNat % 16) l := by
  have lower : ∀ d < 16, (hexDigit .upper d).toLower = hexDigit .lower d := by decide
  have hb : b.toNat < 256 := b.toNat_lt
  have high : b.toNat / 16 < 16 := by omega
  have low : b.toNat % 16 < 16 := by omega
  simp [hexByte, isDigit_iff_toLower, lower _ high, lower _ low, high, low]

/-! ## Addresses -/

/-- An octet in two characters: its digits, or, where signs are read, a plus sign and its only
digit. -/
inductive Octet (signed : Bool) (b : UInt8) : List Char → Prop
  | digits {h l : Char} (high : IsDigit (b.toNat / 16) h) (low : IsDigit (b.toNat % 16) l) :
      Octet signed b [h, l]
  | sign {l : Char} (allowed : signed = true) (digit : IsDigit b.toNat l) : Octet signed b ['+', l]

theorem Octet.pair {signed : Bool} {b : UInt8} {cs : List Char} (h : Octet signed b cs) :
    ∃ h l, cs = [h, l] := by
  cases h with
  | digits high low => exact ⟨_, _, rfl⟩
  | sign allowed digit => exact ⟨_, _, rfl⟩

theorem octet_iff_toLower {b : UInt8} {cs : List Char} :
    Octet false b cs ↔ cs.map Char.toLower = (hexByte .upper b).map Char.toLower := by
  constructor
  · intro octet
    cases octet with
    | digits high low => exact map_toLower_eq_hexByte_iff.2 ⟨high, low⟩
    | sign allowed => cases allowed
  · intro same
    have pair := congrArg List.length same
    simp only [List.length_map] at pair
    obtain ⟨h, l, rfl⟩ := List.length_eq_two.1 pair
    obtain ⟨high, low⟩ := map_toLower_eq_hexByte_iff.1 same
    exact .digits high low

/-- An octet without a sign is one in which there is none. -/
theorem octet_unsigned_iff {b : UInt8} {cs : List Char} :
    Octet false b cs ↔ Octet true b cs ∧ '+' ∉ cs := by
  constructor
  · intro octet
    cases octet with
    | digits high low =>
      refine ⟨.digits high low, ?_⟩
      simp only [List.mem_cons, List.not_mem_nil, or_false, not_or]
      exact ⟨fun he => (he ▸ high).plain.2 (by decide), fun he => (he ▸ low).plain.2 (by decide)⟩
    | sign allowed => cases allowed
  · rintro ⟨octet, unsigned⟩
    cases octet with
    | digits high low => exact .digits high low
    | sign allowed digit => exact absurd List.mem_cons_self unsigned

/-- Octets between colons. -/
inductive Octets (signed : Bool) : List UInt8 → List Char → Prop
  | last {b : UInt8} {cs : List Char} (octet : Octet signed b cs) : Octets signed [b] cs
  | cons {b : UInt8} {bs : List UInt8} {cs rest : List Char} (octet : Octet signed b cs)
      (octets : Octets signed bs rest) : Octets signed (b :: bs) (cs ++ ':' :: rest)

theorem Octets.ne_nil {signed : Bool} {bs : List UInt8} {cs : List Char}
    (h : Octets signed bs cs) : bs ≠ [] := by
  cases h <;> simp

theorem octets_unsigned_iff {bs : List UInt8} {cs : List Char} :
    Octets false bs cs ↔ Octets true bs cs ∧ '+' ∉ cs := by
  have colon : '+' ≠ ':' := by decide
  constructor
  · intro octets
    induction octets with
    | last octet =>
      obtain ⟨octet, unsigned⟩ := octet_unsigned_iff.1 octet
      exact ⟨.last octet, unsigned⟩
    | cons octet octets ih =>
      obtain ⟨octet, unsigned⟩ := octet_unsigned_iff.1 octet
      exact ⟨.cons octet ih.1, by simp [unsigned, colon, ih.2]⟩
  · rintro ⟨octets, unsigned⟩
    induction octets with
    | last octet => exact .last (octet_unsigned_iff.2 ⟨octet, unsigned⟩)
    | cons octet octets ih =>
      simp only [List.mem_append, List.mem_cons, not_or] at unsigned
      exact .cons (octet_unsigned_iff.2 ⟨octet, unsigned.1⟩) (ih unsigned.2.2)

namespace Address

variable {b : UInt8} {bs : List UInt8} {cs : List Char} {h l : Char}

theorem octet?_sign : octet? '+' l = (hexValue? l).map UInt8.ofNat := by
  cases hl : hexValue? l <;> simp [octet?, hexNumber?, hexRun?, hl]

theorem octet?_digits (unsigned : h ≠ '+') : octet? h l =
    (hexValue? h).bind fun high => (hexValue? l).map fun low => UInt8.ofNat (16 * high + low) := by
  cases hh : hexValue? h <;> cases hl : hexValue? l <;>
    simp [octet?, hexNumber?_unsigned unsigned, hexRun?, hh, hl]

theorem byte_toNat {n : Nat} (h : n < 256) : (UInt8.ofNat n).toNat = n :=
  UInt8.toNat_ofNat_of_lt' h

theorem octet?_eq_some_iff : octet? h l = some b ↔ Octet true b [h, l] := by
  have hb : b.toNat < 256 := b.toNat_lt
  constructor
  · intro read
    by_cases signed : h = '+'
    · subst signed
      rw [octet?_sign] at read
      obtain ⟨d, digit, rfl⟩ := Option.map_eq_some_iff.1 read
      have digit := hexValue?_eq_some_iff.1 digit
      have value : (UInt8.ofNat d).toNat = d := byte_toNat (by have := digit.1; omega)
      exact .sign rfl (by rwa [value])
    · rw [octet?_digits signed] at read
      obtain ⟨high, hh, read⟩ := Option.bind_eq_some_iff.1 read
      obtain ⟨low, hl, rfl⟩ := Option.map_eq_some_iff.1 read
      have hh := hexValue?_eq_some_iff.1 hh
      have hl := hexValue?_eq_some_iff.1 hl
      have small : high < 16 ∧ low < 16 := ⟨hh.1, hl.1⟩
      have value : (UInt8.ofNat (16 * high + low)).toNat = 16 * high + low :=
        byte_toNat (by omega)
      have first : (16 * high + low) / 16 = high := by omega
      have second : (16 * high + low) % 16 = low := by omega
      exact .digits (by rwa [value, first]) (by rwa [value, second])
  · intro octet
    cases octet with
    | digits high low =>
      have unsigned : h ≠ '+' := by
        rintro rfl
        exact high.plain.2 (by decide)
      have value : 16 * (b.toNat / 16) + b.toNat % 16 = b.toNat := Nat.div_add_mod b.toNat 16
      rw [octet?_digits unsigned, hexValue?_of_isDigit high, hexValue?_of_isDigit low,
        Option.bind_some, Option.map_some, value, UInt8.ofNat_toNat]
    | sign _ digit =>
      rw [octet?_sign, hexValue?_of_isDigit digit]
      simp

theorem octets?_eq_some_iff : octets? cs = some bs ↔ Octets true bs cs := by
  constructor
  · intro read
    fun_induction octets? cs generalizing bs with
    | case1 h l =>
      obtain ⟨b, octet, rfl⟩ := Option.map_eq_some_iff.1 read
      exact .last (octet?_eq_some_iff.1 octet)
    | case2 h l cs ih =>
      obtain ⟨b, octet, read⟩ := Option.bind_eq_some_iff.1 read
      obtain ⟨bs, rest, ⟨⟩⟩ := Option.bind_eq_some_iff.1 read
      exact .cons (octet?_eq_some_iff.1 octet) (ih rest)
    | case3 => cases read
  · intro octets
    induction octets with
    | @last b cs octet =>
      obtain ⟨h, l, rfl⟩ := octet.pair
      rw [octets?, octet?_eq_some_iff.2 octet]
      rfl
    | @cons b bs cs rest octet octets ih =>
      obtain ⟨h, l, rfl⟩ := octet.pair
      simp [octets?, octet?_eq_some_iff.2 octet, ih]

theorem ofList?_eq_some_iff {a : Address} : ofList? bs = some a ↔ bs = a.bytes.toList := by
  constructor
  · intro made
    unfold ofList? at made
    split_ifs at made
    cases made
    rfl
  · rintro rfl
    obtain ⟨⟨bytes, size⟩⟩ := a
    simp [ofList?, Vector.toList, size]

/-- An address is read from its octets between colons. -/
theorem parse?_eq_some_iff {s : String} {a : Address} :
    parse? s = some a ↔ Octets true a.bytes.toList s.toList := by
  rw [parse?, Option.bind_eq_some_iff, ← octets?_eq_some_iff]
  simp only [ofList?_eq_some_iff]
  exact ⟨fun ⟨bs, read, same⟩ => same ▸ read, fun read => ⟨_, read, rfl⟩⟩

/-- The digits of bytes between colons. -/
def pairs (bs : List UInt8) : List Char := [':'].intercalate (bs.map (hexByte .upper))

theorem pairs_singleton (b : UInt8) : pairs [b] = hexByte .upper b := by
  simp [pairs]

theorem pairs_cons (b : UInt8) (hn : bs ≠ []) :
    pairs (b :: bs) = hexByte .upper b ++ ':' :: pairs bs := by
  obtain ⟨b', bs, rfl⟩ := List.exists_cons_of_ne_nil hn
  simp only [pairs, List.map_cons, List.intercalate_cons_cons]
  simp

/-- Octets without signs are those of a text, up to letter case. -/
theorem octets_iff_toLower :
    Octets false bs cs ↔ bs ≠ [] ∧ cs.map Char.toLower = (pairs bs).map Char.toLower := by
  have colon : ':'.toLower = ':' := by decide
  constructor
  · intro octets
    refine ⟨octets.ne_nil, ?_⟩
    induction octets with
    | last octet => rw [pairs_singleton, octet_iff_toLower.1 octet]
    | cons octet octets ih =>
      rw [pairs_cons _ octets.ne_nil, List.map_append, List.map_append, List.map_cons,
        List.map_cons, octet_iff_toLower.1 octet, ih]
  · rintro ⟨hn, same⟩
    induction bs generalizing cs with
    | nil => exact absurd rfl hn
    | cons b bs ih =>
      by_cases hb : bs = []
      · subst hb
        rw [pairs_singleton] at same
        exact .last (octet_iff_toLower.2 same)
      · rw [pairs_cons b hb, List.map_append, List.map_cons, colon] at same
        obtain ⟨octet, tail, rfl, ho, ht⟩ := List.map_eq_append_iff.1 same
        obtain ⟨c, rest, rfl, hc, hrest⟩ := List.map_eq_cons_iff.1 ht
        obtain rfl := toLower_eq_colon.1 hc
        exact .cons (octet_iff_toLower.2 ho) (ih hb hrest)

/-- Without a sign the texts of an address are its own text, up to letter case. -/
theorem octets_unsigned_iff_toLower {s : String} {a : Address} :
    Octets false a.bytes.toList s.toList ↔ s.toLower = a.text.toLower := by
  have bytes : a.bytes.toList ≠ [] := List.ne_nil_of_length_eq_add_one (Vector.length_toList ..)
  have lower (s : String) : s.toLower.toList = s.toList.map Char.toLower := String.toList_map
  rw [octets_iff_toLower, and_iff_right bytes, ← String.toList_inj, lower, lower, text,
    String.toList_ofList]
  rfl

end Address

/-! ## Identifiers -/

/-- So many digits in base sixteen. -/
def AreDigits (n : Nat) (cs : List Char) : Prop := cs.length = n ∧ ∀ c ∈ cs, isHexDigit c = true

theorem isSome_hexRun?_iff {cs : List Char} :
    (hexRun? cs).isSome = true ↔ ∀ c ∈ cs, isHexDigit c = true := by
  have run (n : Nat) : (cs.foldlM (fun n c => (hexValue? c).map (16 * n + ·)) n).isSome = true ↔
      ∀ c ∈ cs, isHexDigit c = true := by
    induction cs generalizing n with
    | nil => simp
    | cons c cs ih =>
      cases hc : hexValue? c with
      | none => simp [List.foldlM_cons, isHexDigit, hc]
      | some d => simp [List.foldlM_cons, isHexDigit, hc, ih]
  exact run 0

theorem isSome_hexNumber?_iff {c : Char} {cs : List Char} :
    (hexNumber? (c :: cs)).isSome = true ↔ (∀ d ∈ c :: cs, isHexDigit d = true) ∨
      c = '+' ∧ cs ≠ [] ∧ ∀ d ∈ cs, isHexDigit d = true := by
  by_cases signed : c = '+'
  · subst signed
    have noDigit : isHexDigit '+' = false := by decide
    cases cs with
    | nil => simp [hexNumber?, noDigit]
    | cons d cs => simp [hexNumber?, isSome_hexRun?_iff, noDigit]
  · rw [hexNumber?_unsigned signed, isSome_hexRun?_iff]
    simp [signed]

/-- Bytes are read from twice as many digits. -/
theorem exists_bytesOfHex?_iff {cs : List Char} {n : Nat} :
    (∃ bs, bytesOfHex? cs = some bs ∧ bs.length = n) ↔ AreDigits (2 * n) cs := by
  constructor
  · rintro ⟨bs, read, rfl⟩
    fun_induction bytesOfHex? cs generalizing bs with
    | case1 =>
      cases read
      exact ⟨rfl, nofun⟩
    | case2 => cases read
    | case3 h l cs ih =>
      obtain ⟨high, hh, read⟩ := Option.bind_eq_some_iff.1 read
      obtain ⟨low, hl, read⟩ := Option.bind_eq_some_iff.1 read
      obtain ⟨rest, hrest, ⟨⟩⟩ := Option.bind_eq_some_iff.1 read
      obtain ⟨length, digits⟩ := ih rest hrest
      have pair : isHexDigit h = true ∧ isHexDigit l = true := by simp [isHexDigit, hh, hl]
      refine ⟨by simp only [List.length_cons, length]; omega, ?_⟩
      exact List.forall_mem_cons.2 ⟨pair.1, List.forall_mem_cons.2 ⟨pair.2, digits⟩⟩
  · rintro ⟨length, digits⟩
    induction n generalizing cs with
    | zero =>
      obtain rfl := List.length_eq_zero_iff.1 length
      exact ⟨[], rfl, rfl⟩
    | succ n ih =>
      obtain ⟨h, l, cs, rfl⟩ : ∃ h l rest, cs = h :: l :: rest := by
        match cs, length with
        | h :: l :: rest, _ => exact ⟨h, l, rest, rfl⟩
      simp only [List.forall_mem_cons] at digits
      obtain ⟨high, hh⟩ := Option.isSome_iff_exists.1 digits.1
      obtain ⟨low, hl⟩ := Option.isSome_iff_exists.1 digits.2.1
      obtain ⟨bs, read, hn⟩ := ih (by simp only [List.length_cons] at length; omega) digits.2.2
      refine ⟨UInt8.ofNat (16 * high + low) :: bs, ?_, by rw [List.length_cons, hn]⟩
      rw [bytesOfHex?, hh, hl, read]
      rfl

namespace CanonicalUuid

/-- What stands for an identifier: four digits, three behind a sign where signs are read, or 32 with
any dashes among them. -/
inductive Body (signed : Bool) : List Char → Prop
  | short {cs : List Char} (digits : AreDigits 4 cs) : Body signed cs
  | sign {cs : List Char} (allowed : signed = true) (digits : AreDigits 3 cs) :
      Body signed ('+' :: cs)
  | long {cs : List Char} (digits : AreDigits 32 (cs.filter (· ≠ '-'))) : Body signed cs

/-- A text for an identifier: what stands for it, behind at most one mark of a number and between
any blanks. -/
inductive Reads (signed : Bool) : String → Prop
  | intro {before mark body after : List Char} (reads : Body signed body)
      (marked : mark ∈ [[], ['0', 'x'], ['0', 'X']]) (blankBefore : ∀ c ∈ before, isBlank c = true)
      (blankAfter : ∀ c ∈ after, isBlank c = true) :
      Reads signed (String.ofList (before ++ (mark ++ body) ++ after))

theorem Body.ne_nil {signed : Bool} {cs : List Char} (h : Body signed cs) : cs ≠ [] := by
  rintro rfl
  cases h with
  | short digits => cases digits.1
  | long digits => cases digits.1

theorem isPlain_of_isHexDigit {c : Char} (h : isHexDigit c = true) : IsPlain c := by
  obtain ⟨d, digit⟩ := isHexDigit_iff.1 h
  exact IsSpelled.plain (.inr ⟨d, digit⟩)

theorem Body.plain {signed : Bool} {cs : List Char} (h : Body signed cs) : ∀ c ∈ cs, IsPlain c := by
  intro c hc
  cases h with
  | short digits => exact isPlain_of_isHexDigit (digits.2 c hc)
  | sign allowed digits =>
    rcases List.mem_cons.1 hc with rfl | hc
    · decide
    · exact isPlain_of_isHexDigit (digits.2 c hc)
  | long digits =>
    by_cases dash : c = '-'
    · subst dash
      decide
    · exact isPlain_of_isHexDigit (digits.2 c (List.mem_filter.2 ⟨hc, by simpa using dash⟩))

/-- Text without the blanks around it. -/
theorem exists_trimBlank (cs : List Char) : ∃ before after, cs = before ++ trimBlank cs ++ after ∧
    (∀ c ∈ before, isBlank c = true) ∧ ∀ c ∈ after, isBlank c = true := by
  have blank {cs : List Char} : ∀ c ∈ cs.takeWhile isBlank, isBlank c = true :=
    List.all_eq_true.1 List.all_takeWhile
  have finish (rest : List Char) :
      dropBlankEnd rest ++ (rest.reverse.takeWhile isBlank).reverse = rest := by
    rw [dropBlankEnd, ← List.reverse_append, List.takeWhile_append_dropWhile, List.reverse_reverse]
  refine ⟨cs.takeWhile isBlank, ((cs.dropWhile isBlank).reverse.takeWhile isBlank).reverse, ?_,
    blank, ?_⟩
  · rw [List.append_assoc, trimBlank, finish, List.takeWhile_append_dropWhile]
  · simpa only [List.mem_reverse] using blank

theorem exists_dropMark (cs : List Char) :
    ∃ mark ∈ [[], ['0', 'x'], ['0', 'X']], cs = mark ++ dropMark cs := by
  unfold dropMark
  split
  · exact ⟨['0', 'x'], by simp, rfl⟩
  · exact ⟨['0', 'X'], by simp, rfl⟩
  · exact ⟨[], by simp, rfl⟩

theorem body_iff_of_short {cs : List Char} (h : cs.length = 4) :
    Body true cs ↔ (hexNumber? cs).isSome = true := by
  obtain ⟨c, rest, rfl⟩ := List.exists_cons_of_length_eq_add_one h
  rw [isSome_hexNumber?_iff]
  constructor
  · intro body
    generalize hcs : c :: rest = cs at body h
    cases body with
    | short digits => exact .inl digits.2
    | sign allowed digits =>
      obtain ⟨rfl, rfl⟩ := List.cons.inj hcs
      exact .inr ⟨rfl, List.ne_nil_of_length_eq_add_one digits.1, digits.2⟩
    | long digits =>
      have fewer := List.length_filter_le (· ≠ '-') cs
      rw [digits.1] at fewer
      omega
  · rintro (digits | ⟨rfl, -, digits⟩)
    · exact .short ⟨h, digits⟩
    · exact .sign rfl ⟨by simpa using h, digits⟩

theorem isSome_ofList?_iff {bs : List UInt8} : (ofList? bs).isSome = true ↔ bs.length = 16 := by
  unfold ofList?
  split_ifs with h <;> simp [h]

theorem body_iff_of_long {cs : List Char} (h : cs.length ≠ 4) :
    Body true cs ↔ ((bytesOfHex? (cs.filter (· ≠ '-'))).bind ofList?).isSome = true := by
  have read : ((bytesOfHex? (cs.filter (· ≠ '-'))).bind ofList?).isSome = true ↔
      ∃ bs, bytesOfHex? (cs.filter (· ≠ '-')) = some bs ∧ bs.length = 16 := by
    cases hbs : bytesOfHex? (cs.filter (· ≠ '-')) with
    | none => simp
    | some bs => simp [isSome_ofList?_iff]
  rw [read, exists_bytesOfHex?_iff]
  constructor
  · intro body
    cases body with
    | short digits => exact absurd digits.1 h
    | sign allowed digits => exact absurd (congrArg (· + 1) digits.1) h
    | long digits => exact digits
  · exact .long

theorem isSome_parse?_iff {s : String} : (parse? s).isSome = true ↔ Reads true s := by
  have read : (parse? s).isSome = true ↔ Body true (dropMark (trimBlank s.toList)) := by
    unfold parse?
    dsimp only
    split_ifs with h
    · rw [body_iff_of_short h, Option.isSome_map]
    · rw [body_iff_of_long h]
  rw [read]
  constructor
  · intro body
    obtain ⟨before, after, text, blankBefore, blankAfter⟩ := exists_trimBlank s.toList
    obtain ⟨mark, marked, trimmed⟩ := exists_dropMark (trimBlank s.toList)
    have reads := Reads.intro body marked blankBefore blankAfter
    rwa [← trimmed, ← text, String.ofList_toList] at reads
  · rintro ⟨body, marked, blankBefore, blankAfter⟩
    rw [String.toList_ofList, dropMark_trimBlank body.ne_nil body.plain marked blankBefore blankAfter]
    exact body

theorem body_unsigned_iff {cs : List Char} : Body false cs ↔ Body true cs ∧ '+' ∉ cs := by
  have unsigned {n : Nat} {cs : List Char} (digits : AreDigits n cs) : '+' ∉ cs := fun sign =>
    absurd (digits.2 _ sign) (by decide)
  constructor
  · intro body
    cases body with
    | short digits => exact ⟨.short digits, unsigned digits⟩
    | sign allowed => cases allowed
    | long digits =>
      exact ⟨.long digits, fun sign => unsigned digits (List.mem_filter.2 ⟨sign, by decide⟩)⟩
  · rintro ⟨body, none⟩
    cases body with
    | short digits => exact .short digits
    | sign allowed digits => exact absurd List.mem_cons_self none
    | long digits => exact .long digits

theorem reads_unsigned_iff {s : String} : Reads false s ↔ Reads true s ∧ '+' ∉ s.toList := by
  have visible : isBlank '+' = false := by decide
  have marks : ∀ mark ∈ [[], ['0', 'x'], ['0', 'X']], '+' ∉ mark := by decide
  constructor
  · rintro ⟨body, marked, blankBefore, blankAfter⟩
    obtain ⟨body, unsigned⟩ := body_unsigned_iff.1 body
    refine ⟨.intro body marked blankBefore blankAfter, ?_⟩
    simp only [String.toList_ofList, List.mem_append, not_or]
    exact ⟨⟨fun sign => absurd (blankBefore _ sign) (by simp [visible]), marks _ marked, unsigned⟩,
      fun sign => absurd (blankAfter _ sign) (by simp [visible])⟩
  · rintro ⟨⟨body, marked, blankBefore, blankAfter⟩, none⟩
    simp only [String.toList_ofList, List.mem_append, not_or] at none
    exact .intro (body_unsigned_iff.2 ⟨body, none.1.2.2⟩) marked blankBefore blankAfter

end CanonicalUuid

/-! ## Both together -/

theorem Command.exists_uuidOf_iff {s : String} :
    (∃ u, uuidOf s = .ok u) ↔ (CanonicalUuid.parse? s).isSome = true := by
  unfold uuidOf
  cases CanonicalUuid.parse? s <;> simp

/-- How a text is read as an address and as an identifier. -/
structure TakesText (s : String) : Prop where
  address : ∀ a, Address.parse? s = some a ↔ Octets true a.bytes.toList s.toList
  /-- Without a plus sign, the texts of an address are its own text, up to letter case. -/
  unsignedAddress : ∀ a, Address.parse? s = some a ∧ '+' ∉ s.toList ↔ s.toLower = a.text.toLower
  /-- A connect command to any other text fails as one to an invalid address. -/
  noAddress : ∀ payload ms, Json.readRecord? Command.connectShape payload = some ms →
    Json.textOf? ms "address" = some s →
    (Command.peerOf payload = .error .invalidAddress ↔ ∀ a, Address.parse? s ≠ some a)
  identifier : (∃ u, Command.uuidOf s = .ok u) ↔ CanonicalUuid.Reads true s
  /-- Without a plus sign, an identifier has four digits, or 32 with any dashes among them. -/
  unsignedIdentifier : (∃ u, Command.uuidOf s = .ok u) ∧ '+' ∉ s.toList ↔
    CanonicalUuid.Reads false s
  /-- Any other text is an invalid identifier. -/
  noIdentifier : Command.uuidOf s = .error .invalidUuid ↔ ¬∃ u, Command.uuidOf s = .ok u

theorem takesText (s : String) : TakesText s where
  address a := Address.parse?_eq_some_iff
  unsignedAddress a := by
    rw [Address.parse?_eq_some_iff, ← octets_unsigned_iff, Address.octets_unsigned_iff_toLower]
  noAddress payload ms hms hs := by
    simp only [Command.peerOf, hms, hs]
    cases Address.parse? s <;> simp
  identifier := by
    rw [Command.exists_uuidOf_iff, CanonicalUuid.isSome_parse?_iff]
  unsignedIdentifier := by
    rw [Command.exists_uuidOf_iff, CanonicalUuid.isSome_parse?_iff,
      CanonicalUuid.reads_unsigned_iff]
  noIdentifier := by
    unfold Command.uuidOf
    cases CanonicalUuid.parse? s <;> simp

/-- A sign in the place of a digit is neither a digit of an address nor one of an identifier, and
both are read. -/
theorem sign_taken_for_digit :
    Address.parse? "+1:22:33:44:55:66" =
      some ⟨⟨#[0x01, 0x22, 0x33, 0x44, 0x55, 0x66], rfl⟩⟩ ∧
    "+1:22:33:44:55:66".toLower ≠
      (⟨⟨#[0x01, 0x22, 0x33, 0x44, 0x55, 0x66], rfl⟩⟩ : Address).text.toLower ∧
    Command.uuidOf "+2a9" = .ok (Uuid.short 0x02A9).canonical ∧
    ¬CanonicalUuid.Reads false "+2a9" := by
  have address : '+' ∈ "+1:22:33:44:55:66".toList := by decide
  have identifier : '+' ∈ "+2a9".toList := by decide
  refine ⟨by decide, fun same => ?_, by decide, fun reads => ?_⟩
  · have octets := Address.octets_unsigned_iff_toLower.2 same
    exact (octets_unsigned_iff.1 octets).2 address
  · exact (CanonicalUuid.reads_unsigned_iff.1 reads).2 identifier

end GattGateway
