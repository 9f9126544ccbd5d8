import GattGateway.Proofs.Numerals
import GattGateway.Uuid

/-!
# One identifier, one canonical text

An identifier stands for a number of 128 bits. Its canonical text is this number in base sixteen, in
32 lowercase digits, and whatever a user writes for it is read as the same canonical form: the long
digits or the short ones, in any letter case, with or without the mark of a number, with dashes
among the long digits and with blanks around.
-/
namespace GattGateway

open Text

/-- The number that an identifier stands for: a short one is extended over the base identifier
`0000xxxx-0000-1000-8000-00805f9b34fb`. -/
def Uuid.number : Uuid → Nat
  | .short n => n.toNat * 2 ^ 96 + 0x0000_1000_8000_00805F9B34FB
  | .long bytes => numeral 256 (bytes.toList.map UInt8.toNat)

/-- A digit in base sixteen, in either letter case. -/
def IsDigit (d : Nat) (c : Char) : Prop :=
  d < 16 ∧ (c = hexDigit .lower d ∨ c = hexDigit .upper d)

instance (d : Nat) (c : Char) : Decidable (IsDigit d c) := inferInstanceAs (Decidable (_ ∧ _))

/-- Digits in base sixteen that write a number. -/
structure Writes (width n : Nat) (cs : List Char) : Prop where
  length : cs.length = width
  digits : ∃ ds, List.Forall₂ IsDigit ds cs ∧ numeral 16 ds = n

/-- The digits that a user may write for an identifier. -/
inductive Uuid.Spelled (u : Uuid) : List Char → Prop
  | long {cs : List Char} (digits : Writes 32 u.number (cs.filter (· ≠ '-'))) : Spelled u cs
  | short {cs : List Char} {n : UInt16} (known : (Uuid.short n).number = u.number)
      (digits : Writes 4 n.toNat cs) : Spelled u cs

/-- What a user may write for an identifier: its digits, behind at most one mark of a number and
between any blanks. -/
inductive Uuid.Spelling (u : Uuid) : String → Prop
  | intro {before mark digits after : List Char} (spelled : u.Spelled digits)
      (marked : mark ∈ [[], ['0', 'x'], ['0', 'X']]) (blankBefore : ∀ c ∈ before, isBlank c = true)
      (blankAfter : ∀ c ∈ after, isBlank c = true) :
      Spelling u (String.ofList (before ++ (mark ++ digits) ++ after))

/-! ## Digits that are read -/

theorem hexValue?_of_isDigit {d : Nat} {c : Char} (h : IsDigit d c) : hexValue? c = some d := by
  obtain ⟨hd, rfl | rfl⟩ := h
  · exact hexValue?_hexDigit .lower hd
  · exact hexValue?_hexDigit .upper hd

/-- Digits of bytes are read as these bytes, in any letter case. -/
theorem bytesOfHex?_of_digits {bs : List UInt8} {cs : List Char}
    (h : List.Forall₂ IsDigit (nibbles bs) cs) : bytesOfHex? cs = some bs := by
  induction bs generalizing cs with
  | nil =>
    cases h
    rfl
  | cons b bs ih =>
    obtain - | ⟨high, rest⟩ := h
    obtain - | ⟨low, rest⟩ := rest
    have hb : 16 * (b.toNat / 16) + b.toNat % 16 = b.toNat := Nat.div_add_mod b.toNat 16
    simp only [bytesOfHex?, hexValue?_of_isDigit high, hexValue?_of_isDigit low, ih rest, hb,
      Option.pure_def, Option.bind_eq_bind, Option.bind_some, UInt8.ofNat_toNat]

/-- Digits are read as the number that they write, behind the digits read before. -/
theorem foldlM_digits {ds : List Nat} {cs : List Char} (h : List.Forall₂ IsDigit ds cs) (n : Nat) :
    cs.foldlM (fun n c => (hexValue? c).map (16 * n + ·)) n =
      some (16 ^ ds.length * n + numeral 16 ds) := by
  induction h generalizing n with
  | nil => simp
  | @cons d c ds cs hd _ ih =>
    have hn : 16 ^ ds.length * (16 * n + d) + numeral 16 ds =
        16 ^ (ds.length + 1) * n + (16 ^ ds.length * d + numeral 16 ds) := by ring
    simp [List.foldlM_cons, hexValue?_of_isDigit hd, ih, numeral_cons, hn]

theorem hexRun?_of_digits {ds : List Nat} {cs : List Char} (h : List.Forall₂ IsDigit ds cs) :
    hexRun? cs = some (numeral 16 ds) := by
  rw [hexRun?, foldlM_digits h]
  simp

/-- A character of a spelling: a digit or a dash. -/
def IsSpelled (c : Char) : Prop := c = '-' ∨ ∃ d, IsDigit d c

theorem IsDigit.plain {d : Nat} {c : Char} (h : IsDigit d c) :
    isBlank c = false ∧ c ∉ ['x', 'X', '+', '-'] := by
  have all : ∀ d < 16, ∀ letters ∈ [LetterCase.lower, .upper],
      isBlank (hexDigit letters d) = false ∧ hexDigit letters d ∉ ['x', 'X', '+', '-'] := by
    decide
  obtain ⟨hd, rfl | rfl⟩ := h
  · exact all d hd .lower (by decide)
  · exact all d hd .upper (by decide)

/-- A character that is neither blank nor found in marks only. -/
def IsPlain (c : Char) : Prop := isBlank c = false ∧ c ≠ 'x' ∧ c ≠ 'X'

instance (c : Char) : Decidable (IsPlain c) := inferInstanceAs (Decidable (_ ∧ _))

theorem IsSpelled.plain {c : Char} (h : IsSpelled c) : IsPlain c := by
  rcases h with rfl | ⟨d, hd⟩
  · decide
  · have := hd.plain
    simp_all [IsPlain]

theorem lt_of_digits {ds : List Nat} {cs : List Char} (h : List.Forall₂ IsDigit ds cs) :
    ∀ d ∈ ds, d < 16 :=
  ((List.forall₂_and_left ds cs).1 h).1

theorem isDigit_of_forall₂ {ds : List Nat} {cs : List Char} (h : List.Forall₂ IsDigit ds cs) :
    ∀ c ∈ cs, ∃ d, IsDigit d c := by
  induction h with
  | nil => simp
  | cons hd _ ih =>
    intro c hc
    rcases List.mem_cons.1 hc with rfl | hc
    · exact ⟨_, hd⟩
    · exact ih c hc

/-! ## The number of the canonical form -/

theorem number_canonical (u : Uuid) :
    numeral 256 (u.canonical.bytes.toList.map UInt8.toNat) = u.number := by
  cases u with
  | short n =>
    have hn : n.toNat < 65536 := n.toNat_lt
    simp only [Uuid.canonical, Uuid.number, baseTail]
    simp [numeral_cons, UInt16.toNat_shiftRight, Nat.shiftRight_eq_div_pow]
    omega
  | long bytes => rfl

theorem canonical_eq_iff {u v : Uuid} : u.canonical = v.canonical ↔ u.number = v.number := by
  constructor
  · intro h
    rw [← number_canonical u, ← number_canonical v, h]
  · intro h
    rw [← number_canonical u, ← number_canonical v] at h
    have small (w : Uuid) : ∀ d ∈ w.canonical.bytes.toList.map UInt8.toNat, d < 256 := by
      intro d hd
      obtain ⟨b, -, rfl⟩ := List.mem_map.1 hd
      exact b.toNat_lt
    have hm := numeral_inj (by decide) (by simp) (small u) (small v) h
    have hl := List.map_injective_iff.2 (fun _ _ => UInt8.toNat_inj.1) hm
    exact congrArg CanonicalUuid.mk (Vector.toList_inj.1 hl)

/-! ## Reading -/

theorem trimBlank_append {before text after : List Char} (hb : ∀ c ∈ before, isBlank c = true)
    (ht : ∀ c ∈ text, isBlank c = false) (hn : text ≠ []) (ha : ∀ c ∈ after, isBlank c = true) :
    trimBlank (before ++ text ++ after) = text := by
  have hr : ∀ c ∈ after.reverse, isBlank c = true := by simpa using ha
  obtain ⟨c, cs, rfl⟩ := List.exists_cons_of_ne_nil hn
  have hc : isBlank c = false := ht c List.mem_cons_self
  have hstart : (before ++ (c :: cs) ++ after).dropWhile isBlank = c :: cs ++ after := by
    rw [List.append_assoc, List.dropWhile_append_of_pos hb]
    simp [hc]
  calc
    trimBlank (before ++ (c :: cs) ++ after) = dropBlankEnd (c :: cs ++ after) := by
      rw [trimBlank, hstart]
    _ = dropBlankEnd (c :: cs) := by
      simp [dropBlankEnd, List.dropWhile_append_of_pos hr]
    _ = trimBlank (c :: cs) := by
      rw [trimBlank, List.dropWhile_cons_of_neg (by simp [hc])]
    _ = c :: cs := trimBlank_eq_self ht

theorem Writes.spelled {width n : Nat} {cs : List Char} (h : Writes width n cs) :
    ∀ c ∈ cs, IsSpelled c := by
  obtain ⟨ds, hd, -⟩ := h.digits
  exact fun c hc => .inr (isDigit_of_forall₂ hd c hc)

theorem Uuid.Spelled.spelled {u : Uuid} {cs : List Char} (h : u.Spelled cs) :
    ∀ c ∈ cs, IsSpelled c := by
  intro c hc
  cases h with
  | long digits =>
    by_cases hd : c = '-'
    · exact .inl hd
    · exact digits.spelled c (List.mem_filter.2 ⟨hc, by simpa using hd⟩)
  | short known digits => exact digits.spelled c hc

theorem Uuid.Spelled.ne_nil {u : Uuid} {cs : List Char} (h : u.Spelled cs) : cs ≠ [] := by
  rintro rfl
  cases h with
  | long digits => cases digits.length
  | short known digits => cases digits.length

/-- The mark is all that is dropped: digits do not begin with one. -/
theorem dropMark_append {mark cs : List Char} (hm : mark ∈ [[], ['0', 'x'], ['0', 'X']])
    (hs : ∀ c ∈ cs, IsPlain c) : CanonicalUuid.dropMark (mark ++ cs) = cs := by
  simp only [List.mem_cons, List.not_mem_nil, or_false] at hm
  rcases hm with rfl | rfl | rfl
  · rw [List.nil_append]
    unfold CanonicalUuid.dropMark
    split
    · exact absurd rfl (hs 'x' (by simp)).2.1
    · exact absurd rfl (hs 'X' (by simp)).2.2
    · rfl
  · rfl
  · rfl

/-- What is left of a spelling without its blanks and its mark. -/
theorem dropMark_trimBlank {before mark digits after : List Char} (hn : digits ≠ [])
    (hs : ∀ c ∈ digits, IsPlain c) (hm : mark ∈ [[], ['0', 'x'], ['0', 'X']])
    (hb : ∀ c ∈ before, isBlank c = true) (ha : ∀ c ∈ after, isBlank c = true) :
    CanonicalUuid.dropMark (trimBlank (before ++ (mark ++ digits) ++ after)) = digits := by
  have plain : ∀ c ∈ mark ++ digits, isBlank c = false := by
    intro c hc
    rcases List.mem_append.1 hc with hc | hc
    · have marks : [[], ['0', 'x'], ['0', 'X']].all (·.all fun c => !isBlank c) = true := by decide
      simpa using List.all_eq_true.1 (List.all_eq_true.1 marks mark hm) c hc
    · exact (hs c hc).1
  rw [trimBlank_append hb plain (by simp [hn]) ha, dropMark_append hm hs]

theorem hexNumber?_of_digits {ds : List Nat} {cs : List Char} (h : List.Forall₂ IsDigit ds cs)
    (hn : cs ≠ []) : hexNumber? cs = some (numeral 16 ds) := by
  have unsigned : ∀ rest, cs ≠ '+' :: rest := by
    rintro rest rfl
    obtain ⟨d, hd⟩ := isDigit_of_forall₂ h '+' List.mem_cons_self
    exact hd.plain.2 (by decide)
  unfold hexNumber?
  split
  · exact absurd rfl hn
  · exact absurd rfl (unsigned _)
  · exact absurd rfl (unsigned _)
  · exact hexRun?_of_digits h

/-- The long digits of an identifier are those of its canonical form. -/
theorem bytesOfHex?_of_writes {u : Uuid} {cs : List Char} (h : Writes 32 u.number cs) :
    bytesOfHex? cs = some u.canonical.bytes.toList := by
  obtain ⟨ds, hd, hv⟩ := h.digits
  have same : ds = nibbles u.canonical.bytes.toList := by
    refine numeral_inj (by decide) ?_ (lt_of_digits hd) (fun _ => nibble_lt) ?_
    · rw [hd.length_eq, h.length, length_nibbles, Vector.length_toList]
    · rw [hv, numeral_nibbles, number_canonical]
  exact bytesOfHex?_of_digits (same ▸ hd)

theorem ofList?_toList (u : CanonicalUuid) : CanonicalUuid.ofList? u.bytes.toList = some u := by
  obtain ⟨⟨bytes, size⟩⟩ := u
  simp [CanonicalUuid.ofList?, Vector.toList, size]

theorem parse?_of_spelling {u : Uuid} {s : String} (h : u.Spelling s) :
    CanonicalUuid.parse? s = some u.canonical := by
  obtain @⟨before, mark, digits, after, spelled, marked, blankBefore, blankAfter⟩ := h
  have plain : ∀ c ∈ digits, IsPlain c := fun c hc => (spelled.spelled c hc).plain
  have body := dropMark_trimBlank spelled.ne_nil plain marked blankBefore blankAfter
  simp only [CanonicalUuid.parse?, String.toList_ofList, body]
  cases spelled with
  | long written =>
    have atMost := List.length_filter_le (· ≠ '-') digits
    rw [written.length] at atMost
    rw [if_neg (by omega), bytesOfHex?_of_writes written, Option.bind_some, ofList?_toList]
  | short known written =>
    obtain ⟨ds, hd, hv⟩ := written.digits
    have number := hexNumber?_of_digits hd (List.ne_nil_of_length_eq_add_one written.length)
    rw [if_pos written.length, number, hv, Option.map_some, UInt16.ofNat_toNat,
      canonical_eq_iff.2 known]

/-- The digits of bytes write the number of the bytes. -/
theorem writes_nibbles (bs : List UInt8) :
    Writes (2 * bs.length) (numeral 256 (bs.map UInt8.toNat)) (hexBytes bs) where
  length := length_hexBytes bs
  digits := by
    refine ⟨nibbles bs, ?_, numeral_nibbles bs⟩
    rw [hexBytes_eq, List.forall₂_map_right_iff, List.forall₂_same]
    exact fun d hd => ⟨nibble_lt hd, .inl rfl⟩

/-- The canonical text of an identifier is one of its spellings. -/
theorem spelling_text (u : Uuid) : u.Spelling u.canonical.text := by
  have written := writes_nibbles u.canonical.bytes.toList
  rw [number_canonical, Vector.length_toList] at written
  have undashed : (hexBytes u.canonical.bytes.toList).filter (· ≠ '-') =
      hexBytes u.canonical.bytes.toList := by
    refine List.filter_eq_self.2 fun c hc => ?_
    obtain ⟨ds, hd, -⟩ := written.digits
    obtain ⟨d, hd⟩ := isDigit_of_forall₂ hd c hc
    have := hd.plain.2
    simp_all
  have spelled : u.Spelled (hexBytes u.canonical.bytes.toList) := .long (by rwa [undashed])
  have text : u.canonical.text =
      String.ofList ([] ++ ([] ++ hexBytes u.canonical.bytes.toList) ++ []) := by
    simp [CanonicalUuid.text, hexText]
  rw [text]
  exact .intro spelled (by decide) (by simp) (by simp)

theorem text_eq_iff {u v : CanonicalUuid} : u.text = v.text ↔ u = v := by
  constructor
  · intro h
    have hb : hexBytes u.bytes.toList = hexBytes v.bytes.toList := String.ofList_injective h
    have hl := congrArg bytesOfHex? hb
    rw [bytesOfHex?_hexBytes, bytesOfHex?_hexBytes, Option.some_inj] at hl
    exact congrArg CanonicalUuid.mk (Vector.toList_inj.1 hl)
  · rintro rfl
    rfl

/-- The canonical text of an identifier is the numeral of its number in 32 lowercase digits, so that
identifiers have one text exactly if they stand for one number. Every spelling of an identifier is
read as its canonical form, and canonical text is read as it stands. -/
theorem canonical_form :
    (∀ u : Uuid, ∃ ds, u.canonical.text = String.ofList (ds.map (hexDigit .lower)) ∧
      ds.length = 32 ∧ (∀ d ∈ ds, d < 16) ∧ numeral 16 ds = u.number) ∧
    (∀ u v : Uuid, u.canonical.text = v.canonical.text ↔ u.number = v.number) ∧
    (∀ u s, Uuid.Spelling u s → CanonicalUuid.parse? s = some u.canonical) ∧
    ∀ u : CanonicalUuid, CanonicalUuid.parse? u.text = some u := by
  refine ⟨fun u => ?_, fun u v => ?_, fun u s => parse?_of_spelling, fun u => ?_⟩
  · refine ⟨nibbles u.canonical.bytes.toList, ?_, ?_, fun _ => nibble_lt, ?_⟩
    · rw [CanonicalUuid.text, hexText, hexBytes_eq]
    · rw [length_nibbles, Vector.length_toList]
    · rw [numeral_nibbles, number_canonical]
  · rw [text_eq_iff, canonical_eq_iff]
  · exact parse?_of_spelling (spelling_text (.long u.bytes))

/-- A short identifier in its long digits, with dashes, both letter cases, the mark of a number and
blanks. -/
theorem canonical_form_of_long_digits :
    (Uuid.short 0x2A9D).Spelling " 0X00002a9D--0000-1000-8000-00805F9B34fb-\u3000" ∧
      CanonicalUuid.parse? " 0X00002a9D--0000-1000-8000-00805F9B34fb-\u3000" =
        some (Uuid.short 0x2A9D).canonical := by
  have written : Writes 32 (Uuid.short 0x2A9D).number
      ("00002a9D--0000-1000-8000-00805F9B34fb-".toList.filter (· ≠ '-')) :=
    ⟨by decide, [0, 0, 0, 0, 2, 10, 9, 13, 0, 0, 0, 0, 1, 0, 0, 0, 8, 0, 0, 0, 0, 0, 8, 0, 5, 15, 9,
      11, 3, 4, 15, 11], by decide, by decide⟩
  have spelling : (Uuid.short 0x2A9D).Spelling
      (String.ofList ([' '] ++ (['0', 'X'] ++ "00002a9D--0000-1000-8000-00805F9B34fb-".toList) ++
        ['\u3000'])) :=
    .intro (.long written) (by decide) (List.forall_mem_singleton.2 (by decide))
      (List.forall_mem_singleton.2 (by decide))
  exact ⟨spelling, canonical_form.2.2.1 _ _ spelling⟩

end GattGateway
