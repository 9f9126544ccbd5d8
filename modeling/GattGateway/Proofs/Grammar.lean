import GattGateway.Proofs.AcceptedTexts
import GattGateway.Proofs.Spelling

/-!
# Which bytes are JSON

Values as bytes, in two readings: by the standard, and as loosely as the reader steps over values
that it has no use for. Both are the same inductive definition with different rules for the inside
of texts, for numbers and words, and for lists. What the standard allows is allowed loosely as well.
-/
namespace GattGateway.Json

open Text (Bytes utf8)

/-! ## Layout -/

instance (bs : Bytes) : Decidable (Blank bs) := List.decidableBAll _ _

/-- A text as it stands between its quotes, with the quotes. -/
def between (s : String) : Bytes := quote :: utf8 s ++ [quote]

/-- A member, its value as it stands, with spaces around each of its tokens. -/
def LaysMember (m : String × Bytes) (bs : Bytes) : Prop :=
  ∃ a b c d, Blank a ∧ Blank b ∧ Blank c ∧ Blank d ∧
    bs = a ++ between m.1 ++ b ++ colon :: c ++ m.2 ++ d

/-- One or more members with commas between them. -/
inductive LaysMembers : List (String × Bytes) → Bytes → Prop
  | last {m : String × Bytes} {bs : Bytes} (h : LaysMember m bs) : LaysMembers [m] bs
  | cons {m : String × Bytes} {ms : List (String × Bytes)} {bs rest : Bytes}
      (h : LaysMember m bs) (hs : LaysMembers ms rest) : LaysMembers (m :: ms) (bs ++ comma :: rest)

/-- An object with its members. -/
inductive LaysObject : List (String × Bytes) → Bytes → Prop
  | empty {a : Bytes} (h : Blank a) : LaysObject [] (openBrace :: a ++ [closeBrace])
  | filled {ms : List (String × Bytes)} {bs : Bytes} (h : LaysMembers ms bs) :
      LaysObject ms (openBrace :: bs ++ [closeBrace])

/-! ## Values -/

/-- What the two readings of JSON differ in. -/
structure Rules where
  /-- What stands between quotes. -/
  text : String → Prop
  /-- Numbers and words. -/
  bare : Bytes → Prop
  /-- Items between brackets. -/
  items : List Bytes → Bytes → Prop

/-- The values by some rules, texts, numbers, words, lists and objects of any depth. -/
inductive Rules.Value (r : Rules) : Bytes → Prop
  | text {s : String} (h : r.text s) : r.Value (between s)
  | bare {v : Bytes} (h : r.bare v) : r.Value v
  | list {vs : List Bytes} {bs : Bytes} (layout : r.items vs bs) (each : ∀ v ∈ vs, r.Value v) :
      r.Value (openBracket :: bs ++ [closeBracket])
  | object {ms : List (String × Bytes)} {bs : Bytes} (layout : LaysObject ms bs)
      (keys : ∀ m ∈ ms, r.text m.1) (each : ∀ m ∈ ms, r.Value m.2) : r.Value bs

/-- The bytes begin with an object of these members, by some rules, with spaces before it and the
rest behind it. -/
def Rules.Opens (r : Rules) (ms : List (String × Bytes)) (bs rest : Bytes) : Prop :=
  ∃ a object, Blank a ∧ LaysObject ms object ∧ (∀ m ∈ ms, r.text m.1) ∧ (∀ m ∈ ms, r.Value m.2) ∧
    bs = a ++ object ++ rest

theorem Rules.Opens.append {r : Rules} {ms : List (String × Bytes)} {bs rest : Bytes}
    (h : r.Opens ms bs rest) (tail : Bytes) : r.Opens ms (bs ++ tail) (rest ++ tail) := by
  obtain ⟨a, object, blank, layout, keys, each, rfl⟩ := h
  exact ⟨a, object, blank, layout, keys, each, by simp⟩

/-- Behind spaces there is a brace. -/
theorem Rules.Opens.next? {r : Rules} {ms : List (String × Bytes)} {bs rest : Bytes}
    (h : r.Opens ms bs rest) : ∃ tail, next? bs = some (openBrace, tail) := by
  obtain ⟨a, object, blank, layout, -, -, rfl⟩ := h
  simp only [List.append_assoc, next?_blank blank]
  cases layout <;> exact ⟨_, next?_cons rfl _⟩

/-- What one set of rules allows is allowed by another. -/
structure Rules.Within (r r' : Rules) : Prop where
  text : ∀ {s}, r.text s → r'.text s
  bare : ∀ {v}, r.bare v → r'.bare v
  items : ∀ {vs bs}, r.items vs bs → r'.items vs bs

theorem Rules.Value.within {r r' : Rules} (sub : r.Within r') {v : Bytes} (h : r.Value v) :
    r'.Value v := by
  induction h with
  | text h => exact .text (sub.text h)
  | bare h => exact .bare (sub.bare h)
  | list layout each ih => exact .list (sub.items layout) ih
  | object layout keys each ih => exact .object layout (fun m hm => sub.text (keys m hm)) ih

theorem Rules.Opens.within {r r' : Rules} (sub : r.Within r') {ms : List (String × Bytes)}
    {bs rest : Bytes} (h : r.Opens ms bs rest) : r'.Opens ms bs rest := by
  obtain ⟨a, object, blank, layout, keys, each, rfl⟩ := h
  exact ⟨a, object, blank, layout, fun m hm => sub.text (keys m hm),
    fun m hm => (each m hm).within sub, rfl⟩

/-! ## By the standard -/

/-- What stands between quotes: characters that stand for themselves, and escapes. -/
inductive IsEscaped : List Char → Prop
  | nil : IsEscaped []
  | plain {c : Char} {cs : List Char} (h : IsLiteral c) (hs : IsEscaped cs) : IsEscaped (c :: cs)
  | mark {c : Char} {cs : List Char} (h : c ∈ ['"', '\\', '/', 'b', 'f', 'n', 'r', 't'])
      (hs : IsEscaped cs) : IsEscaped ('\\' :: c :: cs)
  | code {digits cs : List Char} (length : digits.length = 4)
      (h : ∀ c ∈ digits, Text.isHexDigit c = true) (hs : IsEscaped cs) :
      IsEscaped ('\\' :: 'u' :: digits ++ cs)

theorem isEscaped_of_literal {s : String} (h : Literal s) : IsEscaped s.toList := by
  unfold Literal at h
  generalize s.toList = cs at h
  induction cs with
  | nil => exact .nil
  | cons c cs ih =>
    rw [List.forall_mem_cons] at h
    exact .plain h.1 (ih h.2)

/-- One or more digits. -/
def Digits (bs : Bytes) : Prop := bs ≠ [] ∧ ∀ b ∈ bs, isDigit b = true

instance (bs : Bytes) : Decidable (Digits bs) := inferInstanceAs (Decidable (_ ∧ _))

/-- A number: a sign, digits without a leading zero, a fraction and an exponent. Only the digits
before the fraction have to be there. -/
def IsNumber (bs : Bytes) : Prop :=
  ∃ sign whole fraction exponent, bs = sign ++ whole ++ fraction ++ exponent ∧
    (sign = [] ∨ sign = utf8 "-") ∧
    (whole = utf8 "0" ∨ Digits whole ∧ whole.head? ≠ some 0x30) ∧
    (fraction = [] ∨ ∃ ds, Digits ds ∧ fraction = utf8 "." ++ ds) ∧
    (exponent = [] ∨ ∃ e sign ds, e ∈ ["e", "E"].map utf8 ∧ sign ∈ ["", "+", "-"].map utf8 ∧
      Digits ds ∧ exponent = e ++ sign ++ ds)

/-- One or more items with commas between them. -/
inductive LaysItems : List Bytes → Bytes → Prop
  | last {a b v : Bytes} (ha : Blank a) (hb : Blank b) : LaysItems [v] (a ++ v ++ b)
  | cons {a b v rest : Bytes} {vs : List Bytes} (ha : Blank a) (hb : Blank b)
      (hs : LaysItems vs rest) : LaysItems (v :: vs) (a ++ v ++ b ++ comma :: rest)

def standard : Rules where
  text s := IsEscaped s.toList
  bare v := IsNumber v ∨ v ∈ ["true", "false", "null"].map utf8
  items vs bs := (vs = [] ∧ Blank bs) ∨ LaysItems vs bs

/-! ## Loosely -/

/-- Plain bytes, and any byte behind a backslash. -/
inductive IsInner : Bytes → Prop
  | nil : IsInner []
  | plain {b : UInt8} {bs : Bytes} (hq : b ≠ quote) (hb : b ≠ backslash) (hs : IsInner bs) :
      IsInner (b :: bs)
  | pair (b : UInt8) {bs : Bytes} (hs : IsInner bs) : IsInner (backslash :: b :: bs)

/-- A byte that can open a value which is no text, no list and no object. -/
def opensBare (b : UInt8) : Bool :=
  !isSpace b && !isDelimiter b && b != quote && b != openBrace && b != openBracket

/-- Whatever ends at a delimiter, without the spaces before it. -/
structure IsBare (v : Bytes) : Prop where
  opens : ∃ b bs, v = b :: bs ∧ opensBare b = true
  plain : ∀ b ∈ v, isDelimiter b = false
  closes : ∀ b ∈ v.getLast?, isSpace b = false

/-- The next byte that is no space ends what is bare. -/
def Delimited (bs : Bytes) : Prop := ∃ b rest, next? bs = some (b, rest) ∧ isDelimiter b = true

/-- Items up to the closing bracket. Every item is behind a comma, the first one too if it likes,
and one item need not be. What is bare has to be delimited. -/
inductive SkimsItems : Bool → List Bytes → Bytes → Prop
  | nil {first : Bool} {a : Bytes} (ha : Blank a) : SkimsItems first [] (a ++ [closeBracket])
  | comma {first : Bool} {a b v rest : Bytes} {vs : List Bytes} (ha : Blank a) (hb : Blank b)
      (bare : IsBare v → Delimited rest) (hs : SkimsItems first vs rest) :
      SkimsItems first (v :: vs) (a ++ comma :: b ++ v ++ rest)
  | first {a v rest : Bytes} {vs : List Bytes} (ha : Blank a) (bare : IsBare v → Delimited rest)
      (hs : SkimsItems false vs rest) : SkimsItems true (v :: vs) (a ++ v ++ rest)

def loose : Rules where
  text s := IsInner (utf8 s)
  bare := IsBare
  items vs bs := SkimsItems true vs (bs ++ [closeBracket])

/-! ## The standard is within the loose reading -/

theorem IsInner.append {as bs : Bytes} (ha : IsInner as) (hb : IsInner bs) :
    IsInner (as ++ bs) := by
  induction ha with
  | nil => exact hb
  | plain hq hs _ ih => exact .plain hq hs ih
  | pair b _ ih => exact .pair b ih

theorem IsInner.of_plain {bs : Bytes} (h : ∀ b ∈ bs, b ≠ quote ∧ b ≠ backslash) : IsInner bs := by
  induction bs with
  | nil => exact .nil
  | cons b bs ih =>
    rw [List.forall_mem_cons] at h
    exact .plain h.1.1 h.1.2 (ih h.2)

theorem isLiteral_of_isHexDigit {c : Char} (h : Text.isHexDigit c = true) : IsLiteral c := by
  obtain ⟨d, hd⟩ := Option.isSome_iff_exists.1 h
  exact forall_small (P := fun c => Text.isHexDigit c = true → IsLiteral c) (by decide +kernel)
    (bounds_of_hexValue? hd).1 h

theorem isInner_of_isEscaped {cs : List Char} (h : IsEscaped cs) :
    IsInner (cs.flatMap String.utf8EncodeChar) := by
  induction h with
  | nil => exact .nil
  | plain h _ ih =>
    rw [List.flatMap_cons]
    exact (IsInner.of_plain (plain_of_isLiteral h)).append ih
  | @mark c cs h _ ih =>
    obtain ⟨b, hb⟩ : ∃ b, String.utf8EncodeChar c = [b] := by
      simp only [List.mem_cons, List.not_mem_nil, or_false] at h
      rcases h with rfl | rfl | rfl | rfl | rfl | rfl | rfl | rfl <;> exact ⟨_, rfl⟩
    rw [List.flatMap_cons, List.flatMap_cons, hb]
    exact .pair b ih
  | @code digits cs _ h _ ih =>
    have inner : IsInner (digits.flatMap String.utf8EncodeChar) := by
      refine .of_plain fun b hb => ?_
      obtain ⟨c, hc, hb⟩ := List.mem_flatMap.1 hb
      exact plain_of_isLiteral (isLiteral_of_isHexDigit (h c hc)) b hb
    rw [List.cons_append, List.cons_append, List.flatMap_cons, List.flatMap_cons,
      List.flatMap_append]
    exact .pair _ (inner.append ih)

theorem forall_byte {P : UInt8 → Prop} (h : ∀ n < 256, P (UInt8.ofNat n)) (b : UInt8) : P b := by
  have := h b.toNat b.toNat_lt
  rwa [UInt8.ofNat_toNat] at this

theorem opensBare_of_isDigit {b : UInt8} : isDigit b = true → opensBare b = true :=
  forall_byte (P := fun b => isDigit b = true → opensBare b = true) (by decide +kernel) b

theorem not_isSpace_of_opensBare {b : UInt8} : opensBare b = true → isSpace b = false := by
  simp only [opensBare, Bool.and_eq_true, Bool.not_eq_true']
  exact fun h => h.1.1.1.1

theorem not_isDelimiter_of_opensBare {b : UInt8} : opensBare b = true → isDelimiter b = false := by
  simp only [opensBare, Bool.and_eq_true, Bool.not_eq_true']
  exact fun h => h.1.1.1.2

theorem ne_of_opensBare {b : UInt8} (h : opensBare b = true) :
    b ≠ quote ∧ b ≠ openBrace ∧ b ≠ openBracket := by
  simp only [opensBare, Bool.and_eq_true, bne_iff_ne] at h
  exact ⟨h.1.1.2, h.1.2, h.2⟩

theorem ne_of_not_isDelimiter {b d : UInt8} (hb : isDelimiter b = false)
    (hd : isDelimiter d = true) : b ≠ d := by
  rintro rfl
  simp [hb] at hd

/-- Where every byte could open a bare value, none of them ends it. -/
theorem IsBare.of_all {v : Bytes} (filled : v ≠ []) (h : ∀ b ∈ v, opensBare b = true) :
    IsBare v where
  opens := by
    obtain ⟨b, bs, rfl⟩ := List.exists_cons_of_ne_nil filled
    exact ⟨b, bs, rfl, h b List.mem_cons_self⟩
  plain b hb := not_isDelimiter_of_opensBare (h b hb)
  closes b hb := not_isSpace_of_opensBare (h b (List.mem_of_getLast? hb))

theorem isBare_of_digits {v : Bytes} (h : Digits v) : IsBare v :=
  .of_all h.1 fun b hb => opensBare_of_isDigit (h.2 b hb)

theorem isBare_of_isNumber {v : Bytes} (h : IsNumber v) : IsBare v := by
  obtain ⟨sign, whole, fraction, exponent, rfl, hs, hw, hf, he⟩ := h
  have digits {ds : Bytes} (h : Digits ds) : ∀ b ∈ ds, opensBare b = true := fun b hb =>
    opensBare_of_isDigit (h.2 b hb)
  have signs : ∀ sign ∈ ["", "+", "-"].map utf8, ∀ b ∈ sign, opensBare b = true := by
    decide +kernel
  have letters : ∀ e ∈ ["e", "E"].map utf8, ∀ b ∈ e, opensBare b = true := by decide +kernel
  have point : ∀ b ∈ utf8 ".", opensBare b = true := by decide +kernel
  have zero : utf8 "0" ≠ [] ∧ ∀ b ∈ utf8 "0", opensBare b = true := by decide +kernel
  have sign : ∀ b ∈ sign, opensBare b = true := by
    rcases hs with rfl | rfl
    · exact nofun
    · exact signs _ (List.mem_map_of_mem (by simp))
  have whole : whole ≠ [] ∧ ∀ b ∈ whole, opensBare b = true := by
    rcases hw with rfl | ⟨hw, -⟩
    · exact zero
    · exact ⟨hw.1, digits hw⟩
  have fraction : ∀ b ∈ fraction, opensBare b = true := by
    rcases hf with rfl | ⟨ds, hds, rfl⟩
    · exact nofun
    · exact List.forall_mem_append.2 ⟨point, digits hds⟩
  have exponent : ∀ b ∈ exponent, opensBare b = true := by
    rcases he with rfl | ⟨e, sign, ds, he, hsign, hds, rfl⟩
    · exact nofun
    · exact List.forall_mem_append.2
        ⟨List.forall_mem_append.2 ⟨letters e he, signs sign hsign⟩, digits hds⟩
  refine .of_all (by simp [whole.1]) ?_
  exact List.forall_mem_append.2 ⟨List.forall_mem_append.2
    ⟨List.forall_mem_append.2 ⟨sign, whole.2⟩, fraction⟩, exponent⟩

theorem isBare_of_mem_words {v : Bytes} (h : v ∈ ["true", "false", "null"].map utf8) :
    IsBare v := by
  have words : ∀ v ∈ ["true", "false", "null"].map utf8, v ≠ [] ∧ ∀ b ∈ v, opensBare b = true := by
    decide +kernel
  exact .of_all (words v h).1 (words v h).2

theorem Delimited.of_cons {bs : Bytes} {b : UInt8} (hs : isSpace b = false)
    (hd : isDelimiter b = true) : Delimited (b :: bs) := ⟨b, bs, next?_cons hs bs, hd⟩

theorem Delimited.blank {as bs : Bytes} (ha : Blank as) (h : Delimited bs) :
    Delimited (as ++ bs) := by
  simpa only [Delimited, next?_blank ha] using h

theorem SkimsItems.blank {first : Bool} {vs : List Bytes} {a bs : Bytes} (ha : Blank a)
    (h : SkimsItems first vs bs) : SkimsItems first vs (a ++ bs) := by
  cases h with
  | nil ha' => simpa using SkimsItems.nil (ha.append ha')
  | comma ha' hb bare hs => simpa using SkimsItems.comma (ha.append ha') hb bare hs
  | first ha' bare hs => simpa using SkimsItems.first (ha.append ha') bare hs

theorem skimsItems_of_laysItems {vs : List Bytes} {bs : Bytes} (h : LaysItems vs bs) :
    SkimsItems true vs (bs ++ [closeBracket]) ∧
      SkimsItems false vs (comma :: (bs ++ [closeBracket])) := by
  have nothing := Blank.nil
  induction h with
  | @last a b v ha hb =>
    have closed : Delimited (b ++ [closeBracket]) := (Delimited.of_cons rfl rfl).blank hb
    exact ⟨by simpa using SkimsItems.first ha (v := v) (fun _ => closed) (.nil hb),
      by simpa using SkimsItems.comma nothing ha (v := v) (fun _ => closed) (.nil hb)⟩
  | @cons a b v rest vs ha hb hs ih =>
    have closed : Delimited (b ++ comma :: (rest ++ [closeBracket])) :=
      (Delimited.of_cons rfl rfl).blank hb
    have tail := ih.2.blank hb
    exact ⟨by simpa using SkimsItems.first ha (v := v) (fun _ => closed) tail,
      by simpa using SkimsItems.comma nothing ha (v := v) (fun _ => closed) tail⟩

theorem standard_within_loose : standard.Within loose where
  text h := by
    exact isInner_of_isEscaped h
  bare h := h.elim isBare_of_isNumber isBare_of_mem_words
  items h := by
    rcases h with ⟨rfl, blank⟩ | layout
    · exact .nil blank
    · exact (skimsItems_of_laysItems layout).1

end GattGateway.Json
