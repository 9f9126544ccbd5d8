import GattGateway.Json.Record
import GattGateway.Json.Value
import Mathlib.Data.List.Basic

/-!
# Records written as JSON

A record is written as an object: keys and texts escaped between quotes, numbers in decimal, any
spaces between the tokens. The reader takes every such object, with every number as it was and
every text as it stands between its quotes.
-/
namespace GattGateway

open Text

/-! ## Bytes of a text -/

namespace Text

@[simp] theorem utf8_ofList (cs : List Char) :
    utf8 (String.ofList cs) = cs.flatMap String.utf8EncodeChar := by
  simp [utf8]

theorem toByteArray_utf8 (s : String) : (utf8 s).toByteArray = s.toByteArray := by
  conv_rhs => rw [← String.ofList_toList (s := s), String.toByteArray_ofList]
  rfl

theorem ofUtf8?_utf8 (s : String) : ofUtf8? (utf8 s) = some s := by
  simp only [ofUtf8?, toByteArray_utf8, String.fromUTF8?, s.isValidUTF8, dif_pos]
  rfl

/-- A byte of a character is the character itself or none that stands for a character alone. -/
theorem toNat_of_mem_utf8EncodeChar {c : Char} {b : UInt8} (h : b ∈ String.utf8EncodeChar c) :
    b.toNat = c.toNat ∨ 128 ≤ b.toNat := by
  have value : c.val.toNat = c.toNat := rfl
  simp only [String.utf8EncodeChar, value] at h
  split_ifs at h with one two three
  · left
    simp only [List.mem_singleton] at h
    simp only [h, UInt8.toNat_ofNat']
    omega
  all_goals
    right
    simp only [List.mem_cons, List.not_mem_nil, or_false] at h
    rcases h with rfl | rfl | rfl | rfl <;> simp only [UInt8.toNat_ofNat'] <;> omega

end Text

namespace Json

/-! ## Escaped texts -/

/-- What stands between the quotes of a text. -/
def escape (s : String) : String := String.ofList (s.toList.flatMap escapeChar)

/-- A character that stands for itself between quotes. -/
def IsLiteral (c : Char) : Prop := c ≠ '"' ∧ c ≠ '\\' ∧ 0x20 ≤ c.toNat

instance (c : Char) : Decidable (IsLiteral c) := inferInstanceAs (Decidable (_ ∧ _))

/-- A text without quotes, backslashes and control characters. -/
def Literal (s : String) : Prop := ∀ c ∈ s.toList, IsLiteral c

instance (s : String) : Decidable (Literal s) := List.decidableBAll _ _

/-- Only characters of one byte are escaped. -/
theorem toNat_of_not_isLiteral {c : Char} (h : ¬IsLiteral c) : c.toNat < 0x5D := by
  by_contra large
  refine h ⟨?_, ?_, by omega⟩
  · rintro rfl
    exact large (by decide)
  · rintro rfl
    exact large (by decide)

theorem escapeChar_of_isLiteral {c : Char} (h : IsLiteral c) : escapeChar c = [c] := by
  obtain ⟨quote, backslash, control⟩ := h
  have other {d : Char} (small : d.toNat < 0x20) : c ≠ d := by rintro rfl; omega
  simp only [escapeChar, quote, backslash, other (show '\x08'.toNat < 0x20 by decide),
    other (show '\t'.toNat < 0x20 by decide), other (show '\n'.toNat < 0x20 by decide),
    other (show '\x0c'.toNat < 0x20 by decide), other (show '\r'.toNat < 0x20 by decide),
    Nat.not_lt.2 control, if_false]

theorem two_le_length_escapeChar {c : Char} (h : ¬ IsLiteral c) : 2 ≤ (escapeChar c).length := by
  unfold escapeChar
  split_ifs with quote backslash _ _ _ _ _ control
  case neg => exact absurd ⟨quote, backslash, Nat.not_lt.1 control⟩ h
  all_goals simp

theorem length_le_length_escaped (cs : List Char) : cs.length ≤ (cs.flatMap escapeChar).length := by
  induction cs with
  | nil => simp
  | cons c cs ih =>
    have one : 1 ≤ (escapeChar c).length := by
      by_cases h : IsLiteral c
      · simp [escapeChar_of_isLiteral h]
      · have := two_le_length_escapeChar h
        omega
    simp only [List.flatMap_cons, List.length_append, List.length_cons]
    omega

theorem flatMap_escapeChar_eq_self {cs : List Char} :
    cs.flatMap escapeChar = cs ↔ ∀ c ∈ cs, IsLiteral c := by
  induction cs with
  | nil => simp
  | cons c cs ih =>
    rw [List.flatMap_cons, List.forall_mem_cons, ← ih]
    by_cases h : IsLiteral c
    · simp [escapeChar_of_isLiteral h, h]
    · -- one character became two or more, and no other can have become none
      have longer := two_le_length_escapeChar h
      have rest := length_le_length_escaped cs
      refine ⟨fun same => ?_, fun same => absurd same.1 h⟩
      have := congrArg List.length same
      simp only [List.length_append, List.length_cons] at this
      omega

/-- Exactly the literal texts stand for themselves. -/
theorem escape_eq_self {s : String} : escape s = s ↔ Literal s := by
  rw [Literal, ← flatMap_escapeChar_eq_self, ← String.toList_inj, escape, String.toList_ofList]

theorem escape_eq_empty {s : String} : escape s = "" ↔ s = "" := by
  have longer := length_le_length_escaped s.toList
  rw [← String.toList_inj, ← String.toList_inj, escape, String.toList_ofList]
  constructor
  · intro h
    simpa [h] using longer
  · intro h
    simp [h]

/-! ## Reading escaped texts -/

/-- Bytes that the reader takes into a text as they are, with no backslash left open. -/
def Passes (bs : Bytes) : Prop :=
  ∀ rest, spanText false (bs ++ rest) = (spanText false rest).map fun p => (bs ++ p.1, p.2)

theorem Passes.nil : Passes [] := fun rest => by simp

theorem Passes.append {as bs : Bytes} (ha : Passes as) (hb : Passes bs) : Passes (as ++ bs) := by
  intro rest
  rw [List.append_assoc, ha, hb, Option.map_map]
  simp [Function.comp_def]

theorem Passes.flatMap {cs : List Char} {f : Char → Bytes} (h : ∀ c ∈ cs, Passes (f c)) :
    Passes (cs.flatMap f) := by
  induction cs with
  | nil => exact .nil
  | cons c cs ih =>
    rw [List.forall_mem_cons] at h
    exact h.1.append (ih h.2)

theorem passes_singleton {b : UInt8} (hq : b ≠ quote) (hb : b ≠ backslash) : Passes [b] := by
  intro rest
  have plain : (b == backslash) = false := by simpa using hb
  simp [spanText, hq, plain]

theorem passes_of_plain {bs : Bytes} (h : ∀ b ∈ bs, b ≠ quote ∧ b ≠ backslash) : Passes bs := by
  induction bs with
  | nil => exact .nil
  | cons b bs ih =>
    rw [List.forall_mem_cons] at h
    exact (passes_singleton h.1.1 h.1.2).append (ih h.2)

/-- Behind a backslash any byte passes, a quote or a backslash too. -/
theorem passes_pair (b : UInt8) : Passes [backslash, b] := by
  intro rest
  have : backslash ≠ quote := by decide
  simp [spanText, this, Function.comp_def]

/-- No byte of a character that stands for itself ends a text or begins an escape. -/
theorem plain_of_isLiteral {c : Char} (h : IsLiteral c) :
    ∀ b ∈ String.utf8EncodeChar c, b ≠ quote ∧ b ≠ backslash := by
  intro b hb
  have inj {d : Char} (hd : c ≠ d) : c.toNat ≠ d.toNat := fun same => hd (Char.toNat_inj.1 same)
  have hq : c.toNat ≠ 0x22 := inj h.1
  have hs : c.toNat ≠ 0x5C := inj h.2.1
  constructor <;> rintro rfl
  · have := toNat_of_mem_utf8EncodeChar hb
    simp only [show quote.toNat = 0x22 from rfl] at this
    omega
  · have := toNat_of_mem_utf8EncodeChar hb
    simp only [show backslash.toNat = 0x5C from rfl] at this
    omega

theorem passes_literal {c : Char} (h : IsLiteral c) : Passes (String.utf8EncodeChar c) :=
  passes_of_plain (plain_of_isLiteral h)

theorem isLiteral_hexDigit {n : Nat} (h : n < 16) : IsLiteral (hexDigit .upper n) := by
  have : ∀ k < 16, IsLiteral (hexDigit .upper k) := by decide
  exact this n h

theorem passes_escapeChar (c : Char) :
    Passes ((escapeChar c).flatMap String.utf8EncodeChar) := by
  by_cases h : IsLiteral c
  · simpa [escapeChar_of_isLiteral h] using passes_literal h
  unfold escapeChar
  split_ifs with quote backslash _ _ _ _ _ control
  case neg => exact absurd ⟨quote, backslash, Nat.not_lt.1 control⟩ h
  any_goals exact passes_pair _
  -- left is a control character that has no escape of two characters
  have pair : Passes (['\\', 'u'].flatMap String.utf8EncodeChar) := passes_pair 0x75
  have digits : Passes (['0', '0', hexDigit .upper (c.toNat / 16),
      hexDigit .upper (c.toNat % 16)].flatMap String.utf8EncodeChar) := by
    refine .flatMap fun d hd => passes_literal ?_
    simp only [List.mem_cons, List.not_mem_nil, or_false] at hd
    rcases hd with rfl | rfl | rfl | rfl
    · decide
    · decide
    · exact isLiteral_hexDigit (by omega)
    · exact isLiteral_hexDigit (by omega)
  exact pair.append digits

theorem passes_escape (s : String) : Passes (utf8 (escape s)) := by
  rw [escape, utf8_ofList, List.flatMap_assoc]
  exact .flatMap fun c _ => passes_escapeChar c

theorem readText_escape (s : String) (rest : Bytes) :
    readText (utf8 (escape s) ++ quote :: rest) = some (escape s, rest) := by
  have span : spanText false (utf8 (escape s) ++ quote :: rest) = some (utf8 (escape s), rest) := by
    rw [passes_escape]
    simp [spanText]
  simp [readText, span, ofUtf8?_utf8]

/-! ## Reading spaces -/

/-- Bytes that may stand between two tokens. -/
def Blank (bs : Bytes) : Prop := ∀ b ∈ bs, isSpace b = true

theorem Blank.nil : Blank [] := List.forall_mem_nil _

theorem Blank.append {as bs : Bytes} (ha : Blank as) (hb : Blank bs) : Blank (as ++ bs) :=
  List.forall_mem_append.2 ⟨ha, hb⟩

theorem next?_blank {as : Bytes} (h : Blank as) (bs : Bytes) : next? (as ++ bs) = next? bs := by
  rw [next?, List.dropWhile_append_of_pos h, next?]

theorem next?_cons {b : UInt8} (h : isSpace b = false) (bs : Bytes) :
    next? (b :: bs) = some (b, bs) := by
  simp [next?, h]

theorem next?_blank_cons {as : Bytes} {b : UInt8} (h : Blank as) (hb : isSpace b = false)
    (bs : Bytes) : next? (as ++ b :: bs) = some (b, bs) := by
  rw [next?_blank h, next?_cons hb]

theorem isDigit_of_isSpace {b : UInt8} (h : isSpace b = true) : isDigit b = false := by
  simp only [isSpace, Bool.or_eq_true, beq_iff_eq] at h
  rcases h with ((rfl | rfl) | rfl) | rfl <;> decide

/-! ## Reading numbers -/

/-- Behind these bytes no digit of a number before them can follow. -/
def Stops (bs : Bytes) : Prop := ∀ b ∈ bs.head?, isDigit b = false

theorem Stops.nil : Stops [] := by simp [Stops]

theorem Stops.blank {as bs : Bytes} (ha : Blank as) (hb : Stops bs) : Stops (as ++ bs) := by
  cases as with
  | nil => exact hb
  | cons a as =>
    rintro b ⟨⟩
    exact isDigit_of_isSpace (ha a (by simp))

theorem Stops.takeWhile {bs : Bytes} (h : Stops bs) : bs.takeWhile isDigit = [] := by
  cases bs with
  | nil => rfl
  | cons b bs => simp [h b rfl]

theorem Stops.dropWhile {bs : Bytes} (h : Stops bs) : bs.dropWhile isDigit = bs := by
  cases bs with
  | nil => rfl
  | cons b bs => simp [h b rfl]

def digitByte (c : Char) : UInt8 := UInt8.ofNat c.toNat

theorem bounds_of_isDigit {c : Char} (h : c.isDigit = true) : 0x30 ≤ c.toNat ∧ c.toNat ≤ 0x39 := by
  simp only [Char.isDigit, Bool.and_eq_true, decide_eq_true_eq, ge_iff_le,
    UInt32.le_iff_toNat_le] at h
  exact h

theorem toNat_digitByte {c : Char} (h : c.isDigit = true) : (digitByte c).toNat = c.toNat := by
  have := (bounds_of_isDigit h).2
  rw [digitByte, UInt8.toNat_ofNat']
  omega

theorem isDigit_digitByte {c : Char} (h : c.isDigit = true) : isDigit (digitByte c) = true := by
  simp only [isDigit, Bool.and_eq_true, decide_eq_true_eq, UInt8.le_iff_toNat_le, toNat_digitByte h]
  exact bounds_of_isDigit h

theorem flatMap_digits {cs : List Char} (h : ∀ c ∈ cs, c.isDigit = true) :
    cs.flatMap String.utf8EncodeChar = cs.map digitByte := by
  induction cs with
  | nil => rfl
  | cons c cs ih =>
    rw [List.forall_mem_cons] at h
    have value : c.val.toNat = c.toNat := rfl
    have := (bounds_of_isDigit h.1).2
    rw [List.flatMap_cons, ih h.2, String.utf8EncodeChar, value, if_pos (by omega)]
    rfl

/-- Digits that are read one after the other make the number they spell. -/
theorem foldl_digits {cs : List Char} (h : ∀ c ∈ cs, c.isDigit = true) (n : Nat) :
    (cs.map digitByte).foldl (fun n d => 10 * n + (d.toNat - 0x30)) n =
      Nat.ofDigitChars 10 cs n := by
  induction cs generalizing n with
  | nil => rfl
  | cons c cs ih =>
    rw [List.forall_mem_cons] at h
    simp only [List.map_cons, List.foldl_cons, toNat_digitByte h.1, ih h.2]
    rfl

theorem digitByte_ne_zero {c : Char} (h : c.isDigit = true) (hc : c ≠ '0') :
    digitByte c ≠ 0x30 := by
  intro same
  have code := toNat_digitByte h
  rw [same] at code
  exact hc (Char.toNat_inj.1 code.symm)

theorem digits_of_decimal (n : Nat) : ∀ c ∈ decimalDigits n, c.isDigit = true := fun _ hc =>
  Nat.isDigit_of_mem_toDigits (by decide) (by decide) hc

/-- No number but zero is written with a leading zero. -/
theorem head?_decimalDigits {n : Nat} (h : n ≠ 0) : (decimalDigits n).head? ≠ some '0' := by
  induction n using Nat.strongRecOn with
  | ind n ih =>
    rw [decimalDigits, Nat.toDigits_eq_if (by decide)]
    split_ifs with small
    · have : ∀ k < 10, k ≠ 0 → k.digitChar ≠ '0' := by decide
      simpa using this n small h
    · have rest : (decimalDigits (n / 10)).head? ≠ some '0' := ih (n / 10) (by omega) (by omega)
      rwa [List.head?_append_of_ne_nil _ Nat.toDigits_ne_nil]

theorem readNumber_decimal {limit n : Nat} (h : n ≤ limit) {rest : Bytes} (hr : Stops rest) :
    readNumber limit (utf8 (Text.decimal n) ++ rest) = some (n, rest) := by
  rw [Text.decimal, utf8_ofList]
  have digits := digits_of_decimal n
  have value : Nat.ofDigitChars 10 (decimalDigits n) 0 = n :=
    Nat.ofDigitChars_toDigits (by decide) (by decide)
  rw [flatMap_digits digits]
  by_cases zero : n = 0
  · subst zero
    change readNumber limit (0x30 :: rest) = _
    rw [readNumber, next?_cons rfl]
    rfl
  have head := head?_decimalDigits zero
  cases hd : decimalDigits n with
  | nil => exact absurd hd Nat.toDigits_ne_nil
  | cons c cs =>
    rw [hd] at digits value head
    rw [← foldl_digits digits] at value
    obtain ⟨first, others⟩ := List.forall_mem_cons.1 digits
    have notSpace : isSpace (digitByte c) = false := by
      refine Bool.eq_false_iff.2 fun space => ?_
      have := isDigit_of_isSpace space
      rw [isDigit_digitByte first] at this
      contradiction
    have notZero : digitByte c ≠ 0x30 := digitByte_ne_zero first (by simpa using head)
    have others' : ∀ b ∈ cs.map digitByte, isDigit b = true := by
      simpa using fun c hc => isDigit_digitByte (others c hc)
    rw [List.map_cons, List.cons_append, readNumber, next?_cons notSpace]
    simp only [Option.bind_eq_bind, Option.bind_some, notZero, if_false, isDigit_digitByte first,
      if_true, List.takeWhile_append_of_pos others', List.dropWhile_append_of_pos others',
      hr.takeWhile, hr.dropWhile, List.append_nil]
    rw [← List.map_cons, value, if_pos h]
    rfl

/-! ## Reading values -/

/-- A value as it is printed. -/
def Scalar.bytes : Scalar → Bytes
  | .absent => utf8 "null"
  | .text s => utf8 (Value.text s).toText
  | .number n => utf8 (Value.number n).toText

/-- A value as it is read back. -/
def Scalar.escaped : Scalar → Scalar
  | .text s => .text (escape s)
  | v => v

/-- What a member of the shape may hold. -/
def Shape.Admits : Shape → Scalar → Prop
  | .text, .text _ => True
  | .optionalText, .text _ => True
  | .optionalText, .absent => True
  | .number limit, .number n => n ≤ limit
  | _, _ => False

theorem utf8_quoted (s : String) :
    utf8 (String.ofList (quoted s)) = quote :: utf8 (escape s) ++ [quote] := by
  have mark : String.utf8EncodeChar '"' = [quote] := rfl
  rw [quoted, utf8_ofList, escape, utf8_ofList, List.flatMap_append, List.flatMap_cons, mark]
  rfl

theorem utf8_member (key : String) (v : Value) :
    utf8 (String.ofList (quoted key ++ ':' :: v.render)) =
      utf8 (String.ofList (quoted key)) ++ colon :: utf8 v.toText := by
  have mark : String.utf8EncodeChar ':' = [colon] := rfl
  rw [Value.toText, utf8_ofList, utf8_ofList, utf8_ofList, List.flatMap_append, List.flatMap_cons,
    mark, List.singleton_append]

theorem Scalar.bytes_text (s : String) :
    Scalar.bytes (.text s) = quote :: utf8 (escape s) ++ [quote] := by
  rw [Scalar.bytes, Value.toText, Value.render, utf8_quoted]

theorem Scalar.bytes_number (n : Nat) : Scalar.bytes (.number n) = utf8 (Text.decimal n) := by
  have positive : ¬ ((n : Int) < 0) := by omega
  rw [Scalar.bytes, Value.toText, Value.render, Json.decimal, if_neg positive, Int.natAbs_natCast,
    Text.decimal]

theorem Shape.read_blank (shape : Shape) {as : Bytes} (h : Blank as) (bs : Bytes) :
    shape.read (as ++ bs) = shape.read bs := by
  cases shape <;> simp only [Shape.read, readNumber, next?_blank h]

theorem Shape.read_bytes {shape : Shape} {v : Scalar} (h : shape.Admits v) {rest : Bytes}
    (hr : Stops rest) : shape.read (v.bytes ++ rest) = some (v.escaped, rest) := by
  have opening (s : String) : next? (Scalar.bytes (.text s) ++ rest) =
      some (quote, utf8 (escape s) ++ quote :: rest) := by
    rw [Scalar.bytes_text, List.cons_append, List.cons_append, next?_cons rfl]
    simp
  match shape, v, h with
  | .text, .text s, _ => simp [Shape.read, opening, readText_escape, Scalar.escaped]
  | .optionalText, .text s, _ => simp [Shape.read, opening, readText_escape, Scalar.escaped]
  | .optionalText, .absent, _ =>
    have : Scalar.absent.bytes = [0x6E, 0x75, 0x6C, 0x6C] := by decide
    rw [this]
    rfl
  | .number limit, .number n, h =>
    simp [Shape.read, Scalar.bytes_number, readNumber_decimal h hr, Scalar.escaped]

/-! ## Reading members -/

/-- One member, with spaces around each of its tokens. -/
def SpellsMember (m : String × Scalar) (bs : Bytes) : Prop :=
  ∃ a b c d, Blank a ∧ Blank b ∧ Blank c ∧ Blank d ∧
    bs = a ++ utf8 (String.ofList (quoted m.1)) ++ b ++ colon :: c ++ m.2.bytes ++ d

/-- One or more members, up to the closing brace. -/
inductive SpellsMembers : List (String × Scalar) → Bytes → Prop
  | last {m : String × Scalar} {bs : Bytes} (h : SpellsMember m bs) :
      SpellsMembers [m] (bs ++ [closeBrace])
  | cons {m : String × Scalar} {ms : List (String × Scalar)} {bs rest : Bytes}
      (h : SpellsMember m bs) (hs : SpellsMembers ms rest) :
      SpellsMembers (m :: ms) (bs ++ comma :: rest)

/-- A member as it is read back. -/
def reread (m : String × Scalar) : String × Scalar := (m.1, m.2.escaped)

/-- The key stands for itself and the value is what the reader expects of it. -/
def Knows (fields : String → Option Shape) (m : String × Scalar) : Prop :=
  escape m.1 = m.1 ∧ ∃ shape ∈ fields m.1, shape.Admits m.2

theorem SpellsMember.next? {m : String × Scalar} {bs : Bytes} (h : SpellsMember m bs)
    (rest : Bytes) : ∃ tail, next? (bs ++ rest) = some (quote, tail) := by
  obtain ⟨a, b, c, d, blank, -, -, -, rfl⟩ := h
  simp only [List.append_assoc, next?_blank blank, utf8_quoted, List.cons_append]
  exact ⟨_, next?_cons rfl _⟩

theorem SpellsMembers.next? {ms : List (String × Scalar)} {bs : Bytes} (h : SpellsMembers ms bs)
    (rest : Bytes) : ∃ tail, next? (bs ++ rest) = some (quote, tail) := by
  cases h with
  | last h => simpa using h.next? _
  | cons h hs => simpa using h.next? _

theorem SpellsMembers.length_le {ms : List (String × Scalar)} {bs : Bytes}
    (h : SpellsMembers ms bs) : ms.length ≤ bs.length := by
  induction h with
  | last h => simp
  | cons h hs ih =>
    simp only [List.length_append, List.length_cons]
    omega

section Reading

variable {fields : String → Option Shape}

theorem readMembers_blank {as : Bytes} (h : Blank as) (fuel : Nat) (first : Bool) (bs : Bytes) :
    readMembers fields fuel first (as ++ bs) = readMembers fields fuel first bs := by
  cases fuel <;> simp only [readMembers, next?_blank h]

theorem readMembers_closeBrace (fuel : Nat) (first : Bool) (bs : Bytes) :
    readMembers fields (fuel + 1) first (closeBrace :: bs) = some ([], bs) := by
  simp [readMembers, next?_cons (show isSpace closeBrace = false from rfl)]

theorem readMembers_comma {bs tail : Bytes} (h : next? bs = some (quote, tail)) (fuel : Nat) :
    readMembers fields (fuel + 1) false (comma :: bs) = readMembers fields (fuel + 1) true bs := by
  have notClose : comma ≠ closeBrace := by decide
  have notClose' : quote ≠ closeBrace := by decide
  simp [readMembers, next?_cons (show isSpace comma = false from rfl), h, notClose, notClose']

theorem readMembers_member {m : String × Scalar} {bs : Bytes} (known : Knows fields m)
    (h : SpellsMember m bs) {rest : Bytes} (hr : Stops rest) (fuel : Nat) :
    readMembers fields (fuel + 1) true (bs ++ rest) =
      (readMembers fields fuel false rest).map fun p => (reread m :: p.1, p.2) := by
  obtain ⟨key, v⟩ := m
  obtain ⟨a, b, c, d, ha, hb, hc, hd, rfl⟩ := h
  obtain ⟨(literal : escape key = key), shape, (field : fields key = some shape), admits⟩ := known
  have opening (tail : Bytes) : next? (quote :: tail) = some (quote, tail) := next?_cons rfl tail
  have middle (tail : Bytes) : next? (colon :: tail) = some (colon, tail) := next?_cons rfl tail
  have text (tail : Bytes) : readText (utf8 (escape key) ++ quote :: tail) = some (key, tail) := by
    rw [readText_escape, literal]
  have value : shape.read (v.bytes ++ (d ++ rest)) = some (v.escaped, d ++ rest) :=
    Shape.read_bytes admits (.blank hd hr)
  have notClose : quote ≠ closeBrace := by decide
  simp only [readMembers, List.append_assoc, List.cons_append, List.nil_append, next?_blank ha,
    utf8_quoted, opening, Option.bind_eq_bind, Option.bind_some, notClose, if_false, if_true,
    ne_eq, not_true_eq_false, text, next?_blank hb, middle, field, Shape.read_blank shape hc, value,
    readMembers_blank hd]
  cases readMembers fields fuel false rest <;> rfl

theorem readMembers_spells {ms : List (String × Scalar)} {bs : Bytes} (h : SpellsMembers ms bs)
    (known : ∀ m ∈ ms, Knows fields m) {fuel : Nat} (enough : ms.length < fuel) (rest : Bytes) :
    readMembers fields fuel true (bs ++ rest) = some (ms.map reread, rest) := by
  induction h generalizing fuel with
  | last h =>
    obtain ⟨fuel, rfl⟩ : ∃ n, fuel = n + 2 := ⟨fuel - 2, by simp at enough; omega⟩
    have stops : Stops (closeBrace :: rest) := by rintro b ⟨⟩; rfl
    rw [List.append_assoc, List.singleton_append,
      readMembers_member (known _ (by simp)) h stops, readMembers_closeBrace]
    rfl
  | cons h hs ih =>
    obtain ⟨fuel, rfl⟩ : ∃ n, fuel = n + 2 := ⟨fuel - 2, by simp at enough; omega⟩
    rw [List.forall_mem_cons] at known
    obtain ⟨tail, next⟩ := hs.next? rest
    have stops : ∀ bs, Stops (comma :: bs) := by rintro bs b ⟨⟩; rfl
    rw [List.append_assoc, List.cons_append, readMembers_member known.1 h (stops _),
      readMembers_comma next, ih known.2 (by simp at enough; omega)]
    rfl

/-- A record as a JSON object, with spaces before and behind it. -/
def Spells (ms : List (String × Scalar)) (bs : Bytes) : Prop :=
  ∃ a body b, Blank a ∧ SpellsMembers ms body ∧ Blank b ∧ bs = a ++ openBrace :: body ++ b

/-- Every record of known members is read back, its texts escaped. -/
theorem readRecord?_spells {ms : List (String × Scalar)} {bs : Bytes} (h : Spells ms bs)
    (known : ∀ m ∈ ms, Knows fields m) (distinct : (ms.map Prod.fst).Nodup) :
    readRecord? fields bs = some (ms.map reread) := by
  obtain ⟨a, body, b, ha, members, hb, rfl⟩ := h
  have opening : next? (openBrace :: (body ++ b)) = some (openBrace, body ++ b) := next?_cons rfl _
  have spaces : b.all isSpace = true := List.all_eq_true.2 hb
  have keys : (ms.map reread).map Prod.fst = ms.map Prod.fst := by simp [reread]
  have enough : ms.length < 2 * (a ++ openBrace :: body ++ b).length + 1 := by
    have := members.length_le
    simp only [List.length_append, List.length_cons]
    omega
  rw [readRecord?, List.append_assoc, List.cons_append, next?_blank ha, opening]
  rw [List.append_assoc, List.cons_append] at enough
  simp only [Option.bind_eq_bind, Option.bind_some, ne_eq, not_true_eq_false, if_false,
    readMembers_spells members known enough, spaces, keys, distinct, and_self, if_true]
  rfl

end Reading

/-! ## Printed objects -/

/-- A member and its printed value. -/
def Prints (m : String × Scalar) (v : String × Value) : Prop :=
  m.1 = v.1 ∧ m.2.bytes = utf8 v.2.toText

theorem prints_text (key s : String) : Prints (key, .text s) (key, .text s) := ⟨rfl, rfl⟩

theorem prints_number (key : String) (n : Nat) : Prints (key, .number n) (key, .number n) :=
  ⟨rfl, rfl⟩

theorem Prints.spellsMember {m : String × Scalar} {v : String × Value} (h : Prints m v) :
    SpellsMember m (utf8 (String.ofList (quoted v.1 ++ ':' :: v.2.render))) := by
  have nothing := Blank.nil
  refine ⟨[], [], [], [], nothing, nothing, nothing, nothing, ?_⟩
  rw [utf8_member, h.1, h.2]
  simp only [List.append_nil, List.nil_append, List.append_assoc, List.cons_append]

theorem spellsMembers_render {ms : List (String × Scalar)} {vs : List (String × Value)}
    (h : List.Forall₂ Prints ms vs) {m : String × Scalar} {v : String × Value} (first : Prints m v) :
    SpellsMembers (m :: ms)
      (utf8 (String.ofList (quoted v.1 ++ ':' :: v.2.render ++ renderMembers vs ++ ['\x7d']))) := by
  have close : String.utf8EncodeChar '\x7d' = [closeBrace] := rfl
  have separator : String.utf8EncodeChar ',' = [comma] := rfl
  induction h generalizing m v with
  | nil =>
    have := SpellsMembers.last first.spellsMember
    simpa only [renderMembers, utf8_ofList, List.flatMap_append, List.flatMap_cons,
      List.flatMap_nil, close, List.append_nil] using this
  | @cons m' v' ms vs h hs ih =>
    have := SpellsMembers.cons first.spellsMember (ih h)
    simpa only [renderMembers, utf8_ofList, List.flatMap_append, List.flatMap_cons,
      List.flatMap_nil, close, separator, List.append_nil, List.append_assoc, List.cons_append,
      List.nil_append] using this

/-- The printed object is one of the ways to write its members. -/
theorem spells_object {ms : List (String × Scalar)} {vs : List (String × Value)}
    (h : List.Forall₂ Prints ms vs) (given : ms ≠ []) :
    Spells ms (utf8 (Value.object vs).toText) := by
  cases h with
  | nil => exact absurd rfl given
  | @cons m v ms vs h hs =>
    have nothing := Blank.nil
    have opening : String.utf8EncodeChar '\x7b' = [openBrace] := rfl
    refine ⟨[], _, [], nothing, spellsMembers_render hs h, nothing, ?_⟩
    simp only [Value.toText, Value.render, utf8_ofList, List.flatMap_append, List.flatMap_cons,
      opening, List.append_nil, List.nil_append, List.cons_append, List.append_assoc]

end Json

end GattGateway
