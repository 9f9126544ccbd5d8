import GattGateway.Proofs.AcceptedTexts
import GattGateway.Proofs.Spelling
import Mathlib.Algebra.Order.BigOperators.Group.List
import Mathlib.Data.Nat.Digits.Defs
import Mathlib.Data.String.Basic

/-!
# Sizes of printed values

How many bytes a printed value takes, from the sizes of its parts. An escaped character takes at
most six times its own bytes, and every item or member takes one byte more for the mark behind it.
-/
namespace GattGateway

/-! ## Texts -/

namespace Text

theorem utf8Len_eq_length {cs : List Char} (h : ∀ c ∈ cs, c.utf8Size = 1) :
    String.utf8Len cs = cs.length := by
  induction cs with
  | nil => rfl
  | cons c cs ih =>
    rw [List.forall_mem_cons] at h
    rw [String.utf8Len_cons, ih h.2, h.1, List.length_cons]

theorem utf8Size_of_small {c : Char} (h : c.toNat < 128) : c.utf8Size = 1 :=
  Char.utf8Size_eq_one_iff.2 (UInt32.le_iff_toNat_le.2 (Nat.le_of_lt_succ h))

theorem utf8Len_fitting_le (room : Nat) (cs : List Char) :
    String.utf8Len (fitting room cs) ≤ room := by
  induction cs generalizing room with
  | nil => exact Nat.zero_le _
  | cons c cs ih =>
    unfold fitting
    split_ifs with h
    · have := ih (room - c.utf8Size)
      rw [String.utf8Len_cons]
      omega
    · exact Nat.zero_le _

/-- Digits take one byte each and stand for themselves between quotes. -/
theorem plain_of_mem_hexByte {letters : LetterCase} {b : UInt8} {c : Char}
    (h : c ∈ hexByte letters b) : c.utf8Size = 1 ∧ Json.IsLiteral c := by
  have digit : ∀ d < 16,
      (hexDigit letters d).utf8Size = 1 ∧ Json.IsLiteral (hexDigit letters d) := by
    cases letters <;> decide
  have := b.toNat_lt
  simp only [hexByte, List.mem_cons, List.not_mem_nil, or_false] at h
  rcases h with rfl | rfl
  · exact digit _ (by omega)
  · exact digit _ (by omega)

theorem plain_of_mem_hexBytes {bs : List UInt8} {c : Char} (h : c ∈ hexBytes bs) :
    c.utf8Size = 1 ∧ Json.IsLiteral c := by
  obtain ⟨b, -, hc⟩ := List.mem_flatMap.1 h
  exact plain_of_mem_hexByte hc

theorem utf8ByteSize_hexText (bs : List UInt8) : (hexText bs).utf8ByteSize = 2 * bs.length := by
  rw [hexText, String.utf8ByteSize_ofList,
    utf8Len_eq_length fun c hc => (plain_of_mem_hexBytes hc).1, length_hexBytes]

theorem literal_hexText (bs : List UInt8) : Json.Literal (hexText bs) := by
  intro c hc
  rw [hexText, String.toList_ofList] at hc
  exact (plain_of_mem_hexBytes hc).2

end Text

namespace Address

theorem plain_of_mem_pairs {bs : List UInt8} {c : Char} (h : c ∈ pairs bs) :
    c.utf8Size = 1 ∧ Json.IsLiteral c := by
  induction bs with
  | nil => cases h
  | cons b bs ih =>
    by_cases hb : bs = []
    · subst hb
      rw [pairs_singleton] at h
      exact Text.plain_of_mem_hexByte h
    · rw [pairs_cons b hb, List.mem_append, List.mem_cons] at h
      rcases h with digit | rfl | behind
      · exact Text.plain_of_mem_hexByte digit
      · decide
      · exact ih behind

theorem length_pairs {bs : List UInt8} (h : bs ≠ []) :
    (pairs bs).length + 1 = 3 * bs.length := by
  induction bs with
  | nil => exact absurd rfl h
  | cons b bs ih =>
    by_cases hb : bs = []
    · subst hb
      rw [pairs_singleton]
      rfl
    · have := ih hb
      rw [pairs_cons b hb, List.length_append, List.length_cons, List.length_cons]
      change 2 + ((pairs bs).length + 1) + 1 = _
      omega

theorem utf8ByteSize_text (a : Address) : a.text.utf8ByteSize = 17 := by
  have bytes : a.bytes.toList.length = 6 := Vector.length_toList ..
  have length := length_pairs (List.ne_nil_of_length_eq_add_one bytes)
  rw [bytes] at length
  change (String.ofList (pairs a.bytes.toList)).utf8ByteSize = 17
  rw [String.utf8ByteSize_ofList, Text.utf8Len_eq_length fun c hc => (plain_of_mem_pairs hc).1]
  exact Nat.succ.inj length

theorem literal_text (a : Address) : Json.Literal a.text := by
  intro c hc
  rw [text, String.toList_ofList] at hc
  exact (plain_of_mem_pairs hc).2

end Address

namespace Json

theorem utf8Len_escapeChar_le (c : Char) : String.utf8Len (escapeChar c) ≤ 6 * c.utf8Size := by
  by_cases h : IsLiteral c
  · rw [escapeChar_of_isLiteral h, String.utf8Len_cons, String.utf8Len_nil]
    omega
  · have escapes : ∀ n < 0x5D, String.utf8Len (escapeChar (Char.ofNat n)) ≤ 6 := by
      decide +kernel
    have six := escapes c.toNat (toNat_of_not_isLiteral h)
    rw [Char.ofNat_toNat] at six
    have := c.utf8Size_pos
    omega

theorem utf8Len_escaped_le (cs : List Char) :
    String.utf8Len (cs.flatMap escapeChar) ≤ 6 * String.utf8Len cs := by
  induction cs with
  | nil => exact Nat.le_refl _
  | cons c cs ih =>
    have := utf8Len_escapeChar_le c
    rw [List.flatMap_cons, String.utf8Len_append, String.utf8Len_cons]
    omega

theorem utf8Len_quoted (s : String) :
    String.utf8Len (quoted s) = String.utf8Len (s.toList.flatMap escapeChar) + 2 := by
  simp [quoted]
  rfl

theorem utf8Len_quoted_le (s : String) : String.utf8Len (quoted s) ≤ 6 * s.utf8ByteSize + 2 := by
  rw [utf8Len_quoted, ← String.utf8Len_toList]
  exact Nat.add_le_add_right (utf8Len_escaped_le _) _

theorem utf8Len_quoted_of_literal {s : String} (h : Literal s) :
    String.utf8Len (quoted s) = s.utf8ByteSize + 2 := by
  rw [utf8Len_quoted, flatMap_escapeChar_eq_self.2 h, String.utf8Len_toList]

/-! ## Numbers -/

theorem utf8Len_decimalDigits_le {n k : Nat} (hk : 0 < k) (h : n < 10 ^ k) :
    String.utf8Len (Text.decimalDigits n) ≤ k := by
  have digits : String.utf8Len (Text.decimalDigits n) = (Text.decimalDigits n).length := by
    refine Text.utf8Len_eq_length fun c hc => Text.utf8Size_of_small ?_
    have := (bounds_of_isDigit (digits_of_decimal n c hc)).2
    omega
  rw [digits]
  exact Nat.toDigits_length 10 n k hk h

theorem utf8Len_decimal_le {n : Int} {k : Nat} (hk : 0 < k) (h : n.natAbs < 10 ^ k) :
    String.utf8Len (decimal n) ≤ k + 1 := by
  have digits := utf8Len_decimalDigits_le hk h
  unfold decimal
  split_ifs
  · exact Nat.add_le_add digits (by decide)
  · exact digits.trans (Nat.le_succ k)

theorem utf8Len_decimal_natCast_le {n k : Nat} (hk : 0 < k) (h : n < 10 ^ k) :
    String.utf8Len (decimal n) ≤ k := by
  have positive : ¬(n : Int) < 0 := by omega
  rw [decimal, if_neg positive]
  exact utf8Len_decimalDigits_le hk h

/-! ## Values -/

/-- Bytes of the printed value. -/
def Value.size (v : Value) : Nat := String.utf8Len v.render

theorem Value.utf8ByteSize_toText (v : Value) : v.toText.utf8ByteSize = v.size :=
  String.utf8ByteSize_ofList _

@[simp] theorem Value.size_text (s : String) : (Value.text s).size = String.utf8Len (quoted s) := by
  rw [size, render]

@[simp] theorem Value.size_number (n : Int) :
    (Value.number n).size = String.utf8Len (decimal n) := by
  rw [size, render]

/-- Bytes of a member, with the marks before and behind it. -/
def memberSize (m : String × Value) : Nat := String.utf8Len (quoted m.1) + m.2.size + 2

theorem utf8Len_renderItems (vs : List Value) :
    String.utf8Len (renderItems vs) = (vs.map fun v => v.size + 1).sum := by
  induction vs with
  | nil => rfl
  | cons v vs ih =>
    rw [renderItems, String.utf8Len_append, ih]
    rfl

theorem utf8Len_renderMembers (ms : List (String × Value)) :
    String.utf8Len (renderMembers ms) = (ms.map memberSize).sum := by
  induction ms with
  | nil => rfl
  | cons m ms ih =>
    have marks : (',').utf8Size = 1 ∧ (':').utf8Size = 1 := by decide
    simp only [renderMembers, List.cons_append, String.utf8Len_cons, String.utf8Len_append, ih,
      marks, List.map_cons, List.sum_cons, memberSize, Value.size]
    omega

/-- Every item but the first is behind a comma. -/
theorem Value.size_list_le (vs : List Value) :
    (Value.list vs).size ≤ 2 + (vs.map fun v => v.size + 1).sum := by
  have marks : ('[').utf8Size = 1 ∧ (']').utf8Size = 1 := by decide
  cases vs with
  | nil => exact Nat.le_refl _
  | cons v vs =>
    simp only [size, render, List.cons_append, String.utf8Len_cons, String.utf8Len_append,
      utf8Len_renderItems, marks, List.map_cons, List.sum_cons, String.utf8Len_nil]
    omega

theorem Value.size_object {ms : List (String × Value)} (h : ms ≠ []) :
    (Value.object ms).size = 1 + (ms.map memberSize).sum := by
  have marks : ('\x7b').utf8Size = 1 ∧ ('\x7d').utf8Size = 1 ∧ (':').utf8Size = 1 := by decide
  cases ms with
  | nil => exact absurd rfl h
  | cons m ms =>
    simp only [size, render, List.cons_append, String.utf8Len_cons, String.utf8Len_append,
      utf8Len_renderMembers, marks, List.map_cons, List.sum_cons, String.utf8Len_nil, memberSize]
    omega

/-- A list of bounded length, of items of bounded size. -/
theorem Value.size_list_le_mul {vs : List Value} {n room : Nat} (hn : vs.length ≤ n)
    (h : ∀ v ∈ vs, v.size ≤ room) : (Value.list vs).size ≤ 2 + n * (room + 1) := by
  have items : (vs.map fun v => v.size + 1).sum ≤ vs.length * (room + 1) := by
    have each : ∀ k ∈ vs.map fun v => v.size + 1, k ≤ room + 1 := by
      intro k hk
      obtain ⟨v, hv, rfl⟩ := List.mem_map.1 hk
      exact Nat.succ_le_succ (h v hv)
    simpa using List.sum_le_card_nsmul _ _ each
  calc (Value.list vs).size
    _ ≤ 2 + (vs.map fun v => v.size + 1).sum := size_list_le vs
    _ ≤ 2 + vs.length * (room + 1) := Nat.add_le_add_left items 2
    _ ≤ 2 + n * (room + 1) := Nat.add_le_add_left (Nat.mul_le_mul_right _ hn) 2

theorem Value.textWithin?_eq_some {v : Value} {room : Nat} (h : v.size ≤ room) :
    v.textWithin? room = some v.toText := by
  rw [textWithin?, if_pos (v.utf8ByteSize_toText.trans_le h)]

end Json

end GattGateway
