import GattGateway.Text.Hex
import Mathlib.Data.Nat.Digits.Lemmas
import Mathlib.Tactic.Ring

/-!
# Numerals

The number that digits write, the highest first. As many digits write a number in one way only, and
bytes and their digits in base sixteen write the same one.
-/
namespace GattGateway

open Text

/-- The number that digits of a base write, the highest digit first. -/
def numeral (base : Nat) (ds : List Nat) : Nat := Nat.ofDigits base ds.reverse

@[simp] theorem numeral_nil (base : Nat) : numeral base [] = 0 := rfl

theorem numeral_cons (base d : Nat) (ds : List Nat) :
    numeral base (d :: ds) = base ^ ds.length * d + numeral base ds := by
  simp [numeral, Nat.ofDigits_append, Nat.add_comm]

/-- As many digits write a number in one way only. -/
theorem numeral_inj {base : Nat} (hb : 1 < base) {ds es : List Nat} (hl : ds.length = es.length)
    (hd : ∀ d ∈ ds, d < base) (he : ∀ e ∈ es, e < base)
    (h : numeral base ds = numeral base es) : ds = es := by
  have hr : ds.reverse = es.reverse :=
    Nat.ofDigits_inj_of_len_eq hb (by simpa using hl) (by simpa using hd) (by simpa using he) h
  exact List.reverse_injective hr

/-! ## Bytes in base sixteen -/

/-- The digits of bytes, the high half of each first. -/
def nibbles (bs : List UInt8) : List Nat := bs.flatMap fun b => [b.toNat / 16, b.toNat % 16]

theorem nibbles_cons (b : UInt8) (bs : List UInt8) :
    nibbles (b :: bs) = b.toNat / 16 :: b.toNat % 16 :: nibbles bs := rfl

theorem length_nibbles (bs : List UInt8) : (nibbles bs).length = 2 * bs.length := by
  induction bs with
  | nil => rfl
  | cons b bs ih =>
    rw [nibbles_cons, List.length_cons, List.length_cons, ih, List.length_cons]
    omega

theorem nibble_lt {bs : List UInt8} {d : Nat} (h : d ∈ nibbles bs) : d < 16 := by
  obtain ⟨b, -, hd⟩ := List.mem_flatMap.1 h
  have hb : b.toNat < 256 := b.toNat_lt
  simp only [List.mem_cons, List.not_mem_nil, or_false] at hd
  omega

/-- Bytes and their digits write the same number. -/
theorem numeral_nibbles (bs : List UInt8) :
    numeral 16 (nibbles bs) = numeral 256 (bs.map UInt8.toNat) := by
  induction bs with
  | nil => rfl
  | cons b bs ih =>
    have hp : 16 ^ (nibbles bs).length = 256 ^ bs.length := by
      rw [length_nibbles, pow_mul]
      norm_num
    simp only [nibbles_cons, numeral_cons, List.length_cons, List.map_cons, List.length_map, ih,
      pow_succ, hp]
    have hb : 16 * (b.toNat / 16) + b.toNat % 16 = b.toNat := Nat.div_add_mod b.toNat 16
    calc
      256 ^ bs.length * 16 * (b.toNat / 16) +
          (256 ^ bs.length * (b.toNat % 16) + numeral 256 (bs.map UInt8.toNat))
        = 256 ^ bs.length * (16 * (b.toNat / 16) + b.toNat % 16) +
          numeral 256 (bs.map UInt8.toNat) := by ring
      _ = 256 ^ bs.length * b.toNat + numeral 256 (bs.map UInt8.toNat) := by rw [hb]

theorem hexBytes_eq (bs : List UInt8) : hexBytes bs = (nibbles bs).map (hexDigit .lower) := by
  induction bs with
  | nil => rfl
  | cons b bs ih =>
    have hc : hexBytes (b :: bs) = hexByte .lower b ++ hexBytes bs := rfl
    rw [hc, ih, nibbles_cons]
    rfl

theorem hexWord_eq (w : UInt16) : hexWord w = hexBytes [(w >>> 8).toUInt8, w.toUInt8] := by
  simp [hexWord, hexBytes]

end GattGateway
