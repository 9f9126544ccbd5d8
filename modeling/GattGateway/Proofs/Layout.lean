import GattGateway.Advert.Structure
import Mathlib.Data.List.Basic
import Mathlib.Tactic.Common

/-!
# Layouts of payloads

A payload is written from entries, each with its length before it, and from a tail that ends the
row. Every payload has one such layout, and its structures are read off it. The walk by offsets,
with each index looked up only within the payload, comes to the same structures.
-/
namespace GattGateway.Advert

open Text (Bytes)

/-- A type and a value that one length byte can count. -/
structure Entry where
  type : UInt8
  value : Bytes
  fits : value.length ≤ 254
  deriving DecidableEq, Repr

namespace Entry

def bytes (e : Entry) : Bytes := UInt8.ofNat (e.value.length + 1) :: e.type :: e.value

def decoded (e : Entry) : Structure := .decode e.type e.value

end Entry

/-- What may stand behind the last entry. -/
inductive Tail
  | empty
  | lone (len : UInt8) (more : len ≠ 0)
  | zero (rest : Bytes)
  | cut (len type : UInt8) (value : Bytes) (short : value.length + 1 < len.toNat)
  deriving DecidableEq, Repr

namespace Tail

def bytes : Tail → Bytes
  | empty => []
  | lone len _ => [len]
  | zero rest => 0 :: rest
  | cut len type value _ => len :: type :: value

/-- Only an entry that is cut short still says something. -/
def decoded : Tail → List Structure
  | cut _ type value _ => [.decode type value]
  | _ => []

end Tail

structure Layout where
  entries : List Entry
  tail : Tail
  deriving DecidableEq, Repr

namespace Layout

def bytes (l : Layout) : Bytes := l.entries.flatMap Entry.bytes ++ l.tail.bytes

def decoded (l : Layout) : List Structure := l.entries.map Entry.decoded ++ l.tail.decoded

def cons (e : Entry) (l : Layout) : Layout := ⟨e :: l.entries, l.tail⟩

@[simp] theorem bytes_cons (e : Entry) (l : Layout) : (cons e l).bytes = e.bytes ++ l.bytes := by
  simp [bytes, cons]

end Layout

theorem Entry.toNat_length (e : Entry) :
    (UInt8.ofNat (e.value.length + 1)).toNat = e.value.length + 1 :=
  UInt8.toNat_ofNat_of_lt' (Nat.lt_of_le_of_lt (Nat.succ_le_succ e.fits) (by decide))

theorem Entry.length_ne_zero (e : Entry) : UInt8.ofNat (e.value.length + 1) ≠ 0 := by
  intro h
  have : e.value.length + 1 = 0 := by rw [← e.toNat_length, h]; rfl
  omega

/-! ## Reading a layout -/

theorem structures_append (e : Entry) (rest : Bytes) :
    structures (e.bytes ++ rest) = e.decoded :: structures rest := by
  rw [Entry.bytes, List.cons_append, List.cons_append, structures, if_neg e.length_ne_zero,
    e.toNat_length, Nat.add_sub_cancel, List.take_left, List.drop_left, Entry.decoded]

theorem structures_tail (t : Tail) : structures t.bytes = t.decoded := by
  cases t with
  | empty => simp [Tail.bytes, Tail.decoded, structures]
  | lone len more => simp [Tail.bytes, Tail.decoded, structures]
  | zero rest => cases rest <;> simp [Tail.bytes, Tail.decoded, structures]
  | cut len type value short =>
    have hne : len ≠ 0 := by rintro rfl; exact absurd short (by simp)
    have hlong : value.length ≤ len.toNat - 1 := by omega
    rw [Tail.bytes, structures, if_neg hne, List.take_of_length_le hlong,
      List.drop_of_length_le hlong, structures, Tail.decoded]

theorem Layout.structures_bytes (l : Layout) : structures l.bytes = l.decoded := by
  obtain ⟨entries, tail⟩ := l
  induction entries with
  | nil => exact structures_tail tail
  | cons e entries ih =>
    calc structures (Layout.cons e ⟨entries, tail⟩).bytes
      _ = e.decoded :: structures (Layout.mk entries tail).bytes := by
          rw [bytes_cons, structures_append]
      _ = e.decoded :: (Layout.mk entries tail).decoded := by rw [ih]

/-! ## Finding the layout -/

theorem toNat_pos {len : UInt8} (h : len ≠ 0) : 0 < len.toNat :=
  Nat.pos_of_ne_zero fun hzero => h (UInt8.toNat_inj.mp hzero)

theorem length_take_pred (len : UInt8) (rest : Bytes) :
    (rest.take (len.toNat - 1)).length ≤ 254 := by
  have := len.toNat_lt
  rw [List.length_take]
  omega

/-- The layout of a payload. -/
def layout : Bytes → Layout
  | [] => ⟨[], .empty⟩
  | [len] => if h : len = 0 then ⟨[], .zero []⟩ else ⟨[], .lone len h⟩
  | len :: type :: rest =>
    if len = 0 then ⟨[], .zero (type :: rest)⟩
    else if h : rest.length + 1 < len.toNat then ⟨[], .cut len type rest h⟩
    else
      .cons ⟨type, rest.take (len.toNat - 1), length_take_pred len rest⟩
        (layout (rest.drop (len.toNat - 1)))
  termination_by bs => bs.length
  decreasing_by simp only [List.length_drop, List.length_cons]; omega

theorem layout_append (e : Entry) (rest : Bytes) :
    layout (e.bytes ++ rest) = .cons e (layout rest) := by
  have hlong : ¬(e.value ++ rest).length + 1 < e.value.length + 1 := by
    rw [List.length_append]; omega
  rw [Entry.bytes, List.cons_append, List.cons_append, layout, if_neg e.length_ne_zero]
  simp only [e.toNat_length, dif_neg hlong, Nat.add_sub_cancel, List.take_left, List.drop_left]

theorem layout_tail (t : Tail) : layout t.bytes = ⟨[], t⟩ := by
  cases t with
  | empty => simp [Tail.bytes, layout]
  | lone len more => simp [Tail.bytes, layout, more]
  | zero rest => cases rest <;> simp [Tail.bytes, layout]
  | cut len type value short =>
    have hne : len ≠ 0 := by rintro rfl; exact absurd short (by simp)
    rw [Tail.bytes, layout, if_neg hne, dif_pos short]

theorem layout_bytes (l : Layout) : layout l.bytes = l := by
  obtain ⟨entries, tail⟩ := l
  induction entries with
  | nil => exact layout_tail tail
  | cons e entries ih =>
    calc layout (Layout.cons e ⟨entries, tail⟩).bytes
      _ = .cons e (layout (Layout.mk entries tail).bytes) := by
          rw [Layout.bytes_cons, layout_append]
      _ = .cons e ⟨entries, tail⟩ := by rw [ih]

theorem bytes_layout (bs : Bytes) : (layout bs).bytes = bs := by
  fun_induction layout bs with
  | case1 => rfl
  | case2 => rfl
  | case3 len h => simp [Layout.bytes, Tail.bytes]
  | case4 type rest => simp [Layout.bytes, Tail.bytes]
  | case5 len type rest _ h => simp [Layout.bytes, Tail.bytes]
  | case6 len type rest hne hlong ih =>
    have hlen : 0 < len.toNat := toNat_pos hne
    have htake : (rest.take (len.toNat - 1)).length + 1 = len.toNat := by
      rw [List.length_take]; omega
    rw [Layout.bytes_cons, ih, Entry.bytes, htake, UInt8.ofNat_toNat]
    simp

theorem existsUnique_layout (bs : Bytes) : ∃! l : Layout, l.bytes = bs :=
  ⟨layout bs, bytes_layout bs, fun l h => by rw [← h, layout_bytes]⟩

/-! ## Walking by offsets -/

/-- The bytes from one offset to another, if both stand in order within the payload. -/
def slice? (data : Bytes) (first last : Nat) : Option Bytes :=
  if first ≤ last ∧ last ≤ data.length then some ((data.drop first).take (last - first)) else none

/-- The structure at an offset, if one is left, and the offset behind it. There is no result at
all if a byte were read outside the payload. -/
def next? (data : Bytes) (i : Nat) : Option (Option Structure × Nat) :=
  if data.length ≤ i then some (none, i)
  else do
    let len ← data[i]?
    if len = 0 ∨ data.length ≤ i + 1 then
      return (none, data.length)
    let type ← data[i + 1]?
    let value ← slice? data (i + 2) (min (i + 1 + len.toNat) data.length)
    return (some (.decode type value), i + len.toNat + 1)

/-- The structures found from an offset on within a number of calls. -/
def walk? (data : Bytes) : Nat → Nat → Option (List Structure)
  | 0, _ => none
  | calls + 1, i =>
    match next? data i with
    | none => none
    | some (none, _) => some []
    | some (some s, j) => (walk? data calls j).map (s :: ·)

/-- One step of the walk reads what stands at its offset. -/
theorem next?_eq (data : Bytes) (i : Nat) :
    ∃ j, next? data i = some
      (match data.drop i with
        | len :: type :: rest =>
          if len = 0 then (none, j)
          else (some (.decode type (rest.take (len.toNat - 1))), i + len.toNat + 1)
        | _ => (none, j)) := by
  unfold next?
  have hlen : (data.drop i).length = data.length - i := List.length_drop
  have hat (k : Nat) : data[i + k]? = (data.drop i)[k]? := by rw [List.getElem?_drop]
  match h : data.drop i with
  | [] =>
    rw [h, List.length_nil] at hlen
    exact ⟨i, by rw [if_pos (by omega)]⟩
  | [len] =>
    rw [h, List.length_singleton] at hlen
    refine ⟨data.length, ?_⟩
    have hread : data[i]? = some len := by simpa [h] using hat 0
    rw [if_neg (by omega), hread]
    simp [show data.length ≤ i + 1 by omega]
  | len :: type :: rest =>
    rw [h, List.length_cons, List.length_cons] at hlen
    refine ⟨data.length, ?_⟩
    have hread : data[i]? = some len := by simpa [h] using hat 0
    have htype : data[i + 1]? = some type := by simpa [h] using hat 1
    rw [if_neg (by omega), hread]
    by_cases hzero : len = 0
    · simp [hzero]
    · have hpos : 0 < len.toNat := toNat_pos hzero
      have hrest : data.drop (i + 2) = rest := by rw [← List.drop_drop, h]; rfl
      have hvalue : slice? data (i + 2) (min (i + 1 + len.toNat) data.length)
          = some (rest.take (len.toNat - 1)) := by
        rw [slice?, if_pos (by omega), hrest]
        congr 1
        rw [List.take_eq_take_iff]
        omega
      simp [hzero, htype, hvalue, show ¬data.length ≤ i + 1 by omega]

/-- Each step that yields a structure takes two bytes at least, so the walk is over within half as
many steps as there are bytes. -/
theorem walk?_eq (data : Bytes) {calls i : Nat} (h : (data.length - i) / 2 < calls) :
    walk? data calls i = some (structures (data.drop i)) := by
  induction calls generalizing i with
  | zero => omega
  | succ calls ih =>
    obtain ⟨j, hnext⟩ := next?_eq data i
    rw [walk?, hnext]
    match hdrop : data.drop i with
    | [] => simp [structures]
    | [len] => simp [structures]
    | len :: type :: rest =>
      by_cases hzero : len = 0
      · simp [structures, hzero]
      · have hpos : 0 < len.toNat := toNat_pos hzero
        have hlen : (data.drop i).length = data.length - i := List.length_drop
        rw [hdrop, List.length_cons, List.length_cons] at hlen
        have hrest : data.drop (i + len.toNat + 1) = rest.drop (len.toNat - 1) := by
          rw [show i + len.toNat + 1 = i + (len.toNat - 1 + 2) by omega, ← List.drop_drop, hdrop,
            ← List.drop_drop]
          simp
        simp [structures, hzero, ih (i := i + len.toNat + 1) (by omega), hrest]

/-! ## What a structure says -/

/-- The kinds of structures by their type and value. -/
inductive Decodes : UInt8 → Bytes → Structure → Prop
  | services {type : UInt8} {value : Bytes} (h : type = 0x02 ∨ type = 0x03) :
    Decodes type value (.services value)
  | shortenedName {value : Bytes} : Decodes 0x08 value (.shortenedName value)
  | completeName {value : Bytes} : Decodes 0x09 value (.completeName value)
  | manufacturer {low high : UInt8} {payload : Bytes} {company : UInt16} (h : payload ≠ [])
    (littleEndian : company.toNat = low.toNat + 256 * high.toNat) :
    Decodes 0xFF (low :: high :: payload) (.manufacturer company payload)
  | short {value : Bytes} (h : value.length < 3) : Decodes 0xFF value (.unknown 0xFF value)
  | unknown {type : UInt8} {value : Bytes} (h : type ∉ [0x02, 0x03, 0x08, 0x09, 0xFF]) :
    Decodes type value (.unknown type value)

theorem toNat_word (low high : UInt8) :
    (word low high).toNat = low.toNat + 256 * high.toNat := by
  have hlow := low.toNat_lt
  have hhigh := high.toNat_lt
  exact UInt16.toNat_ofNat_of_lt' (show _ < 65536 by omega)

theorem eq_word {w : UInt16} {low high : UInt8} (h : w.toNat = low.toNat + 256 * high.toNat) :
    w = word low high :=
  UInt16.toNat_inj.1 (h.trans (toNat_word low high).symm)

theorem decodes_decode (type : UInt8) (value : Bytes) :
    Decodes type value (.decode type value) := by
  unfold Structure.decode
  split_ifs with hcomplete hshortened hservices hmanufacturer
  · exact hcomplete ▸ .completeName
  · exact hshortened ▸ .shortenedName
  · exact .services hservices
  · subst hmanufacturer
    match value with
    | [] => exact .short (by simp)
    | [_] => exact .short (by simp)
    | [_, _] => exact .short (by simp)
    | low :: high :: b :: rest => exact .manufacturer (by simp) (toNat_word low high)
  · exact .unknown (by simp_all)

theorem Decodes.eq {type : UInt8} {value : Bytes} {s : Structure} (h : Decodes type value s) :
    Structure.decode type value = s := by
  cases h with
  | services h => obtain rfl | rfl := h <;> rfl
  | shortenedName => rfl
  | completeName => rfl
  | @manufacturer low high payload company hne hcompany =>
    obtain ⟨b, rest, rfl⟩ := List.exists_cons_of_ne_nil hne
    rw [eq_word hcompany]
    rfl
  | @short value h =>
    match value, h with
    | [], _ => rfl
    | [_], _ => rfl
    | [_, _], _ => rfl
  | unknown h =>
    simp only [List.mem_cons, List.not_mem_nil, or_false, not_or] at h
    simp [Structure.decode, h]

/-- The structures of a payload are those of its one layout; the walk by offsets finds them, never
reads outside the payload and ends; and each is of the kind its type and value call for. -/
theorem structures_of_layout :
    (∀ l : Layout, structures l.bytes = l.decoded) ∧
    (∀ bs : Bytes, ∃! l : Layout, l.bytes = bs) ∧
    (∀ bs : Bytes, walk? bs (bs.length / 2 + 1) 0 = some (structures bs)) ∧
    (∀ (type : UInt8) (value : Bytes) (s : Structure),
      Structure.decode type value = s ↔ Decodes type value s) := by
  refine ⟨Layout.structures_bytes, existsUnique_layout, fun bs => ?_, fun type value s => ?_⟩
  · exact walk?_eq bs (by omega)
  · exact ⟨fun h => h ▸ decodes_decode type value, Decodes.eq⟩

/-- A name behind the flags, cut short. -/
example : structures [0x02, 0x01, 0x06, 0x0A, 0x09, 0x53, 0x65, 0x6E]
    = [.unknown 0x01 [0x06], .completeName [0x53, 0x65, 0x6E]] := by
  cbv

end GattGateway.Advert
