import GattGateway.Advert.Fields
import GattGateway.Proofs.Layout
import GattGateway.Proofs.Numerals
import GattGateway.Proofs.PrintedSize
import GattGateway.Proofs.Recognition
import Mathlib.Data.List.Induction

/-!
# What a payload says

Of the parts of a payload the last readable name counts, the last manufacturer data that is long
enough, and of the numbers in the lists of services the first ones that differ. Every payload has
one row of parts, and its fields are what these say.
-/
namespace GattGateway

open Text (Bytes)

/-! ## Texts -/

namespace Text

theorem ofUtf8?_eq_some_iff {bs : Bytes} {s : String} : ofUtf8? bs = some s ↔ utf8 s = bs :=
  ⟨Json.utf8_of_ofUtf8?, fun h => h ▸ ofUtf8?_utf8 s⟩

/-- The longest start of whole characters of a text that takes no more than `room` bytes. -/
structure LongestStart (room : Nat) (s t : String) : Prop where
  start : t.toList <+: s.toList
  fits : t.utf8ByteSize ≤ room
  longest : ∀ u : String, u.toList <+: s.toList → u.utf8ByteSize ≤ room → u.toList <+: t.toList

theorem LongestStart.unique {room : Nat} {s t u : String} (ht : LongestStart room s t)
    (hu : LongestStart room s u) : t = u := by
  have shorter := hu.longest t ht.start ht.fits
  have longer := ht.longest u hu.start hu.fits
  exact String.toList_inj.1 (shorter.eq_of_length_le longer.length_le)

/-- No start that fits is longer. -/
theorem isPrefix_fitting {room : Nat} {cs ds : List Char} (start : ds <+: cs)
    (fits : String.utf8Len ds ≤ room) : ds <+: fitting room cs := by
  induction cs generalizing room ds with
  | nil => exact start
  | cons c cs ih =>
    cases ds with
    | nil => exact List.nil_prefix
    | cons d ds =>
      obtain ⟨rfl, rest⟩ := List.cons_prefix_cons.1 start
      rw [String.utf8Len_cons] at fits
      rw [fitting, if_pos (by omega), List.cons_prefix_cons]
      exact ⟨rfl, ih rest (by omega)⟩

theorem longestStart_fitting (room : Nat) (s : String) :
    LongestStart room s (String.ofList (fitting room s.toList)) where
  start := by
    rw [String.toList_ofList]
    exact fitting_isPrefix ..
  fits := by
    rw [String.utf8ByteSize_ofList]
    exact utf8Len_fitting_le ..
  longest u start fits := by
    rw [String.toList_ofList]
    refine isPrefix_fitting start ?_
    rwa [← String.utf8ByteSize_ofList, String.ofList_toList]

end Text

namespace Advert

/-! ## Parts -/

/-- A structure as it stands in a payload: its type and its value, as far as that is there. -/
structure Part where
  type : UInt8
  value : Bytes
  deriving DecidableEq, Repr

namespace Part

def decoded (p : Part) : Structure := .decode p.type p.value

/-- The text of a local name, complete or shortened, whose bytes are UTF-8. -/
def name? (p : Part) : Option String :=
  if p.type = 0x08 ∨ p.type = 0x09 then Text.ofUtf8? p.value else none

/-- The numbers in a list of services, complete or not. -/
def services (p : Part) : List UInt16 :=
  if p.type = 0x02 ∨ p.type = 0x03 then words p.value else []

/-- The value of manufacturer data that has a company identifier and at least one byte. -/
def manufacturer? (p : Part) : Option Bytes :=
  if p.type = 0xFF ∧ 3 ≤ p.value.length then some p.value else none

end Part

def Entry.part (e : Entry) : Part := ⟨e.type, e.value⟩

/-- Only an entry that is cut short is still a part. -/
def Tail.part? : Tail → Option Part
  | cut _ type value _ => some ⟨type, value⟩
  | _ => none

def Layout.parts (l : Layout) : List Part := l.entries.map Entry.part ++ l.tail.part?.toList

theorem Layout.decoded_eq (l : Layout) : l.decoded = l.parts.map Part.decoded := by
  have tail (t : Tail) : t.decoded = t.part?.toList.map Part.decoded := by cases t <;> rfl
  rw [decoded, parts, List.map_append, List.map_map, tail]
  rfl

theorem structures_eq_map_decoded (bs : Bytes) :
    structures bs = (layout bs).parts.map Part.decoded := by
  rw [← Layout.decoded_eq, ← Layout.structures_bytes, bytes_layout]

/-! ## Pairs of bytes -/

/-- Numbers of two bytes each, the low byte first. An odd last byte is left out. -/
structure Pairs (value : Bytes) (ws : List UInt16) : Prop where
  length : ws.length = value.length / 2
  get : ∀ i w low high, ws[i]? = some w → value[2 * i]? = some low →
    value[2 * i + 1]? = some high → w.toNat = low.toNat + 256 * high.toNat

theorem pairs_words (value : Bytes) : Pairs value (words value) := by
  fun_induction words value with
  | case1 low high rest ih =>
    refine ⟨by simp only [List.length_cons, ih.length]; omega, fun i w l h hw hl hh => ?_⟩
    cases i with
    | zero =>
      simp only [List.getElem?_cons_zero, List.getElem?_cons_succ, Nat.mul_zero,
        Option.some.injEq] at hw hl hh
      subst hw hl hh
      exact toNat_word ..
    | succ i => exact ih.get i w l h hw hl hh
  | case2 value short =>
    match value, short with
    | [], _ => exact ⟨rfl, nofun⟩
    | [b], _ => exact ⟨by simp, nofun⟩
    | low :: high :: rest, short => exact absurd rfl (short low high rest)

/-! ## Manufacturer data -/

/-- The bytes of manufacturer data that are kept, behind the company identifier. -/
def keptData (value : Bytes) : Bytes := (value.drop 2).take (maxManufacturerDigits / 2)

/-- What a value says of a manufacturer: the company identifier, the low byte first, and the bytes
that are kept as a numeral in base sixteen, two lowercase digits for each. -/
structure Manufacturer.Shows (m : Manufacturer) (value : Bytes) : Prop where
  company : ∃ low high, value[0]? = some low ∧ value[1]? = some high ∧
    m.company.toNat = low.toNat + 256 * high.toNat
  data : ∃ ds, m.data = String.ofList (ds.map (Text.hexDigit .lower)) ∧
    ds.length = 2 * (keptData value).length ∧ (∀ d ∈ ds, d < 16) ∧
    numeral 16 ds = numeral 256 ((keptData value).map UInt8.toNat)

theorem Manufacturer.Shows.unique {m m' : Manufacturer} {value : Bytes} (h : m.Shows value)
    (h' : m'.Shows value) : m = m' := by
  obtain ⟨⟨low, high, hl, hh, company⟩, ds, data, length, small, same⟩ := h
  obtain ⟨⟨low', high', hl', hh', company'⟩, ds', data', length', small', same'⟩ := h'
  obtain rfl : low = low' := Option.some_inj.1 (hl.symm.trans hl')
  obtain rfl : high = high' := Option.some_inj.1 (hh.symm.trans hh')
  have companies : m.company = m'.company := UInt16.toNat_inj.1 (company.trans company'.symm)
  have digits : ds = ds' := numeral_inj (by decide) (length.trans length'.symm) small small'
    (same.trans same'.symm)
  have texts : m.data = m'.data := by rw [data, data', digits]
  obtain ⟨c, d⟩ := m
  obtain ⟨c', d'⟩ := m'
  rw [Manufacturer.mk.injEq]
  exact ⟨companies, texts⟩

/-- Manufacturer data as it is read from its value. -/
def Manufacturer.ofValue (value : Bytes) : Manufacturer :=
  .ofPayload (word (value.getD 0 0) (value.getD 1 0)) (value.drop 2)

theorem Manufacturer.shows_ofValue {value : Bytes} (h : 2 ≤ value.length) :
    (ofValue value).Shows value := by
  obtain ⟨low, high, payload, rfl⟩ : ∃ low high payload, value = low :: high :: payload := by
    match value, h with
    | low :: high :: payload, _ => exact ⟨low, high, payload, rfl⟩
  refine ⟨⟨low, high, rfl, rfl, toNat_word ..⟩, nibbles (keptData (low :: high :: payload)), ?_,
    length_nibbles _, fun _ => nibble_lt, numeral_nibbles _⟩
  rw [← hexBytes_eq]
  rfl

theorem Part.two_le_of_manufacturer? {p : Part} {value : Bytes}
    (h : p.manufacturer? = some value) : 2 ≤ value.length := by
  unfold Part.manufacturer? at h
  split_ifs at h with long
  cases h
  omega

/-! ## What parts say -/

/-- What parts say of their device. -/
structure Says (ps : List Part) (f : Fields) : Prop where
  /-- The last name that can be read, as far as it fits. -/
  name : match ps.reverse.findSome? Part.name? with
    | some s => Text.LongestStart maxNameBytes s f.name
    | none => f.name = ""
  /-- The first numbers that differ. -/
  services : f.services = ((ps.flatMap Part.services).eraseDups).take maxServices
  /-- The last manufacturer data that is long enough. -/
  manufacturer : match ps.reverse.findSome? Part.manufacturer? with
    | some value => ∃ m, f.manufacturer = some m ∧ m.Shows value
    | none => f.manufacturer = none

theorem Says.unique {ps : List Part} {f f' : Fields} (h : Says ps f) (h' : Says ps f') :
    f = f' := by
  have name : f.name = f'.name := by
    have hn := h.name
    have hn' := h'.name
    cases hlast : ps.reverse.findSome? Part.name? with
    | some s =>
      rw [hlast] at hn hn'
      exact hn.unique hn'
    | none =>
      rw [hlast] at hn hn'
      exact hn.trans hn'.symm
  have manufacturer : f.manufacturer = f'.manufacturer := by
    have hm := h.manufacturer
    have hm' := h'.manufacturer
    cases hlast : ps.reverse.findSome? Part.manufacturer? with
    | some value =>
      rw [hlast] at hm hm'
      obtain ⟨m, same, shows⟩ := hm
      obtain ⟨m', same', shows'⟩ := hm'
      rw [same, same', shows.unique shows']
    | none =>
      rw [hlast] at hm hm'
      exact hm.trans hm'.symm
  obtain ⟨n, ss, mf⟩ := f
  obtain ⟨n', ss', mf'⟩ := f'
  rw [Fields.mk.injEq]
  exact ⟨name, h.services.trans h'.services.symm, manufacturer⟩

/-- A number joins those that are kept if it is new and there is room. -/
theorem addService_eq (ws : List UInt16) (w : UInt16) :
    addService (ws.eraseDups.take maxServices) w = ((ws ++ [w]).eraseDups).take maxServices := by
  rw [List.eraseDups_append]
  by_cases full : maxServices ≤ ws.eraseDups.length
  · have kept : maxServices ≤ (ws.eraseDups.take maxServices).length := by
      rw [List.length_take]
      omega
    rw [addService, if_pos (.inr kept), List.take_append_of_le_length full]
  · rw [not_le] at full
    have all : ws.eraseDups.take maxServices = ws.eraseDups := List.take_of_length_le full.le
    rw [all, addService]
    by_cases known : w ∈ ws
    · have nothing : [w].removeAll ws = [] := by simp [List.removeAll, known]
      rw [if_pos (.inl (List.mem_eraseDups.2 known)), nothing, List.eraseDups_nil, List.append_nil,
        all]
    · have new : [w].removeAll ws = [w] := by simp [List.removeAll, known]
      have single : [w].eraseDups = [w] := by simp [List.eraseDups_cons]
      have fresh : ¬(w ∈ ws.eraseDups ∨ maxServices ≤ ws.eraseDups.length) :=
        not_or.2 ⟨by rwa [List.mem_eraseDups], full.not_ge⟩
      rw [if_neg fresh, new, single, List.take_of_length_le]
      rw [List.length_append, List.length_singleton]
      exact full

theorem foldl_addService (ws us : List UInt16) :
    us.foldl addService (ws.eraseDups.take maxServices)
      = ((ws ++ us).eraseDups).take maxServices := by
  induction us generalizing ws with
  | nil => rw [List.foldl_nil, List.append_nil]
  | cons u us ih =>
    rw [List.foldl_cons, addService_eq, ih, List.append_assoc, List.singleton_append]

/-! ## The fields of a payload -/

namespace Fields

/-- One part more is said last. -/
theorem add_decoded (f : Fields) (p : Part) : f.add p.decoded =
    { name := match p.name? with
        | some s => fittingName s
        | none => f.name
      services := p.services.foldl addService f.services
      manufacturer := (p.manufacturer?.map .ofValue).or f.manufacturer } := by
  obtain ⟨type, value⟩ := p
  have named : f.rename value = { f with name := match Text.ofUtf8? value with
      | some s => fittingName s
      | none => f.name } := by
    unfold rename
    cases Text.ofUtf8? value <;> rfl
  have decodes := decodes_decode type value
  simp only [Part.decoded]
  generalize Structure.decode type value = s at decodes ⊢
  cases decodes with
  | completeName => exact named
  | shortenedName => exact named
  | services h =>
    rcases h with rfl | rfl <;> rfl
  | @manufacturer low high payload company filled littleEndian =>
    obtain ⟨b, rest, rfl⟩ := List.exists_cons_of_ne_nil filled
    rw [eq_word littleEndian]
    rfl
  | short h =>
    simp [add, Part.name?, Part.services, Part.manufacturer?, h.not_ge]
  | unknown h =>
    simp only [List.mem_cons, List.not_mem_nil, or_false, not_or] at h
    obtain ⟨h2, h3, h8, h9, hff⟩ := h
    simp [add, Part.name?, Part.services, Part.manufacturer?, h2, h3, h8, h9, hff]

theorem says_foldl (ps : List Part) : Says ps ((ps.map Part.decoded).foldl add {}) := by
  induction ps using List.reverseRecOn with
  | nil => exact ⟨rfl, rfl, rfl⟩
  | append_singleton ps p ih =>
    rw [List.map_append, List.foldl_append, List.map_singleton, List.foldl_cons, List.foldl_nil,
      add_decoded]
    refine ⟨?_, ?_, ?_⟩
    · rw [List.reverse_concat, List.findSome?_cons]
      cases p.name? with
      | some s => exact Text.longestStart_fitting ..
      | none => exact ih.name
    · rw [ih.services, foldl_addService, List.flatMap_append, List.flatMap_singleton]
    · rw [List.reverse_concat, List.findSome?_cons]
      cases hp : p.manufacturer? with
      | some value => exact ⟨_, rfl, Manufacturer.shows_ofValue (Part.two_le_of_manufacturer? hp)⟩
      | none => exact ih.manufacturer

end Fields

theorem says_ofPayload (bs : Bytes) : Says (layout bs).parts (.ofPayload bs) := by
  rw [Fields.ofPayload, structures_eq_map_decoded]
  exact Fields.says_foldl _

/-- The fields of every payload are what its parts say, and nothing else can be said of them: a
text is read from its UTF-8 bytes, and numbers from their pairs. -/
theorem fields_of_payload :
    (∀ bs : Bytes, ∃! l : Layout, l.bytes = bs ∧ ∀ f, Says l.parts f ↔ f = .ofPayload bs) ∧
    (∀ (bs : Bytes) (s : String), Text.ofUtf8? bs = some s ↔ Text.utf8 s = bs) ∧
    (∀ bs : Bytes, Pairs bs (words bs)) := by
  refine ⟨fun bs => ⟨layout bs, ⟨bytes_layout bs, fun f => ?_⟩, ?_⟩,
    fun bs s => Text.ofUtf8?_eq_some_iff, pairs_words⟩
  · have said := says_ofPayload bs
    exact ⟨fun h => h.unique said, fun h => h ▸ said⟩
  · rintro l ⟨written, -⟩
    rw [← written, layout_bytes]

end Advert

end GattGateway
