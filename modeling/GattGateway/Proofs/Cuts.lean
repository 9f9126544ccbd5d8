import GattGateway.Proofs.Summary

/-!
# Payloads cut short

A payload that is cut short has the structures of the whole one up to the cut. Only the last of them
may differ, by a value that is cut short, and so no service is found that the whole payload does not
list. A name that is cut between two of its characters is the start of the whole name.
-/
namespace GattGateway

open Text (Bytes)

namespace Text

theorem isPrefix_of_utf8 {s t : String} (start : utf8 t <+: utf8 s) : t.toList <+: s.toList := by
  obtain ⟨behind, whole⟩ := start
  refine List.isPrefix_of_utf8Encode_append_eq_utf8Encode behind.toByteArray ?_
  exact List.toByteArray_append.symm.trans (congrArg List.toByteArray whole)

theorem utf8_singleton (c : Char) : utf8 (.singleton c) = String.utf8EncodeChar c := by
  rw [utf8, String.toList_singleton, List.flatMap_singleton]

/-- Every character fits a name. -/
theorem utf8ByteSize_singleton_le (c : Char) :
    (String.singleton c).utf8ByteSize ≤ maxNameBytes := by
  rw [String.utf8ByteSize_singleton]
  exact c.utf8Size_le_four.trans (by decide)

end Text

namespace Advert

/-! ## Structures -/

/-- A structure and what is left of it if its value is cut short. Manufacturer data that loses its
last byte is of no known kind any more. -/
inductive Shortened : Structure → Structure → Prop
  | completeName {v w : Bytes} (start : w <+: v) : Shortened (.completeName v) (.completeName w)
  | shortenedName {v w : Bytes} (start : w <+: v) : Shortened (.shortenedName v) (.shortenedName w)
  | services {v w : Bytes} (start : w <+: v) : Shortened (.services v) (.services w)
  | manufacturer {company : UInt16} {v w : Bytes} (start : w <+: v) (filled : w ≠ []) :
      Shortened (.manufacturer company v) (.manufacturer company w)
  | lost {company : UInt16} {low high : UInt8} {v w : Bytes} (start : w <+: low :: high :: v)
      (littleEndian : company.toNat = low.toNat + 256 * high.toNat) (short : w.length < 3) :
      Shortened (.manufacturer company v) (.unknown 0xFF w)
  | unknown {type : UInt8} {v w : Bytes} (start : w <+: v) :
      Shortened (.unknown type v) (.unknown type w)

theorem shortened_decode (type : UInt8) {v w : Bytes} (start : w <+: v) :
    Shortened (.decode type v) (.decode type w) := by
  have decodes := decodes_decode type v
  generalize Structure.decode type v = s at decodes ⊢
  cases decodes with
  | completeName => exact .completeName start
  | shortenedName => exact .shortenedName start
  | services h => rcases h with rfl | rfl <;> exact .services start
  | @manufacturer low high payload company filled littleEndian =>
    by_cases short : w.length < 3
    · rw [Decodes.eq (.short short)]
      exact .lost start littleEndian short
    · obtain ⟨k, hk⟩ : ∃ k, w.length = k + 1 + 2 := ⟨w.length - 3, by omega⟩
      have left : payload.take (k + 1) ≠ [] := by simp [filled]
      rw [List.prefix_iff_eq_take, hk] at start
      rw [start, List.take_succ_cons, List.take_succ_cons,
        Decodes.eq (.manufacturer left littleEndian)]
      exact .manufacturer (List.take_prefix ..) left
  | short h =>
    have decoded : Structure.decode 0xFF w = .unknown 0xFF w :=
      Decodes.eq (.short (start.length_le.trans_lt h))
    rw [decoded]
    exact .unknown start
  | unknown h =>
    rw [Decodes.eq (.unknown h)]
    exact .unknown start

/-! ## Parts -/

@[simp] theorem parts_nil : (layout []).parts = [] := by
  simp [layout, Layout.parts, Tail.part?]

@[simp] theorem parts_singleton (len : UInt8) : (layout [len]).parts = [] := by
  rw [layout]
  split <;> rfl

@[simp] theorem parts_zero (rest : Bytes) : (layout (0 :: rest)).parts = [] := by
  cases rest <;> simp [layout, Layout.parts, Tail.part?]

/-- A part takes what there is of its value. -/
theorem parts_cons {len : UInt8} (type : UInt8) (rest : Bytes) (filled : len ≠ 0) :
    (layout (len :: type :: rest)).parts =
      ⟨type, rest.take (len.toNat - 1)⟩ :: (layout (rest.drop (len.toNat - 1))).parts := by
  rw [layout, if_neg filled]
  by_cases short : rest.length + 1 < len.toNat
  · have all : rest.length ≤ len.toNat - 1 := by omega
    rw [dif_pos short, List.take_of_length_le all, List.drop_of_length_le all, parts_nil]
    rfl
  · rw [dif_neg short]
    rfl

/-- A row of parts and what is left of it behind a cut. -/
inductive CutShort : List Part → List Part → Prop
  | nothing {full : List Part} : CutShort full []
  | last {type : UInt8} {v w : Bytes} {behind : List Part} (start : w <+: v) :
      CutShort (⟨type, v⟩ :: behind) [⟨type, w⟩]
  | cons {p : Part} {full cut : List Part} (h : CutShort full cut) : CutShort (p :: full) (p :: cut)

theorem cutShort_take (d : Bytes) (n : Nat) :
    CutShort (layout d).parts (layout (d.take n)).parts := by
  induction d using structures.induct generalizing n with
  | case1 => simpa using CutShort.nothing
  | case2 len => cases n <;> simpa using CutShort.nothing
  | case3 type rest => cases n <;> simpa using CutShort.nothing
  | case4 len type rest filled ih =>
    match n with
    | 0 => simpa using CutShort.nothing
    | 1 => simpa using CutShort.nothing
    | n + 2 =>
      rw [List.take_succ_cons, List.take_succ_cons, parts_cons type rest filled,
        parts_cons type _ filled, List.take_take, List.drop_take]
      by_cases whole : len.toNat - 1 ≤ n
      · rw [Nat.min_eq_left whole]
        exact .cons (ih _)
      · rw [not_le] at whole
        rw [Nat.min_eq_right whole.le, Nat.sub_eq_zero_of_le whole.le, List.take_zero, parts_nil]
        exact .last (List.take_prefix_take_left whole.le)

namespace CutShort

variable {full cut : List Part}

theorem length_le (h : CutShort full cut) : cut.length ≤ full.length := by
  induction h with
  | nothing => exact Nat.zero_le _
  | last start => exact Nat.succ_le_succ (Nat.zero_le _)
  | cons h ih => exact Nat.succ_le_succ ih

theorem types (h : CutShort full cut) : cut.map Part.type <+: full.map Part.type := by
  induction h with
  | nothing => exact List.nil_prefix
  | last start => exact List.cons_prefix_cons.2 ⟨rfl, List.nil_prefix⟩
  | cons h ih => exact List.cons_prefix_cons.2 ⟨rfl, ih⟩

theorem getElem?_eq (h : CutShort full cut) {i : Nat} (before : i + 1 < cut.length) :
    cut[i]? = full[i]? := by
  induction h generalizing i with
  | nothing => exact absurd before (Nat.not_lt_zero _)
  | last start => exact absurd before (by simp)
  | cons h ih =>
    cases i with
    | zero => rfl
    | succ i => exact ih (Nat.lt_of_succ_lt_succ before)

theorem getElem?_last (h : CutShort full cut) {i : Nat} {q : Part} (last : i + 1 = cut.length)
    (found : cut[i]? = some q) :
    ∃ p, full[i]? = some p ∧ p.type = q.type ∧ q.value <+: p.value := by
  induction h generalizing i with
  | nothing => exact absurd last (Nat.succ_ne_zero _)
  | @last type v w behind start =>
    obtain rfl : i = 0 := Nat.succ.inj last
    obtain rfl := Option.some.inj found
    exact ⟨_, rfl, rfl, start⟩
  | @cons p full cut h ih =>
    cases i with
    | zero =>
      obtain rfl := Option.some.inj found
      exact ⟨p, rfl, rfl, List.prefix_rfl⟩
    | succ i => exact ih (Nat.succ.inj last) found

end CutShort

/-! ## Services -/

theorem words_isPrefix {v w : Bytes} (start : w <+: v) : words w <+: words v := by
  fun_induction words w generalizing v with
  | case1 low high rest ih =>
    obtain ⟨behind, rfl⟩ := start
    exact List.cons_prefix_cons.2 ⟨rfl, ih (List.prefix_append ..)⟩
  | case2 w short => exact List.nil_prefix

theorem CutShort.services {full cut : List Part} (h : CutShort full cut) :
    cut.flatMap Part.services <+: full.flatMap Part.services := by
  induction h with
  | nothing => exact List.nil_prefix
  | @last type v w behind start =>
    rw [List.flatMap_singleton, List.flatMap_cons]
    refine List.IsPrefix.trans ?_ (List.prefix_append ..)
    unfold Part.services
    split_ifs with listed
    · exact words_isPrefix start
    · exact List.prefix_rfl
  | cons h ih =>
    rw [List.flatMap_cons, List.flatMap_cons]
    exact (List.prefix_append_right_inj _).2 ih

theorem eraseDups_isPrefix {vs ws : List UInt16} (start : vs <+: ws) :
    vs.eraseDups <+: ws.eraseDups := by
  obtain ⟨behind, rfl⟩ := start
  rw [List.eraseDups_append]
  exact List.prefix_append ..

/-- Behind a cut there are no more structures than before it, and only the last may differ from the
one in its place, by a value that is cut short. So no service is found that was not there. -/
theorem structures_take (d : Bytes) (n : Nat) :
    (structures (d.take n)).length ≤ (structures d).length ∧
    (∀ i, i + 1 < (structures (d.take n)).length →
      (structures (d.take n))[i]? = (structures d)[i]?) ∧
    (∀ i t, i + 1 = (structures (d.take n)).length → (structures (d.take n))[i]? = some t →
      ∃ s, (structures d)[i]? = some s ∧ Shortened s t) ∧
    (Fields.ofPayload (d.take n)).services <+: (Fields.ofPayload d).services := by
  have cut := cutShort_take d n
  simp only [structures_eq_map_decoded, List.length_map, List.getElem?_map]
  refine ⟨cut.length_le, fun i before => by rw [cut.getElem?_eq before],
    fun i t last found => ?_, ?_⟩
  · obtain ⟨q, there, rfl⟩ := Option.map_eq_some_iff.1 found
    obtain ⟨p, whole, type, start⟩ := cut.getElem?_last last there
    refine ⟨p.decoded, by rw [whole, Option.map_some], ?_⟩
    rw [Part.decoded, Part.decoded, type]
    exact shortened_decode q.type start
  · rw [(says_ofPayload _).services, (says_ofPayload d).services]
    exact (eraseDups_isPrefix cut.services).take _

/-! ## Names -/

/-- A payload of whole entries, with one readable name among them. -/
structure Layout.Names (l : Layout) (before : List Entry) (e : Entry) (behind : List Entry)
    (s : String) : Prop where
  entries : l.entries = before ++ e :: behind
  whole : l.tail.part? = none
  isName : e.type = 0x08 ∨ e.type = 0x09
  alone : ∀ o ∈ before ++ behind, ¬(o.type = 0x08 ∨ o.type = 0x09)
  reads : Text.utf8 s = e.value

/-- The offset of a value behind other entries. -/
def valueOffset (before : List Entry) : Nat := (before.flatMap Entry.bytes).length + 2

theorem parts_append (es : List Entry) (rest : Bytes) :
    (layout (es.flatMap Entry.bytes ++ rest)).parts = es.map Entry.part ++ (layout rest).parts := by
  induction es with
  | nil => rfl
  | cons e es ih =>
    rw [List.flatMap_cons, List.append_assoc, layout_append, List.map_cons, List.cons_append, ← ih]
    rfl

theorem parts_take_append (e : Entry) (rest : Bytes) (n : Nat) :
    (layout ((e.bytes ++ rest).take (n + 2))).parts =
      ⟨e.type, e.value.take n⟩ :: (layout (rest.take (n - e.value.length))).parts := by
  have taken : (e.bytes ++ rest).take (n + 2)
      = UInt8.ofNat (e.value.length + 1) :: e.type :: (e.value ++ rest).take n := rfl
  rw [taken, parts_cons _ _ e.length_ne_zero, e.toNat_length, Nat.add_sub_cancel, List.take_take,
    List.drop_take, List.drop_left]
  congr 2
  rw [Nat.min_comm, ← List.take_take, List.take_left]

namespace Layout.Names

variable {l : Layout} {before behind : List Entry} {e : Entry} {s : String}

theorem bytes_eq (h : l.Names before e behind s) : l.bytes =
    before.flatMap Entry.bytes ++ (e.bytes ++ (behind.flatMap Entry.bytes ++ l.tail.bytes)) := by
  rw [Layout.bytes, h.entries, List.flatMap_append, List.flatMap_cons, List.append_assoc,
    List.append_assoc]

/-- Behind the name no part is one, wherever the payload is cut. -/
theorem nameless (h : l.Names before e behind s) (k : Nat) :
    (layout ((behind.flatMap Entry.bytes ++ l.tail.bytes).take k)).parts.reverse.findSome?
      Part.name? = none := by
  have parts : (layout (behind.flatMap Entry.bytes ++ l.tail.bytes)).parts =
      behind.map Entry.part := by
    rw [parts_append, layout_tail, Layout.parts, h.whole, List.map_nil, Option.toList_none,
      List.append_nil, List.append_nil]
  refine List.findSome?_eq_none_iff.2 fun q found => ?_
  have type : q.type ∈ (behind.map Entry.part).map Part.type :=
    parts ▸ (cutShort_take _ k).types.subset (List.mem_map_of_mem (List.mem_reverse.1 found))
  rw [List.map_map] at type
  obtain ⟨o, there, same⟩ := List.mem_map.1 type
  exact if_neg (same ▸ h.alone o (List.mem_append_right _ there))

/-- What a payload says of its name once it is cut within the value or behind it. -/
theorem findSome?_take (h : l.Names before e behind s) (m : Nat) :
    (layout (l.bytes.take (valueOffset before + m))).parts.reverse.findSome? Part.name? =
      Text.ofUtf8? (e.value.take m) := by
  have parts : (layout (l.bytes.take (valueOffset before + m))).parts = before.map Entry.part ++
      ⟨e.type, e.value.take m⟩ ::
        (layout ((behind.flatMap Entry.bytes ++ l.tail.bytes).take
          (m - e.value.length))).parts := by
    rw [h.bytes_eq, valueOffset, Nat.add_assoc, Nat.add_comm 2, List.take_length_add_append,
      parts_append, parts_take_append]
  have earlier : (before.map Entry.part).reverse.findSome? Part.name? = none := by
    refine List.findSome?_eq_none_iff.2 fun q found => ?_
    obtain ⟨o, there, rfl⟩ := List.mem_map.1 (List.mem_reverse.1 found)
    exact if_neg (h.alone o (List.mem_append_left _ there))
  rw [parts, List.reverse_append, List.reverse_cons, List.findSome?_append, List.findSome?_append,
    h.nameless, earlier, Option.none_or, Option.or_none, List.findSome?_singleton]
  exact if_pos h.isName

/-- What the whole payload says of it. -/
theorem name (h : l.Names before e behind s) :
    Text.LongestStart maxNameBytes s (Fields.ofPayload l.bytes).name := by
  have whole : l.bytes.take (valueOffset before + l.bytes.length) = l.bytes :=
    List.take_of_length_le (Nat.le_add_left _ _)
  have filled : e.value.take l.bytes.length = e.value := by
    refine List.take_of_length_le ?_
    rw [h.bytes_eq, List.length_append, List.length_append, Entry.bytes, List.length_cons,
      List.length_cons]
    omega
  have said := (says_ofPayload l.bytes).name
  rwa [← whole, h.findSome?_take, filled, ← h.reads, Text.ofUtf8?_utf8, whole] at said

/-- What is left of it behind a cut between two of its characters. -/
theorem name_take (h : l.Names before e behind s) {m : Nat} {t : String}
    (cut : Text.utf8 t = e.value.take m) : Text.LongestStart maxNameBytes t
      (Fields.ofPayload (l.bytes.take (valueOffset before + m))).name := by
  have said := (says_ofPayload (l.bytes.take (valueOffset before + m))).name
  rwa [h.findSome?_take, ← cut, Text.ofUtf8?_utf8] at said

/-- Nothing is left of it behind a cut within a character. -/
theorem name_take_eq_empty (h : l.Names before e behind s) {m : Nat}
    (cut : ¬∃ t, Text.utf8 t = e.value.take m) :
    (Fields.ofPayload (l.bytes.take (valueOffset before + m))).name = "" := by
  have said := (says_ofPayload (l.bytes.take (valueOffset before + m))).name
  cases read : Text.ofUtf8? (e.value.take m) with
  | some t => exact absurd ⟨t, Text.ofUtf8?_eq_some_iff.1 read⟩ cut
  | none => rwa [h.findSome?_take, read] at said

end Layout.Names

/-- A name whose first character is kept by a cut comes through, as a start of what it is in the
whole payload, exactly if the cut falls between two of its characters or behind it. Otherwise the
name is empty. -/
theorem name_comes_through_iff {l : Layout} {before behind : List Entry} {e : Entry} {s : String}
    {c : Char} {cs : List Char} {n : Nat} (named : l.Names before e behind s)
    (first : s.toList = c :: cs) (kept : valueOffset before + c.utf8Size ≤ n) :
    ((Fields.ofPayload (l.bytes.take n)).name ≠ "" ∧
        (Fields.ofPayload (l.bytes.take n)).name.toList <+:
          (Fields.ofPayload l.bytes).name.toList ↔
      ∃ t : String, t.toList <+: s.toList ∧ Text.utf8 t = e.value.take (n - valueOffset before)) ∧
    ((Fields.ofPayload (l.bytes.take n)).name = "" ↔
      ¬∃ t : String, t.toList <+: s.toList ∧
        Text.utf8 t = e.value.take (n - valueOffset before)) := by
  obtain ⟨m, rfl⟩ : ∃ m, n = valueOffset before + m := ⟨n - valueOffset before, by omega⟩
  rw [Nat.add_sub_cancel_left]
  have through : (∃ t : String, t.toList <+: s.toList ∧ Text.utf8 t = e.value.take m) →
      (Fields.ofPayload (l.bytes.take (valueOffset before + m))).name ≠ "" ∧
        (Fields.ofPayload (l.bytes.take (valueOffset before + m))).name.toList <+:
          (Fields.ofPayload l.bytes).name.toList := by
    rintro ⟨t, start, cut⟩
    have left := named.name_take cut
    have opens : (String.singleton c).toList <+: t.toList := by
      refine Text.isPrefix_of_utf8 ?_
      rw [cut, ← named.reads, Text.utf8_singleton, Text.utf8, first, List.flatMap_cons]
      have fits : (String.utf8EncodeChar c).length ≤ m := by
        rw [String.length_utf8EncodeChar]
        omega
      exact List.prefix_take_iff.2 ⟨List.prefix_append .., fits⟩
    have stays := left.longest _ opens (Text.utf8ByteSize_singleton_le c)
    refine ⟨fun empty => ?_, named.name.longest _ (left.start.trans start) left.fits⟩
    rw [empty, String.toList_singleton, String.toList_empty] at stays
    exact List.cons_ne_nil _ _ (List.prefix_nil.1 stays)
  have lost (within : ¬∃ t : String, t.toList <+: s.toList ∧ Text.utf8 t = e.value.take m) :
      (Fields.ofPayload (l.bytes.take (valueOffset before + m))).name = "" := by
    refine named.name_take_eq_empty ?_
    rintro ⟨t, cut⟩
    refine within ⟨t, Text.isPrefix_of_utf8 ?_, cut⟩
    rw [cut, named.reads]
    exact List.take_prefix ..
  exact ⟨⟨fun h => by_contra fun within => h.1 (lost within), through⟩,
    ⟨fun empty between => (through between).1 empty, lost⟩⟩

/-- A payload of one name, whose second character takes two bytes. -/
def accentedName : Entry := ⟨0x09, [0x41, 0xC3, 0xA9], by decide⟩

def accented : Layout := ⟨[accentedName], .empty⟩

theorem accented_names : accented.Names [] accentedName [] "Aé" where
  entries := rfl
  whole := rfl
  isName := .inr rfl
  alone := nofun
  reads := by decide

theorem accented_comes_through :
    (Fields.ofPayload (accented.bytes.take 3)).name ≠ "" ∧
      (Fields.ofPayload (accented.bytes.take 3)).name.toList <+:
        (Fields.ofPayload accented.bytes).name.toList :=
  (name_comes_through_iff accented_names rfl (by decide)).1.2 ⟨"A", by decide, by decide⟩

/-- A cut within a character takes the whole name away. -/
theorem not_always_through :
    ¬∀ (l : Layout) (before behind : List Entry) (e : Entry) (s : String) (c : Char)
      (cs : List Char) (n : Nat), l.Names before e behind s → s.toList = c :: cs →
      valueOffset before + c.utf8Size ≤ n →
      (Fields.ofPayload (l.bytes.take n)).name ≠ "" ∧
        (Fields.ofPayload (l.bytes.take n)).name.toList <+:
          (Fields.ofPayload l.bytes).name.toList := by
  intro through
  have kept := through accented [] [] accentedName "Aé" 'A' ['é'] 4 accented_names rfl (by decide)
  have lost : (Fields.ofPayload (accented.bytes.take 4)).name = "" := by decide +kernel
  exact kept.1 lost

end Advert

end GattGateway
