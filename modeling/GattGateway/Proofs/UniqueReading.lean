import GattGateway.Gateway.Autoscan
import GattGateway.Proofs.AcceptedTexts
import GattGateway.Proofs.Spelling
import Mathlib.Data.List.Infix

/-!
# Printed values that can be read in one way

No printed value goes on as another one, whatever stands behind the two, so that a text determines
the value that it was printed from. What a scan cycle publishes determines its devices.
-/
namespace GattGateway

open Text

namespace Json

/-! ## Escaped texts -/

theorem escapeChar_of_not_isLiteral {c : Char} (h : ¬IsLiteral c) :
    ∃ code, escapeChar c = '\\' :: code := by
  unfold escapeChar
  split_ifs with quote backslash _ _ _ _ _ control
  case neg => exact absurd ⟨quote, backslash, Nat.not_lt.1 control⟩ h
  all_goals exact ⟨_, rfl⟩

/-- No escape is the start of another one. -/
theorem escape_apart {c d : Char} (hc : ¬IsLiteral c) (hd : ¬IsLiteral d)
    (h : escapeChar c <+: escapeChar d) : c = d := by
  have apart : ∀ m < 0x5D, ∀ n < 0x5D,
      (¬IsLiteral (Char.ofNat m) ∧ ¬IsLiteral (Char.ofNat n) ∧
        escapeChar (Char.ofNat m) <+: escapeChar (Char.ofNat n)) → m = n := by
    decide +kernel
  refine Char.toNat_inj.1 (apart _ (toNat_of_not_isLiteral hc) _ (toNat_of_not_isLiteral hd) ?_)
  simp only [Char.ofNat_toNat]
  exact ⟨hc, hd, h⟩

theorem escapeChar_inj {c d : Char} {rest rest' : List Char}
    (same : escapeChar c ++ rest = escapeChar d ++ rest') : c = d ∧ rest = rest' := by
  -- A character that stands for itself is no backslash, and every escape begins with one.
  have mixed {c d : Char} {rest rest' : List Char} (hc : IsLiteral c) (hd : ¬IsLiteral d) :
      escapeChar c ++ rest ≠ escapeChar d ++ rest' := by
    obtain ⟨code, hcode⟩ := escapeChar_of_not_isLiteral hd
    rw [escapeChar_of_isLiteral hc, hcode]
    exact fun same => hc.2.1 (List.cons.inj same).1
  have equal : c = d := by
    by_cases hc : IsLiteral c
    · by_cases hd : IsLiteral d
      · rw [escapeChar_of_isLiteral hc, escapeChar_of_isLiteral hd] at same
        exact (List.cons.inj same).1
      · exact absurd same (mixed hc hd)
    · by_cases hd : IsLiteral d
      · exact absurd same.symm (mixed hd hc)
      · rcases List.append_eq_append_iff.1 same with ⟨more, longer, -⟩ | ⟨more, longer, -⟩
        · exact escape_apart hc hd ⟨more, longer.symm⟩
        · exact (escape_apart hd hc ⟨more, longer.symm⟩).symm
  subst equal
  exact ⟨rfl, List.append_cancel_left same⟩

theorem head?_escapeChar (c : Char) : (escapeChar c).head? ≠ some '"' := by
  by_cases h : IsLiteral c
  · rw [escapeChar_of_isLiteral h]
    simpa using h.1
  · obtain ⟨code, hcode⟩ := escapeChar_of_not_isLiteral h
    simp [hcode]

/-- A closing quote comes up in no escaped text. -/
theorem quote_ne_escaped {c : Char} {cs rest rest' : List Char} :
    '"' :: rest ≠ (c :: cs).flatMap escapeChar ++ '"' :: rest' := by
  intro same
  have head := congrArg List.head? same
  have filled : escapeChar c ≠ [] := by
    intro none
    have := length_le_length_escaped [c]
    simp [none] at this
  rw [List.flatMap_cons, List.append_assoc, List.head?_append_of_ne_nil _ filled] at head
  exact head?_escapeChar c head.symm

theorem escaped_inj {cs ds rest rest' : List Char}
    (same : cs.flatMap escapeChar ++ '"' :: rest = ds.flatMap escapeChar ++ '"' :: rest') :
    cs = ds ∧ rest = rest' := by
  induction cs generalizing ds with
  | nil =>
    cases ds with
    | nil => exact ⟨rfl, (List.cons.inj same).2⟩
    | cons d ds => exact absurd same quote_ne_escaped
  | cons c cs ih =>
    cases ds with
    | nil => exact absurd same.symm quote_ne_escaped
    | cons d ds =>
      rw [List.flatMap_cons, List.flatMap_cons, List.append_assoc, List.append_assoc] at same
      obtain ⟨rfl, behind⟩ := escapeChar_inj same
      obtain ⟨rfl, tails⟩ := ih behind
      exact ⟨rfl, tails⟩

theorem quoted_inj {s t : String} {rest rest' : List Char}
    (same : quoted s ++ rest = quoted t ++ rest') : s = t ∧ rest = rest' := by
  simp only [quoted, List.cons_append, List.append_assoc, List.nil_append, List.cons.injEq,
    true_and] at same
  obtain ⟨texts, tails⟩ := escaped_inj same
  exact ⟨String.toList_inj.1 texts, tails⟩

/-! ## Numbers -/

/-- Behind a number these characters make it no longer. -/
def Ends (cs : List Char) : Prop := ∀ c ∈ cs.head?, c.isDigit = false

theorem takeWhile_digits {cs rest : List Char} (h : ∀ c ∈ cs, c.isDigit = true) (hr : Ends rest) :
    (cs ++ rest).takeWhile Char.isDigit = cs := by
  rw [List.takeWhile_append_of_pos h]
  cases rest with
  | nil => simp
  | cons c rest => simp [hr c rfl]

theorem decimalDigits_inj {m n : Nat} {rest rest' : List Char} (h : Ends rest) (h' : Ends rest')
    (same : decimalDigits m ++ rest = decimalDigits n ++ rest') : m = n ∧ rest = rest' := by
  have digits := congrArg (List.takeWhile Char.isDigit) same
  rw [takeWhile_digits (digits_of_decimal m) h, takeWhile_digits (digits_of_decimal n) h'] at digits
  have value (k : Nat) : Nat.ofDigitChars 10 (decimalDigits k) 0 = k :=
    Nat.ofDigitChars_toDigits (by decide) (by decide)
  have equal : m = n := by rw [← value m, ← value n, digits]
  subst equal
  exact ⟨rfl, List.append_cancel_left same⟩

theorem decimal_inj {m n : Int} {rest rest' : List Char} (h : Ends rest) (h' : Ends rest')
    (same : decimal m ++ rest = decimal n ++ rest') : m = n ∧ rest = rest' := by
  -- A sign is no digit.
  have signed {k : Nat} {rest rest' : List Char} : '-' :: rest ≠ decimalDigits k ++ rest' := by
    cases hk : decimalDigits k with
    | nil => exact absurd hk Nat.toDigits_ne_nil
    | cons c cs =>
      have digit : c.isDigit = true := digits_of_decimal k c (by simp [hk])
      intro same
      rw [← (List.cons.inj same).1] at digit
      exact absurd digit (by decide)
  unfold decimal at same
  split_ifs at same with hm hn hn
  · obtain ⟨digits, tails⟩ := decimalDigits_inj h h' (List.cons.inj same).2
    exact ⟨by omega, tails⟩
  · exact absurd same signed
  · exact absurd same.symm signed
  · obtain ⟨digits, tails⟩ := decimalDigits_inj h h' same
    exact ⟨by omega, tails⟩

/-! ## Values -/

/-- The kinds of values, told apart by their first character. -/
inductive Kind
  | text
  | number
  | list
  | object
  deriving DecidableEq, Repr

def Kind.opening? (c : Char) : Option Kind :=
  if c = '"' then some .text
  else if c = '[' then some .list
  else if c = '\x7b' then some .object
  else if c = '-' ∨ c.isDigit = true then some .number
  else none

def Value.kind : Value → Kind
  | .text _ => .text
  | .number _ => .number
  | .list _ => .list
  | .object _ => .object

theorem Value.opening?_render (v : Value) (rest : List Char) :
    (v.render ++ rest).head?.bind Kind.opening? = some v.kind := by
  cases v with
  | text s => rfl
  | number n =>
    have figure {c : Char} (h : c = '-' ∨ c.isDigit = true) : Kind.opening? c = some .number := by
      have plain : c ≠ '"' ∧ c ≠ '[' ∧ c ≠ '\x7b' := by
        refine ⟨?_, ?_, ?_⟩ <;> rintro rfl <;> revert h <;> decide
      simp [Kind.opening?, plain, h]
    unfold render decimal
    split_ifs
    · exact figure (.inl rfl)
    · cases hn : decimalDigits n.natAbs with
      | nil => exact absurd hn Nat.toDigits_ne_nil
      | cons c cs => exact figure (.inr (digits_of_decimal _ c (hn ▸ List.mem_cons_self)))
  | list vs => cases vs <;> rfl
  | object ms =>
    cases ms with
    | nil => rfl
    | cons m ms => rfl

theorem Value.kind_eq {v w : Value} {rest rest' : List Char}
    (same : v.render ++ rest = w.render ++ rest') : v.kind = w.kind := by
  rw [← Option.some_inj, ← v.opening?_render rest, same, w.opening?_render]

theorem Value.render_ne_bracket (v : Value) {rest rest' : List Char} :
    v.render ++ rest ≠ ']' :: rest' := by
  intro same
  have opening := v.opening?_render rest
  rw [same] at opening
  cases opening

theorem ends_cons {c : Char} {rest : List Char} (h : c.isDigit = false) : Ends (c :: rest) := by
  rintro d ⟨⟩
  exact h

theorem ends_items (vs : List Value) (rest : List Char) : Ends (renderItems vs ++ ']' :: rest) := by
  cases vs <;> exact ends_cons (by decide)

theorem ends_members (ms : List (String × Value)) (rest : List Char) :
    Ends (renderMembers ms ++ '\x7d' :: rest) := by
  cases ms with
  | nil => exact ends_cons (by decide)
  | cons m ms => exact ends_cons (by decide)

mutual

/-- A printed value is no start of another one. -/
theorem Value.render_inj (v w : Value) {rest rest' : List Char} (h : Ends rest) (h' : Ends rest')
    (same : v.render ++ rest = w.render ++ rest') : v = w ∧ rest = rest' := by
  have kind := Value.kind_eq same
  match v, w, kind with
  | .text s, .text t, _ =>
    obtain ⟨rfl, tails⟩ := quoted_inj same
    exact ⟨rfl, tails⟩
  | .number m, .number n, _ =>
    obtain ⟨rfl, tails⟩ := decimal_inj h h' same
    exact ⟨rfl, tails⟩
  | .list [], .list [], _ => exact ⟨rfl, List.append_cancel_left same⟩
  | .list [], .list (w :: ws), _ =>
    simp only [Value.render, List.cons_append, List.append_assoc, List.cons.injEq, true_and,
      List.nil_append] at same
    exact absurd same.symm w.render_ne_bracket
  | .list (v :: vs), .list [], _ =>
    simp only [Value.render, List.cons_append, List.append_assoc, List.cons.injEq, true_and,
      List.nil_append] at same
    exact absurd same v.render_ne_bracket
  | .list (v :: vs), .list (w :: ws), _ =>
    simp only [Value.render, List.cons_append, List.append_assoc, List.cons.injEq, true_and,
      List.nil_append] at same
    obtain ⟨rfl, behind⟩ := Value.render_inj v w (ends_items vs rest) (ends_items ws rest') same
    obtain ⟨rfl, tails⟩ := renderItems_inj vs ws behind
    exact ⟨rfl, tails⟩
  | .object [], .object [], _ => exact ⟨rfl, List.append_cancel_left same⟩
  | .object [], .object ((l, w) :: ns), _ => simp [Value.render, quoted] at same
  | .object ((k, v) :: ms), .object [], _ => simp [Value.render, quoted] at same
  | .object ((k, v) :: ms), .object ((l, w) :: ns), _ =>
    simp only [Value.render, List.cons_append, List.append_assoc, List.cons.injEq, true_and,
      List.nil_append] at same
    obtain ⟨rfl, behind⟩ := quoted_inj same
    obtain ⟨rfl, following⟩ := Value.render_inj v w (ends_members ms rest) (ends_members ns rest')
      (List.cons.inj behind).2
    obtain ⟨rfl, tails⟩ := renderMembers_inj ms ns following
    exact ⟨rfl, tails⟩

theorem renderItems_inj (vs ws : List Value) {rest rest' : List Char}
    (same : renderItems vs ++ ']' :: rest = renderItems ws ++ ']' :: rest') :
    vs = ws ∧ rest = rest' := by
  match vs, ws with
  | [], [] => exact ⟨rfl, (List.cons.inj same).2⟩
  | [], w :: ws => exact absurd (List.cons.inj same).1 (by decide)
  | v :: vs, [] => exact absurd (List.cons.inj same).1 (by decide)
  | v :: vs, w :: ws =>
    simp only [renderItems, List.cons_append, List.append_assoc, List.cons.injEq, true_and] at same
    obtain ⟨rfl, behind⟩ := Value.render_inj v w (ends_items vs rest) (ends_items ws rest') same
    obtain ⟨rfl, tails⟩ := renderItems_inj vs ws behind
    exact ⟨rfl, tails⟩

theorem renderMembers_inj (ms ns : List (String × Value)) {rest rest' : List Char}
    (same : renderMembers ms ++ '\x7d' :: rest = renderMembers ns ++ '\x7d' :: rest') :
    ms = ns ∧ rest = rest' := by
  match ms, ns with
  | [], [] => exact ⟨rfl, (List.cons.inj same).2⟩
  | [], (l, w) :: ns => exact absurd (List.cons.inj same).1 (by decide)
  | (k, v) :: ms, [] => exact absurd (List.cons.inj same).1 (by decide)
  | (k, v) :: ms, (l, w) :: ns =>
    simp only [renderMembers, List.cons_append, List.append_assoc, List.cons.injEq, true_and]
      at same
    obtain ⟨rfl, behind⟩ := quoted_inj same
    obtain ⟨rfl, following⟩ := Value.render_inj v w (ends_members ms rest) (ends_members ns rest')
      (List.cons.inj behind).2
    obtain ⟨rfl, tails⟩ := renderMembers_inj ms ns following
    exact ⟨rfl, tails⟩

end

theorem Value.toText_injective : Function.Injective Value.toText := by
  intro v w same
  have ends : Ends [] := nofun
  have rendered : v.render ++ [] = w.render ++ [] := by
    rw [List.append_nil, List.append_nil]
    exact String.ofList_injective same
  exact (Value.render_inj v w ends ends rendered).1

end Json

/-! ## Devices -/

theorem Text.utf8_injective : Function.Injective utf8 := by
  intro s t same
  rw [← Option.some_inj, ← ofUtf8?_utf8 s, same, ofUtf8?_utf8]

theorem Text.hexWord_injective : Function.Injective hexWord := by
  intro v w same
  rw [hexWord_eq, hexWord_eq] at same
  have halves := congrArg bytesOfHex? same
  rw [bytesOfHex?_hexBytes, bytesOfHex?_hexBytes] at halves
  simp only [Option.some.injEq, List.cons.injEq, and_true] at halves
  have high := congrArg UInt8.toNat halves.1
  have low := congrArg UInt8.toNat halves.2
  simp only [UInt16.toNat_toUInt8, UInt16.toNat_shiftRight] at high low
  have := v.toNat_lt
  have := w.toNat_lt
  refine UInt16.toNat_inj.1 ?_
  simp at high low
  omega

theorem Address.text_injective : Function.Injective Address.text := by
  intro a b same
  have read (a : Address) : parse? a.text = some a :=
    parse?_eq_some_iff.2 (octets_unsigned_iff.1 (octets_unsigned_iff_toLower.2 rfl)).1
  rw [← Option.some_inj, ← read a, same, read]

namespace Device

theorem serviceText_injective : Function.Injective serviceText := fun _ _ same =>
  Text.hexWord_injective (String.ofList_injective same)

theorem kind_injective {k l : AddressKind} (same : k.toByte.toNat = l.toByte.toNat) : k = l := by
  rw [← k.ofByte_toByte, ← l.ofByte_toByte, UInt8.toNat_inj.1 same]

/-- The members that may be missing have different keys, so that none takes the place of another. -/
theorem manufacturer_inj {c c' : Option UInt16} {t t' : Option String}
    (same :
      (c.map fun c => ("manufacturer_id", Json.Value.number c.toNat)).toList ++
          (t.map fun t => ("manufacturer_data", Json.Value.text t)).toList =
        (c'.map fun c => ("manufacturer_id", Json.Value.number c.toNat)).toList ++
          (t'.map fun t => ("manufacturer_data", Json.Value.text t)).toList) :
    c = c' ∧ t = t' := by
  cases c <;> cases c' <;> cases t <;> cases t' <;>
    simp [← UInt16.toNat_inj] at same ⊢ <;> exact same

theorem toJson_injective : Function.Injective toJson := by
  intro d e same
  simp only [toJson, Json.Value.object.injEq, List.cons_append, List.nil_append, List.cons.injEq,
    Prod.mk.injEq, true_and, Address.toJson, AddressKind.toJson, Json.Value.text.injEq,
    Json.Value.number.injEq, Json.Value.list.injEq, Int.natCast_inj] at same
  obtain ⟨address, name, rssi, services, kind, manufacturer⟩ := same
  have services : d.services = e.services :=
    List.map_injective_iff.2 (fun _ _ same => serviceText_injective (Json.Value.text.inj same))
      services
  obtain ⟨company, data⟩ := manufacturer_inj manufacturer
  obtain ⟨_, _, _, _, _, _, _⟩ := d
  obtain ⟨_, _, _, _, _, _, _⟩ := e
  simp only [Device.mk.injEq]
  exact ⟨Address.text_injective address, name, Int8.toInt_inj.1 rssi, services,
    kind_injective kind, company, data⟩

end Device

theorem devicesToText_injective :
    Function.Injective fun ds : List Device => (devicesToJson ds).toText := by
  intro ds es same
  exact Device.toJson_injective.list_map (Json.Value.list.inj (Json.Value.toText_injective same))

theorem Autoscan.payload_of_resultsMessage {m : Moment} {ds : List Device} {message : Message}
    (h : resultsMessage m ds = .ok message) :
    message.payload = Text.utf8 (devicesToJson ds).toText := by
  unfold resultsMessage encode Json.Value.textWithin? at h
  split_ifs at h
  · cases ht : m.topics.topic .scanResults with
    | ok topic =>
      rw [ht] at h
      cases h
      rfl
    | error e =>
      rw [ht] at h
      cases h
  · cases h

/-- The text of a scan cycle's devices determines them with all that it says of each, and so does
the payload of the message that publishes it. -/
theorem scan_results_unambiguous (rs rs' : List Report) :
    ((devicesToJson (devicesOf rs)).toText = (devicesToJson (devicesOf rs')).toText →
      devicesOf rs = devicesOf rs') ∧
    ∀ (m m' : Moment) (message message' : Message),
      Autoscan.resultsMessage m (devicesOf rs) = .ok message →
      Autoscan.resultsMessage m' (devicesOf rs') = .ok message' →
      message.payload = message'.payload → devicesOf rs = devicesOf rs' := by
  refine ⟨fun same => devicesToText_injective same, fun m m' message message' h h' same => ?_⟩
  rw [Autoscan.payload_of_resultsMessage h, Autoscan.payload_of_resultsMessage h'] at same
  exact devicesToText_injective (Text.utf8_injective same)

/-- A device whose name is made of a quote, a backslash, a line break and a letter of two bytes. -/
def Report.quoting : Report where
  address := ⟨#v[0xC0, 0xFF, 0xEE, 0x00, 0x00, 0x01]⟩
  kind := .random
  rssi := -40
  payload := [0x06, 0x09, 0x22, 0x5C, 0x0A, 0xC3, 0xA9, 0x04, 0xFF, 0x4C, 0x00, 0x02]

/-- A weaker report of the same device adds nothing to what is published. -/
theorem scan_results_of_weaker_report :
    let weaker : Report := { Report.quoting with rssi := -90 }
    (devicesToJson (devicesOf [.quoting])).toText =
      (devicesToJson (devicesOf [.quoting, weaker])).toText ∧
    devicesOf [.quoting] = devicesOf [.quoting, weaker] ∧
    ∃ m message, Autoscan.resultsMessage m (devicesOf [.quoting]) = .ok message ∧
      Autoscan.resultsMessage m (devicesOf [.quoting, weaker]) = .ok message ∧
      devicesOf [.quoting] = devicesOf [.quoting, weaker] := by
  intro weaker
  have same : (devicesToJson (devicesOf [.quoting])).toText =
      (devicesToJson (devicesOf [.quoting, weaker])).toText := by
    decide +kernel
  let m : Moment :=
    { timing := {}, topics := ⟨"gateway", by decide⟩, now := 0, online := true, alive := fun _ => true }
  have room : (devicesToJson (devicesOf [.quoting])).toText.utf8ByteSize ≤ maxScanBytes := by
    decide +kernel
  have published {ds : List Device}
      (text : (devicesToJson (devicesOf [.quoting])).toText = (devicesToJson ds).toText) :
      Autoscan.resultsMessage m ds =
        .ok ⟨⟨"gateway/scan/results", by decide⟩,
          Text.utf8 (devicesToJson (devicesOf [.quoting])).toText, .atMostOnce, false⟩ := by
    rw [text] at room ⊢
    rw [Autoscan.resultsMessage, Autoscan.encode, Json.Value.textWithin?, if_pos room]
    rfl
  exact ⟨same, (scan_results_unambiguous _ _).1 same, m, _, published rfl, published same,
    (scan_results_unambiguous _ _).2 m m _ _ (published rfl) (published same) rfl⟩

end GattGateway
