import GattGateway.Command
import GattGateway.Proofs.Recognition

/-!
# Payloads of connect commands

What a connect command asks for depends on two members of its payload and on nothing else: not on
their order, not on spaces and not on the other members, whatever these hold. The payload is refused
if one of the two is given twice, if the address is missing, if the kind is no number that fits a
byte, or if anything follows the object.
-/
namespace GattGateway

open Text Json

namespace Json

/-! ## What a value holds -/

/-- Digits without a leading zero are how the number that they spell is written. -/
theorem utf8_decimal_foldl {ds : Bytes} (filled : ds ≠ []) (digits : ∀ b ∈ ds, isDigit b = true)
    (leading : ds.head? ≠ some 0x30) :
    utf8 (Text.decimal (ds.foldl (fun n d => 10 * n + (d.toNat - 0x30)) 0)) = ds := by
  have single : ∀ b : UInt8, isDigit b = true →
      utf8 (Text.decimal (b.toNat - 0x30)) = [b] ∧ b.toNat - 0x30 < 10 :=
    forall_byte (P := fun b => isDigit b = true →
      utf8 (Text.decimal (b.toNat - 0x30)) = [b] ∧ b.toNat - 0x30 < 10) (by decide +kernel)
  induction ds using List.reverseRecOn with
  | nil => exact absurd rfl filled
  | append_singleton ds d ih =>
    obtain ⟨front, last⟩ := List.forall_mem_append.1 digits
    obtain ⟨written, small⟩ := single d (last d (by simp))
    rw [List.foldl_concat]
    by_cases first : ds = []
    · subst first
      simpa using written
    rw [List.head?_append_of_ne_nil _ first] at leading
    have ih := ih first front leading
    generalize ds.foldl (fun n d => 10 * n + (d.toNat - 0x30)) 0 = n at ih ⊢
    have positive : n ≠ 0 := by
      rintro rfl
      rw [← ih] at leading
      exact leading (by decide +kernel)
    have step : decimalDigits (10 * n + (d.toNat - 0x30)) =
        decimalDigits n ++ decimalDigits (d.toNat - 0x30) := by
      have tens : (10 * n + (d.toNat - 0x30)) / 10 = n := by omega
      have units : (10 * n + (d.toNat - 0x30)) % 10 = d.toNat - 0x30 := by omega
      rw [decimalDigits, Nat.toDigits_eq_if (by decide), if_neg (by omega), tens, units,
        decimalDigits, decimalDigits, Nat.toDigits_of_lt_base small]
    rw [Text.decimal, step, utf8_ofList, List.flatMap_append, ← utf8_ofList, ← utf8_ofList]
    exact congrArg₂ (· ++ ·) ih written

theorem readNumber_eq_some_nil {limit n : Nat} {b : UInt8} {bs : Bytes} (space : isSpace b = false)
    (h : readNumber limit (b :: bs) = some (n, [])) :
    n ≤ limit ∧ b :: bs = utf8 (Text.decimal n) := by
  simp only [readNumber, next?_cons space, Option.bind_eq_bind, Option.bind_some] at h
  split_ifs at h with zero digit small
  · cases h
    rw [zero]
    exact ⟨limit.zero_le, by decide +kernel⟩
  · obtain ⟨value, rest⟩ := Prod.mk.inj (Option.some.inj h)
    have all : ∀ c ∈ bs, isDigit c = true := List.dropWhile_eq_nil_iff.1 rest
    rw [List.takeWhile_eq_self_iff.2 all] at value small
    subst value
    refine ⟨small, (utf8_decimal_foldl (by simp) ?_ (by simpa using zero)).symm⟩
    exact List.forall_mem_cons.2 ⟨digit, all⟩

theorem Shape.whole?_eq_some_iff {shape : Shape} {v : Bytes} {x : Scalar} :
    shape.whole? v = some x ↔ shape.read v = some (x, []) := by
  rw [whole?, Option.bind_eq_some_iff]
  constructor
  · rintro ⟨⟨y, r⟩, read, h⟩
    split_ifs at h with nothing
    obtain rfl : r = [] := nothing
    cases h
    exact read
  · exact fun read => ⟨_, read, if_pos rfl⟩

/-- A number that fits, plainly written. -/
theorem Shape.whole?_number {limit : Nat} {v : Bytes} {x : Scalar} (h : loose.Value v) :
    (Shape.number limit).whole? v = some x ↔
      ∃ n ≤ limit, v = utf8 (Text.decimal n) ∧ x = .number n := by
  rw [whole?_eq_some_iff]
  constructor
  · intro read
    obtain ⟨b, bs, rfl, space, -⟩ := h.skimmed.opens
    simp only [Shape.read, Option.bind_eq_bind, Option.bind_eq_some_iff] at read
    obtain ⟨⟨n, r⟩, read, h⟩ := read
    cases h
    obtain ⟨small, written⟩ := readNumber_eq_some_nil space read
    exact ⟨n, small, written, rfl⟩
  · rintro ⟨n, small, rfl, rfl⟩
    have read := readNumber_decimal small .nil
    rw [List.append_nil] at read
    simp [Shape.read, read]

theorem isInner_of_between {s : String} (h : loose.Value (between s)) : IsInner (utf8 s) := by
  generalize same : between s = v at h
  cases h with
  | @text t h =>
    simp only [between, List.cons_append, List.cons.injEq, true_and, List.append_cancel_right_eq]
      at same
    rw [same]
    exact h
  | bare h =>
    obtain ⟨b, bs, rfl, opens⟩ := h.opens
    cases same
    exact absurd opens (by decide)
  | list layout each => cases same
  | object layout keys each => cases layout <;> cases same

/-- A text, as it stands between its quotes. -/
theorem Shape.whole?_text {v : Bytes} {x : Scalar} (h : loose.Value v) :
    Shape.text.whole? v = some x ↔ ∃ s, v = between s ∧ x = .text s := by
  rw [whole?_eq_some_iff]
  constructor
  · intro read
    obtain ⟨b, bs, rfl, space, -⟩ := h.skimmed.opens
    simp only [Shape.read, next?_cons space, Option.bind_eq_bind, Option.bind_some] at read
    split_ifs at read with mark
    simp only [Option.bind_eq_some_iff] at read
    obtain ⟨⟨s, r⟩, text, h⟩ := read
    cases h
    obtain ⟨rfl, -⟩ := readText_sound text
    exact ⟨s, by simp [between, mark], rfl⟩
  · rintro ⟨s, rfl, rfl⟩
    have opening : next? (between s) = some (quote, utf8 s ++ [quote]) := next?_cons rfl _
    simp [Shape.read, opening, readText_of_isInner (isInner_of_between h)]

/-! ## What an object holds -/

/-- The values of the members with this key. -/
def given (ms : List (String × Bytes)) (key : String) : List Bytes :=
  (ms.filter (·.1 = key)).map Prod.snd

theorem mem_given {ms : List (String × Bytes)} {key : String} {v : Bytes} :
    v ∈ given ms key ↔ (key, v) ∈ ms := by
  simp [given]

theorem length_given (ms : List (String × Bytes)) (key : String) :
    (given ms key).length = (ms.map Prod.fst).count key := by
  induction ms with
  | nil => rfl
  | cons m ms ih =>
    by_cases h : m.1 = key <;> simp_all [given]

theorem keys_of_known? {fields : String → Option Shape} {ms : List (String × Bytes)}
    {known : List (String × Scalar)} (h : known? fields ms = some known) :
    known.map Prod.fst = (ms.map Prod.fst).filter fun key => (fields key).isSome := by
  induction ms generalizing known with
  | nil =>
    cases h
    rfl
  | cons m ms ih =>
    obtain ⟨key, v⟩ := m
    cases hf : fields key with
    | none =>
      simp only [known?, hf] at h
      simpa [hf] using ih h
    | some shape =>
      simp only [known?, hf, Option.bind_eq_some_iff, Option.map_eq_some_iff] at h
      obtain ⟨x, -, known, rest, rfl⟩ := h
      simpa [hf] using ih rest

theorem isSome_known?_iff {fields : String → Option Shape} {ms : List (String × Bytes)} :
    (known? fields ms).isSome = true ↔
      ∀ m ∈ ms, ∀ shape ∈ fields m.1, (shape.whole? m.2).isSome = true := by
  induction ms with
  | nil => simp [known?]
  | cons m ms ih =>
    obtain ⟨key, v⟩ := m
    rw [List.forall_mem_cons, ← ih]
    cases hf : fields key with
    | none => simp [known?, hf]
    | some shape => cases hv : shape.whole? v <;> simp [known?, hf, hv]

theorem lookup_of_known? {fields : String → Option Shape} {ms : List (String × Bytes)}
    {known : List (String × Scalar)} (h : known? fields ms = some known) {key : String}
    {shape : Shape} (hs : fields key = some shape) :
    known.lookup key = (given ms key).head?.bind shape.whole? := by
  induction ms generalizing known with
  | nil =>
    cases h
    rfl
  | cons m ms ih =>
    obtain ⟨k, v⟩ := m
    cases hf : fields k with
    | none =>
      have other : k ≠ key := by
        rintro rfl
        simp [hf] at hs
      simp only [known?, hf] at h
      simpa [given, other] using ih h
    | some shape' =>
      simp only [known?, hf, Option.bind_eq_some_iff, Option.map_eq_some_iff] at h
      obtain ⟨x, whole, known, rest, rfl⟩ := h
      by_cases same : key = k
      · subst same
        rw [hs] at hf
        cases hf
        simp [given, whole]
      · have := ih rest
        simpa [given, List.lookup_cons, beq_eq_false_iff_ne.2 same, Ne.symm same] using this

/-- Each known member stands once at most and holds what is expected of it. -/
structure Holds (fields : String → Option Shape) (ms : List (String × Bytes)) : Prop where
  once : ∀ key, (fields key).isSome = true → (given ms key).length ≤ 1
  whole : ∀ key, ∀ shape ∈ fields key, ∀ v ∈ given ms key, (shape.whole? v).isSome = true

theorem Holds.cases {fields : String → Option Shape} {ms : List (String × Bytes)}
    (h : Holds fields ms) {key : String} {shape : Shape} (hs : fields key = some shape) :
    given ms key = [] ∨ ∃ v x, given ms key = [v] ∧ shape.whole? v = some x := by
  have once := h.once key (by simp [hs])
  have whole := h.whole key shape hs
  cases hg : given ms key with
  | nil => exact .inl rfl
  | cons v vs =>
    rw [hg, List.length_cons] at once
    obtain rfl : vs = [] := List.length_eq_zero_iff.1 (by omega)
    obtain ⟨x, hx⟩ := Option.isSome_iff_exists.1 (whole v (by simp [hg]))
    exact .inr ⟨v, x, rfl, hx⟩

theorem nodup_of_known?_iff {fields : String → Option Shape} {ms : List (String × Bytes)}
    {known : List (String × Scalar)} (h : known? fields ms = some known) :
    (known.map Prod.fst).Nodup ↔ ∀ key, (fields key).isSome = true → (given ms key).length ≤ 1 := by
  rw [keys_of_known? h, List.nodup_iff_count_le_one]
  refine forall_congr' fun key => ?_
  rw [length_given]
  by_cases known : (fields key).isSome = true
  · rw [List.count_filter (p := fun key => (fields key).isSome) known]
    simp [known]
  · have : key ∉ (ms.map Prod.fst).filter fun key => (fields key).isSome := by simp_all
    simp [List.count_eq_zero.2 this, known]

/-- A record is read from an object exactly if the object holds one and nothing follows it. -/
theorem isSome_readRecord?_iff {fields : String → Option Shape} {ms : List (String × Bytes)}
    {bs rest : Bytes} (h : loose.Opens ms bs rest) :
    (readRecord? fields bs).isSome = true ↔ Blank rest ∧ Holds fields ms := by
  have whole : (known? fields ms).isSome = true ↔
      ∀ key, ∀ shape ∈ fields key, ∀ v ∈ given ms key, (shape.whole? v).isSome = true := by
    rw [isSome_known?_iff]
    exact ⟨fun each key shape hs v hv => each (key, v) (mem_given.1 hv) shape hs,
      fun each m hm shape hs => each m.1 shape hs m.2 (mem_given.2 hm)⟩
  rw [readRecord?_of_opens h]
  cases hk : known? fields ms with
  | none =>
    simp only [hk, Option.isSome_none, Bool.false_eq_true, false_iff] at whole
    simpa using fun _ (holds : Holds fields ms) => whole holds.whole
  | some known =>
    rw [hk] at whole
    have distinct := nodup_of_known?_iff hk
    rw [Option.bind_some]
    constructor
    · intro read
      split_ifs at read with taken
      · exact ⟨taken.1, distinct.1 taken.2, whole.1 rfl⟩
      · cases read
    · rintro ⟨blank, holds⟩
      rw [if_pos ⟨blank, distinct.2 holds.once⟩]
      rfl

theorem lookup_of_readRecord? {fields : String → Option Shape} {ms : List (String × Bytes)}
    {bs rest : Bytes} {known : List (String × Scalar)} (h : loose.Opens ms bs rest)
    (read : readRecord? fields bs = some known) {key : String} {shape : Shape}
    (hs : fields key = some shape) :
    known.lookup key = (given ms key).head?.bind shape.whole? := by
  rw [readRecord?_of_opens h, Option.bind_eq_some_iff] at read
  obtain ⟨known', hk, taken⟩ := read
  split_ifs at taken
  cases taken
  exact lookup_of_known? hk hs

end Json

namespace Command

/-! ## What a payload asks for -/

theorem connectShape_eq_some_iff {key : String} {shape : Shape} : connectShape key = some shape ↔
    key = "address" ∧ shape = .text ∨ key = "addr_type" ∧ shape = .number 255 := by
  unfold connectShape
  split
  · simp [eq_comm]
  · simp [eq_comm]
  · rename_i address kind
    simp [show key ≠ "address" from address, show key ≠ "addr_type" from kind]

theorem connectShape_address : connectShape "address" = some .text := rfl

theorem connectShape_kind : connectShape "addr_type" = some (.number 255) := rfl

/-- The members hold a text for the address and at most a number that fits a byte for the kind, and
nothing follows them. -/
structure Asks (ms : List (String × Bytes)) (rest : Bytes) (s : String) (t? : Option Nat) :
    Prop where
  alone : Blank rest
  address : given ms "address" = [between s]
  kind : given ms "addr_type" = t?.toList.map fun t => utf8 (Text.decimal t)
  small : ∀ t ∈ t?, t ≤ 255

/-- The peer at an address that is yet to be read. -/
def peerAt (s : String) (t? : Option Nat) : Except Fault Peer :=
  match Address.parse? s with
  | none => .error .invalidAddress
  | some a => .ok ⟨a, .ofByte (UInt8.ofNat (t?.getD 0))⟩

section Payload

variable {ms : List (String × Bytes)} {bs rest : Bytes} (h : loose.Opens ms bs rest)
include h

theorem value_of_given {key : String} {v : Bytes} (hv : v ∈ given ms key) : loose.Value v := by
  obtain ⟨_, _, _, _, _, each, _⟩ := h
  exact each _ (mem_given.1 hv)

theorem holds_of_asks {s : String} {t? : Option Nat} (asks : Asks ms rest s t?) :
    Holds connectShape ms where
  once := by
    intro key known
    obtain ⟨shape, hs⟩ := Option.isSome_iff_exists.1 known
    rcases connectShape_eq_some_iff.1 hs with ⟨rfl, -⟩ | ⟨rfl, -⟩
    · simp [asks.address]
    · rw [asks.kind]
      cases t? <;> simp
  whole := by
    intro key shape hs v hv
    have value := value_of_given h hv
    rcases connectShape_eq_some_iff.1 hs with ⟨rfl, rfl⟩ | ⟨rfl, rfl⟩
    · rw [asks.address, List.mem_singleton] at hv
      exact Option.isSome_iff_exists.2 ⟨_, (Shape.whole?_text value).2 ⟨s, hv, rfl⟩⟩
    · simp only [asks.kind, List.mem_map, Option.mem_toList] at hv
      obtain ⟨t, ht, rfl⟩ := hv
      exact Option.isSome_iff_exists.2
        ⟨_, (Shape.whole?_number value).2 ⟨t, asks.small t ht, rfl, rfl⟩⟩

theorem peerOf_of_asks {s : String} {t? : Option Nat} (asks : Asks ms rest s t?) :
    peerOf bs = peerAt s t? := by
  obtain ⟨known, read⟩ := Option.isSome_iff_exists.1
    ((isSome_readRecord?_iff h).2 ⟨asks.alone, holds_of_asks h asks⟩)
  have text : textOf? known "address" = some s := by
    have given : between s ∈ given ms "address" := by simp [asks.address]
    have whole : Shape.text.whole? (between s) = some (.text s) :=
      (Shape.whole?_text (value_of_given h given)).2 ⟨s, rfl, rfl⟩
    have := lookup_of_readRecord? h read connectShape_address
    simp only [textOf?, this, asks.address, List.head?_cons, Option.bind_some, whole]
  have number : numberOf? known "addr_type" = t? := by
    have := lookup_of_readRecord? h read connectShape_kind
    cases t? with
    | none => simp [numberOf?, this, asks.kind]
    | some t =>
      have given : utf8 (Text.decimal t) ∈ given ms "addr_type" := by simp [asks.kind]
      have whole : (Shape.number 255).whole? (utf8 (Text.decimal t)) = some (.number t) :=
        (Shape.whole?_number (value_of_given h given)).2 ⟨t, asks.small t rfl, rfl, rfl⟩
      simp [numberOf?, this, asks.kind, whole]
  simp only [peerOf, read, text, number]
  rfl

theorem exists_asks {known : List (String × Scalar)} {s : String}
    (read : readRecord? connectShape bs = some known) (text : textOf? known "address" = some s) :
    ∃ t?, Asks ms rest s t? := by
  obtain ⟨alone, holds⟩ := (isSome_readRecord?_iff h).1 (Option.isSome_iff_exists.2 ⟨_, read⟩)
  have address : given ms "address" = [between s] := by
    have lookup := lookup_of_readRecord? h read connectShape_address
    rcases holds.cases connectShape_address with hg | ⟨v, x, hg, whole⟩
    · simp [textOf?, lookup, hg] at text
    · have value := value_of_given h (show v ∈ given ms "address" by simp [hg])
      obtain ⟨s', rfl, rfl⟩ := (Shape.whole?_text value).1 whole
      simp only [textOf?, lookup, hg, List.head?_cons, Option.bind_some, whole,
        Option.some.injEq] at text
      rw [hg, text]
  rcases holds.cases connectShape_kind with hg | ⟨v, x, hg, whole⟩
  · exact ⟨none, alone, address, by simp [hg], by simp⟩
  · have value := value_of_given h (show v ∈ given ms "addr_type" by simp [hg])
    obtain ⟨t, small, rfl, rfl⟩ := (Shape.whole?_number value).1 whole
    exact ⟨some t, alone, address, by simp [hg], by simpa using small⟩

theorem peerOf_of_not_asks (none : ∀ s t?, ¬ Asks ms rest s t?) :
    peerOf bs = .error .invalidPayload := by
  unfold peerOf
  split
  · rfl
  · rename_i known read
    split
    · rfl
    · rename_i s text
      obtain ⟨t?, asks⟩ := exists_asks h read text
      exact absurd asks (none s t?)

end Payload

/-! ## Good and bad payloads -/

/-- A payload that asks for the peer at `a`: an object that holds the address, in any letter case,
and the kind if there is one, among any other members, in any order and with spaces anywhere. -/
def Connects (a : Address) (t? : Option UInt8) (bs : Bytes) : Prop :=
  ∃ ms rest s, standard.Opens ms bs rest ∧ Blank rest ∧ given ms "address" = [between s] ∧
    s.toLower = a.text.toLower ∧
    given ms "addr_type" = t?.toList.map fun t => utf8 (Text.decimal t.toNat)

/-- What makes a payload useless, whatever else is in it. -/
inductive Defect (ms : List (String × Bytes)) (rest : Bytes) : Prop
  | missing (h : given ms "address" = [])
  | repeated {key : String} (known : key = "address" ∨ key = "addr_type")
      (h : 2 ≤ (given ms key).length)
  | kind {v : Bytes} (h : v ∈ given ms "addr_type")
      (unfit : ∀ t : UInt8, v ≠ utf8 (Text.decimal t.toNat))
  | followed (h : ¬ Blank rest)

theorem parse?_of_toLower {s : String} {a : Address} (h : s.toLower = a.text.toLower) :
    Address.parse? s = some a :=
  Address.parse?_eq_some_iff.2
    (octets_unsigned_iff.1 (Address.octets_unsigned_iff_toLower.2 h)).1

theorem parse_of_connects {a : Address} {t? : Option UInt8} {bs : Bytes} (h : Connects a t? bs) :
    parse .connect bs =
      .ok (.connect ⟨a, if t?.getD 0 = 0 then .registered else .random⟩) := by
  obtain ⟨ms, rest, s, opens, alone, address, same, kind⟩ := h
  have asks : Asks ms rest s (t?.map UInt8.toNat) := by
    refine ⟨alone, address, by rw [kind]; cases t? <;> rfl, ?_⟩
    simp only [Option.mem_map]
    rintro _ ⟨t, -, rfl⟩
    have := t.toNat_lt
    omega
  have byte : UInt8.ofNat ((t?.map UInt8.toNat).getD 0) = t?.getD 0 := by
    cases t? with
    | none => rfl
    | some t => exact UInt8.ofNat_toNat
  rw [parse, peerOf_of_asks (opens.within standard_within_loose) asks, peerAt,
    parse?_of_toLower same, byte]
  rfl

theorem Defect.not_asks {ms : List (String × Bytes)} {rest : Bytes} (h : Defect ms rest)
    (s : String) (t? : Option Nat) : ¬ Asks ms rest s t? := by
  rintro ⟨alone, address, kind, small⟩
  cases h with
  | missing h => simp [address] at h
  | repeated known h =>
    rcases known with rfl | rfl
    · simp [address] at h
    · rw [kind] at h
      cases t? <;> simp at h
  | kind h unfit =>
    simp only [kind, List.mem_map, Option.mem_toList] at h
    obtain ⟨t, ht, rfl⟩ := h
    refine unfit (UInt8.ofNat t) ?_
    have := small t ht
    rw [UInt8.toNat_ofNat', Nat.mod_eq_of_lt (by omega)]
  | followed h => exact h alone

theorem parse_of_defect {ms : List (String × Bytes)} {bs rest : Bytes}
    (h : loose.Opens ms bs rest) (defect : Defect ms rest) :
    parse .connect bs = .error .invalidPayload := by
  rw [parse, peerOf_of_not_asks h defect.not_asks]
  rfl

theorem parse_of_not_opens {bs : Bytes} (h : ∀ ms rest, ¬ loose.Opens ms bs rest) :
    parse .connect bs = .error .invalidPayload := by
  have unread : readRecord? connectShape bs = none := by
    refine Option.eq_none_iff_forall_ne_some.2 fun known read => ?_
    obtain ⟨ms, rest, opens⟩ := exists_opens_of_readRecord? read
    exact h ms rest opens
  simp [parse, peerOf, unread, Except.map]

/-- A connect command is read off the two members of its payload that it knows. -/
theorem connect_payload_by_members :
    (∀ a t? bs, Connects a t? bs → parse .connect bs =
      .ok (.connect ⟨a, if t?.getD 0 = 0 then .registered else .random⟩)) ∧
    (∀ ms bs rest, loose.Opens ms bs rest → Defect ms rest →
      parse .connect bs = .error .invalidPayload) ∧
    (∀ bs, (∀ ms rest, ¬ loose.Opens ms bs rest) → parse .connect bs = .error .invalidPayload) ∧
    ∀ ms bs rest, standard.Opens ms bs rest → loose.Opens ms bs rest :=
  ⟨fun _ _ _ => parse_of_connects, fun _ _ _ => parse_of_defect, fun _ => parse_of_not_opens,
    fun _ _ _ opens => opens.within standard_within_loose⟩

/-- Brackets, braces and quotes inside each other. -/
def nested : Bytes := utf8 "[\"x]\\\"y\", \x7b\"k\":[1,-2.5e+3,null]\x7d]"

theorem value_nested : standard.Value nested := by
  have nothing := Blank.nil
  have one : standard.Value (utf8 "1") :=
    .bare (.inl ⟨[], utf8 "1", [], [], rfl, .inl rfl, .inr (by decide +kernel), .inl rfl, .inl rfl⟩)
  have fraction : standard.Value (utf8 "-2.5e+3") :=
    .bare (.inl ⟨utf8 "-", utf8 "2", utf8 ".5", utf8 "e+3", by decide +kernel, .inr rfl,
      .inr (by decide +kernel), .inr ⟨utf8 "5", by decide +kernel⟩,
      .inr ⟨utf8 "e", utf8 "+", utf8 "3", by decide +kernel⟩⟩)
  have null : standard.Value (utf8 "null") := .bare (.inr (by decide))
  have numbers : standard.Value (utf8 "[1,-2.5e+3,null]") := by
    have layout : standard.items [utf8 "1", utf8 "-2.5e+3", utf8 "null"] (utf8 "1,-2.5e+3,null") :=
      Or.inr (.cons nothing nothing (.cons nothing nothing (.last nothing nothing)))
    exact .list layout (by simp [one, fraction, null])
  have object : standard.Value (utf8 "\x7b\"k\":[1,-2.5e+3,null]\x7d") := by
    have layout : LaysMembers [("k", utf8 "[1,-2.5e+3,null]")] (utf8 "\"k\":[1,-2.5e+3,null]") :=
      .last ⟨[], [], [], [], nothing, nothing, nothing, nothing, by decide +kernel⟩
    refine .object (.filled layout) (List.forall_mem_singleton.2 ?_)
      (List.forall_mem_singleton.2 numbers)
    exact isEscaped_of_literal (by decide)
  have text : standard.Value (between "x]\\\"y") :=
    .text (.plain (by decide) (.plain (by decide) (.mark (by decide) (.plain (by decide) .nil))))
  have space : Blank (utf8 " ") := by decide +kernel
  have layout : standard.items [between "x]\\\"y", utf8 "\x7b\"k\":[1,-2.5e+3,null]\x7d"]
      (between "x]\\\"y" ++ comma :: utf8 " \x7b\"k\":[1,-2.5e+3,null]\x7d") :=
    Or.inr (.cons nothing nothing (.last space nothing))
  exact .list layout (by simp [text, object])

/-- A payload with the kind before the address, and with a member that is not read. -/
def mixed : Bytes :=
  utf8 " \x7b\"note\":" ++ nested ++
    utf8 ",\n\"addr_type\" : 7,\"address\":\"c0:ff:Ee:00:01:2b\"\x7d\n"

theorem opens_mixed : standard.Opens [("note", nested), ("addr_type", utf8 "7"),
    ("address", between "c0:ff:Ee:00:01:2b")] mixed (utf8 "\n") := by
  have nothing := Blank.nil
  have space : Blank (utf8 " ") ∧ Blank (utf8 "\n") := by decide +kernel
  have kind : standard.Value (utf8 "7") :=
    .bare (.inl ⟨[], utf8 "7", [], [], rfl, .inl rfl, .inr (by decide +kernel), .inl rfl, .inl rfl⟩)
  have address : standard.Value (between "c0:ff:Ee:00:01:2b") :=
    .text (isEscaped_of_literal (by decide +kernel))
  have keys : ∀ s ∈ ["note", "addr_type", "address"], Literal s := by decide +kernel
  refine ⟨utf8 " ", _, space.1, .filled
    (.cons ⟨[], [], [], [], nothing, nothing, nothing, nothing, rfl⟩
      (.cons ⟨utf8 "\n", utf8 " ", utf8 " ", [], space.2, space.1, space.1, nothing, rfl⟩
        (.last ⟨[], [], [], [], nothing, nothing, nothing, nothing, rfl⟩))), ?_, ?_,
    by decide +kernel⟩
  · exact fun m hm => isEscaped_of_literal (keys m.1 (List.mem_map_of_mem (f := Prod.fst) hm))
  · simp [value_nested, kind, address]

theorem connect_payload_by_mixed_members :
    let a : Address := ⟨#v[0xC0, 0xFF, 0xEE, 0x00, 0x01, 0x2B]⟩
    Connects a (some 7) mixed ∧ parse .connect mixed = .ok (.connect ⟨a, .random⟩) ∧
      parse .connect (mixed ++ utf8 "x") = .error .invalidPayload ∧
      parse .connect (utf8 "not json") = .error .invalidPayload := by
  intro a
  have lower (s : String) : s.toLower.toList = s.toList.map Char.toLower := String.toList_map
  have same : "c0:ff:Ee:00:01:2b".toLower = a.text.toLower := by
    rw [← String.toList_inj, lower, lower]
    decide +kernel
  have connects : Connects a (some 7) mixed := ⟨_, _, "c0:ff:Ee:00:01:2b", opens_mixed,
    by decide +kernel, by decide +kernel, same, by decide +kernel⟩
  obtain ⟨read, defective, unopened, within⟩ := connect_payload_by_members
  have random := read a (some 7) mixed connects
  rw [if_neg (by decide)] at random
  refine ⟨connects, random, ?_, ?_⟩
  · exact defective _ _ _ (within _ _ _ (opens_mixed.append _)) (.followed (by decide +kernel))
  · refine unopened _ fun ms rest opens => ?_
    have other : (next? (utf8 "not json")).map Prod.fst ≠ some openBrace := by decide +kernel
    obtain ⟨tail, next⟩ := opens.next?
    simp [next] at other

end Command

end GattGateway
