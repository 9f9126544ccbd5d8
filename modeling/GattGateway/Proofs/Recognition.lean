import GattGateway.Proofs.Skimming

/-!
# What the reader takes is an object

Whatever the reader of records takes is an object of the loose reading of JSON, with its members
and their values. Bytes that are no such object are refused.
-/
namespace GattGateway.Json

open Text (Bytes utf8 ofUtf8?)

/-! ## Texts -/

theorem utf8_of_ofUtf8? {bs : Bytes} {s : String} (h : ofUtf8? bs = some s) : utf8 s = bs := by
  simp only [ofUtf8?, String.fromUTF8?] at h
  split_ifs at h with valid
  cases h
  refine List.toArray_inj ?_
  rw [← List.data_toByteArray, Text.toByteArray_utf8]
  exact List.data_toByteArray

theorem spanText_sound {escaped : Bool} {bs inner r : Bytes}
    (h : spanText escaped bs = some (inner, r)) : bs = inner ++ quote :: r ∧
      if escaped then ∃ b tail, inner = b :: tail ∧ IsInner tail else IsInner inner := by
  induction bs generalizing escaped inner with
  | nil => simp [spanText] at h
  | cons b bs ih =>
    rw [spanText] at h
    split_ifs at h with closing
    · cases h
      simp [closing.1, closing.2, IsInner.nil]
    simp only [Option.map_eq_some_iff, Prod.mk.injEq] at h
    obtain ⟨⟨inner, r⟩, h, rfl, rfl⟩ := h
    obtain ⟨rfl, inside⟩ := ih h
    refine ⟨rfl, ?_⟩
    cases escaped with
    | true => exact ⟨b, inner, rfl, by simpa using inside⟩
    | false =>
      by_cases mark : b = backslash
      · -- the byte behind the backslash goes by with it
        simp only [mark, beq_self_eq_true, Bool.not_false, Bool.and_self, if_true] at inside
        obtain ⟨c, tail, rfl, inside⟩ := inside
        simpa [mark] using IsInner.pair c inside
      · have plain : (b == backslash) = false := by simpa using mark
        simp only [plain, Bool.false_and, Bool.false_eq_true, if_false] at inside
        simpa using IsInner.plain (by simpa using closing) mark inside

theorem readText_sound {bs r : Bytes} {s : String} (h : readText bs = some (s, r)) :
    bs = utf8 s ++ quote :: r ∧ IsInner (utf8 s) := by
  simp only [readText, Option.bind_eq_bind, Option.bind_eq_some_iff] at h
  obtain ⟨⟨inner, r⟩, span, s, text, h⟩ := h
  cases h
  rw [utf8_of_ofUtf8? text]
  exact spanText_sound span

/-! ## Known values -/

theorem readNumber_sound {limit n : Nat} {bs r : Bytes} (h : readNumber limit bs = some (n, r)) :
    ∃ a v, Blank a ∧ Digits v ∧ bs = a ++ v ++ r := by
  simp only [readNumber, Option.bind_eq_bind, Option.bind_eq_some_iff] at h
  obtain ⟨⟨b, rest⟩, next, h⟩ := h
  obtain ⟨a, blank, -, rfl⟩ := next?_eq_some_iff.1 next
  split_ifs at h with zero digit
  · cases h
    exact ⟨a, [b], blank, ⟨by simp, by simp [show b = 0x30 from zero]; decide⟩, by simp⟩
  · cases h
    refine ⟨a, b :: rest.takeWhile isDigit, blank, ⟨by simp, ?_⟩, ?_⟩
    · exact List.forall_mem_cons.2 ⟨digit, fun c hc => List.mem_takeWhile_imp hc⟩
    · simp

theorem readQuoted_sound {bs r : Bytes} {x : Scalar} (h : Shape.text.read bs = some (x, r)) :
    ∃ a v, Blank a ∧ loose.Value v ∧ bs = a ++ v ++ r := by
  simp only [Shape.read, Option.bind_eq_bind, Option.bind_eq_some_iff] at h
  obtain ⟨⟨b, rest⟩, next, h⟩ := h
  obtain ⟨a, blank, -, rfl⟩ := next?_eq_some_iff.1 next
  split_ifs at h with mark
  obtain rfl : b = quote := mark
  simp only [Option.bind_eq_some_iff] at h
  obtain ⟨⟨s, rest'⟩, read, h⟩ := h
  cases h
  obtain ⟨rfl, inner⟩ := readText_sound read
  exact ⟨a, between s, blank, .text inner, by simp [between]⟩

/-- What a shape takes is a value. -/
theorem Shape.read_sound {shape : Shape} {bs r : Bytes} {x : Scalar}
    (h : shape.read bs = some (x, r)) : ∃ a v, Blank a ∧ loose.Value v ∧ bs = a ++ v ++ r := by
  cases shape with
  | text => exact readQuoted_sound h
  | optionalText =>
    obtain ⟨⟨b, rest⟩, next⟩ : ∃ p, next? bs = some p := by
      refine Option.ne_none_iff_exists'.1 fun none => ?_
      simp [Shape.read, none] at h
    by_cases mark : b = quote
    · refine readQuoted_sound (x := x) ?_
      rw [← h]
      simp [Shape.read, next, mark]
    · obtain ⟨a, blank, space, rfl⟩ := next?_eq_some_iff.1 next
      rw [Shape.read_blank _ blank] at h
      obtain ⟨_, same, hp⟩ := (readOptionalText_eq_some_iff space mark).1 h
      cases hp
      have null : IsBare (utf8 "null") := isBare_of_mem_words (by simp)
      exact ⟨a, _, blank, .bare null, by rw [same, List.append_assoc]⟩
  | number limit =>
    simp only [Shape.read, Option.bind_eq_bind, Option.bind_eq_some_iff] at h
    obtain ⟨⟨n, rest⟩, read, h⟩ := h
    cases h
    obtain ⟨a, v, blank, digits, rfl⟩ := readNumber_sound read
    exact ⟨a, v, blank, .bare (isBare_of_digits digits), rfl⟩

/-! ## Values without a use -/

/-- A bare value ends before the spaces that precede the delimiter. -/
theorem exists_isBare {b : UInt8} {bs : Bytes} (opens : opensBare b = true)
    (plain : ∀ c ∈ bs, isDelimiter c = false) :
    ∃ v s, IsBare v ∧ Blank s ∧ b :: bs = v ++ s := by
  have prefixed := List.rdropWhile_prefix isSpace (b :: bs)
  have filled : (b :: bs).rdropWhile isSpace ≠ [] := by
    rw [Ne, List.rdropWhile_eq_nil_iff]
    intro spaces
    have := spaces b List.mem_cons_self
    simp [not_isSpace_of_opensBare opens] at this
  refine ⟨(b :: bs).rdropWhile isSpace, (b :: bs).rtakeWhile isSpace, ⟨?_, ?_, ?_⟩,
    fun c hc => List.mem_rtakeWhile_imp hc, List.rdropWhile_append_rtakeWhile.symm⟩
  · obtain ⟨c, tail, cons⟩ := List.exists_cons_of_ne_nil filled
    rw [cons, List.cons_prefix_cons] at prefixed
    obtain ⟨rfl, -⟩ := prefixed
    exact ⟨c, tail, cons, opens⟩
  · intro c hc
    rcases List.mem_cons.1 (prefixed.subset hc) with rfl | hc
    · exact not_isDelimiter_of_opensBare opens
    · exact plain c hc
  · intro c hc
    rw [List.getLast?_eq_getLast_of_ne_nil filled] at hc
    cases hc
    simpa using List.rdropWhile_last_not isSpace _ filled

theorem skipBare_sound {bs r : Bytes} (h : skipBare bs = some r) :
    ∃ plain, (∀ c ∈ plain, isDelimiter c = false) ∧ Delimited r ∧ bs = plain ++ r := by
  unfold skipBare at h
  split at h
  · cases h
  rename_i d tail drop
  cases h
  have split := List.takeWhile_append_dropWhile (p := (! isDelimiter ·)) (l := bs)
  have delimiter := List.head_dropWhile_not (! isDelimiter ·) (l := bs) (by simp [drop])
  simp only [drop, List.head_cons, Bool.not_eq_false'] at delimiter
  rw [drop] at split
  have space : isSpace d = false := by
    refine Bool.eq_false_iff.2 fun space => ?_
    simp [not_isDelimiter_of_isSpace space] at delimiter
  refine ⟨bs.takeWhile (! isDelimiter ·), fun c hc => ?_, .of_cons space delimiter, split.symm⟩
  simpa using List.mem_takeWhile_imp hc

/-! ## Behind a member -/

/-- What follows a member, up to the closing brace. -/
inductive LaysRest : List (String × Bytes) → Bytes → Prop
  | nil {a : Bytes} (ha : Blank a) : LaysRest [] (a ++ [closeBrace])
  | comma {a bs : Bytes} {ms : List (String × Bytes)} (ha : Blank a) (hs : LaysMembers ms bs) :
      LaysRest ms (a ++ comma :: bs ++ [closeBrace])

theorem LaysRest.blank {ms : List (String × Bytes)} {a bs : Bytes} (ha : Blank a)
    (h : LaysRest ms bs) : LaysRest ms (a ++ bs) := by
  cases h with
  | nil ha' => simpa using LaysRest.nil (ha.append ha')
  | comma ha' hs => simpa using LaysRest.comma (ha.append ha') hs

/-- A member and what follows it. -/
theorem LaysRest.member {m : String × Bytes} {ms : List (String × Bytes)} {a b c bs : Bytes}
    (ha : Blank a) (hb : Blank b) (hc : Blank c) (h : LaysRest ms bs) :
    ∃ body, LaysMembers (m :: ms) body ∧
      a ++ between m.1 ++ b ++ colon :: c ++ m.2 ++ bs = body ++ [closeBrace] := by
  cases h with
  | @nil d hd =>
    exact ⟨a ++ between m.1 ++ b ++ colon :: c ++ m.2 ++ d,
      .last ⟨a, b, c, d, ha, hb, hc, hd, rfl⟩, by simp⟩
  | @comma d body ms hd hs =>
    exact ⟨a ++ between m.1 ++ b ++ colon :: c ++ m.2 ++ d ++ Json.comma :: body,
      .cons ⟨a, b, c, d, ha, hb, hc, hd, rfl⟩ hs, by simp⟩

/-! ## All of the reader -/

/-- Keys and values by the loose reading. -/
def AreLoose (ms : List (String × Bytes)) : Prop :=
  ∀ m ∈ ms, IsInner (utf8 m.1) ∧ loose.Value m.2

/-- With this fuel whatever the reader takes has a layout. -/
structure Recognises (fuel : Nat) : Prop where
  value : ∀ {bs r}, skipValue fuel bs = some r → ∃ a v s, Blank a ∧ Blank s ∧ loose.Value v ∧
    (IsBare v → Delimited r) ∧ bs = a ++ v ++ s ++ r
  items : ∀ {first bs r}, skipItems fuel first bs = some r → ∃ vs body, SkimsItems first vs body ∧
    (∀ v ∈ vs, loose.Value v) ∧ bs = body ++ r
  members : ∀ {fields first bs known r}, readMembers fields fuel first bs = some (known, r) →
    ∃ ms body, AreLoose ms ∧ bs = body ++ r ∧
      if first then LaysObject ms (openBrace :: body) else LaysRest ms body

theorem SkimsItems.exists_eq {first : Bool} {vs : List Bytes} {bs : Bytes}
    (h : SkimsItems first vs bs) : ∃ body, bs = body ++ [closeBracket] := by
  induction h with
  | nil _ => exact ⟨_, rfl⟩
  | comma _ _ _ _ ih =>
    obtain ⟨body, rfl⟩ := ih
    exact ⟨_, (List.append_assoc _ _ _).symm⟩
  | first _ _ _ ih =>
    obtain ⟨body, rfl⟩ := ih
    exact ⟨_, (List.append_assoc _ _ _).symm⟩

theorem Recognises.zero : Recognises 0 where
  value h := by simp [skipValue] at h
  items h := by simp [skipItems] at h
  members h := by simp [readMembers] at h

variable {fuel : Nat}

theorem Recognises.succ_value (ih : Recognises fuel) {bs r : Bytes}
    (h : skipValue (fuel + 1) bs = some r) : ∃ a v s, Blank a ∧ Blank s ∧ loose.Value v ∧
      (IsBare v → Delimited r) ∧ bs = a ++ v ++ s ++ r := by
  simp only [skipValue, Option.bind_eq_bind, Option.bind_eq_some_iff] at h
  obtain ⟨⟨b, rest⟩, next, h⟩ := h
  obtain ⟨a, blank, space, rfl⟩ := next?_eq_some_iff.1 next
  -- no value that begins with a mark of its own is bare
  have marked {mark : UInt8} (hm : opensBare mark = false) (tail : Bytes) :
      IsBare (mark :: tail) → Delimited r := by
    intro h
    obtain ⟨c, cs, same, opens⟩ := h.opens
    cases same
    simp [hm] at opens
  split_ifs at h with text object list delimiter
  · obtain rfl : b = quote := text
    simp only [Option.bind_eq_some_iff] at h
    obtain ⟨⟨s, rest'⟩, read, h⟩ := h
    cases h
    obtain ⟨rfl, inner⟩ := readText_sound read
    exact ⟨a, between s, [], blank, .nil, .text inner, marked rfl _, by simp [between]⟩
  · obtain rfl : b = openBrace := object
    simp only [Option.bind_eq_some_iff] at h
    obtain ⟨⟨known, rest'⟩, read, h⟩ := h
    cases h
    obtain ⟨ms, body, each, same, layout⟩ := ih.members read
    obtain rfl : rest = body ++ rest' := same
    exact ⟨a, openBrace :: body, [], blank, .nil,
      .object layout (fun m hm => (each m hm).1) fun m hm => (each m hm).2, marked rfl _, by simp⟩
  · obtain rfl : b = openBracket := list
    obtain ⟨vs, body, layout, each, same⟩ := ih.items h
    obtain ⟨body, rfl⟩ := layout.exists_eq
    obtain rfl : rest = body ++ [closeBracket] ++ r := same
    exact ⟨a, openBracket :: body ++ [closeBracket], [], blank, .nil, .list layout each,
      marked rfl _, by simp⟩
  · obtain ⟨plain, hp, delimited, same⟩ := skipBare_sound h
    obtain rfl : rest = plain ++ r := same
    have opens : opensBare b = true := by
      simp only [opensBare, Bool.and_eq_true, Bool.not_eq_true', bne_iff_ne]
      exact ⟨⟨⟨⟨space, by simpa using delimiter⟩, text⟩, object⟩, list⟩
    obtain ⟨v, s, bare, hs, split⟩ := exists_isBare opens hp
    refine ⟨a, v, s, blank, hs, .bare bare, fun _ => delimited, ?_⟩
    rw [← List.cons_append, split]
    simp

theorem SkimsItems.next? {first : Bool} {vs : List Bytes} {bs : Bytes}
    (h : SkimsItems first vs bs) : ∃ b tail, Json.next? bs = some (b, tail) := by
  obtain ⟨body, rfl⟩ := h.exists_eq
  obtain ⟨⟨b, tail⟩, next⟩ : ∃ p, Json.next? (body ++ [closeBracket]) = some p := by
    refine Option.ne_none_iff_exists'.1 fun none => ?_
    exact absurd (next?_eq_none_iff.1 none closeBracket (by simp)) (by decide)
  exact ⟨b, tail, next⟩

/-- What delimits a value stands before the closing bracket. -/
theorem SkimsItems.delimited {first : Bool} {vs : List Bytes} {s bs r : Bytes}
    (h : SkimsItems first vs bs) (hs : Blank s) (hd : Delimited (bs ++ r)) :
    Delimited (s ++ bs) := by
  obtain ⟨b, tail, next⟩ := h.next?
  obtain ⟨c, tail', next', delimiter⟩ := hd
  rw [next?_append next] at next'
  cases next'
  exact .blank hs ⟨b, tail, next, delimiter⟩

theorem Recognises.item (ih : Recognises fuel) {first : Bool} {bs r r' : Bytes}
    (hv : skipValue fuel bs = some r') (hi : skipItems fuel first r' = some r) :
    ∃ a v vs body, Blank a ∧ SkimsItems first vs body ∧ (∀ w ∈ v :: vs, loose.Value w) ∧
      (IsBare v → Delimited body) ∧ bs = a ++ v ++ body ++ r := by
  obtain ⟨a, v, s, ha, hs, value, delimited, rfl⟩ := ih.value hv
  obtain ⟨vs, body, layout, each, rfl⟩ := ih.items hi
  exact ⟨a, v, vs, s ++ body, ha, layout.blank hs, List.forall_mem_cons.2 ⟨value, each⟩,
    fun bare => layout.delimited hs (delimited bare), by simp⟩

theorem Recognises.succ_items (ih : Recognises fuel) {first : Bool} {bs r : Bytes}
    (h : skipItems (fuel + 1) first bs = some r) : ∃ vs body, SkimsItems first vs body ∧
      (∀ v ∈ vs, loose.Value v) ∧ bs = body ++ r := by
  simp only [skipItems, Option.bind_eq_bind, Option.bind_eq_some_iff] at h
  obtain ⟨⟨b, rest⟩, next, h⟩ := h
  obtain ⟨a, blank, -, rfl⟩ := next?_eq_some_iff.1 next
  split_ifs at h with close separator unseparated
  · obtain rfl : b = closeBracket := close
    cases h
    exact ⟨[], a ++ [closeBracket], .nil blank, List.forall_mem_nil _, by simp⟩
  · obtain rfl : b = comma := separator
    simp only [Option.bind_eq_some_iff] at h
    obtain ⟨⟨c, rest'⟩, next', h⟩ := h
    obtain ⟨d, hd, -, same⟩ := next?_eq_some_iff.1 next'
    obtain rfl : rest = d ++ c :: rest' := same
    split_ifs at h
    simp only [Option.bind_eq_some_iff] at h
    obtain ⟨r', hv, hi⟩ := h
    obtain ⟨e, v, vs, body, he, layout, each, bare, same⟩ := ih.item hv hi
    refine ⟨v :: vs, _, .comma blank (hd.append he) bare layout, each, ?_⟩
    simp [same]
  · simp only [Option.bind_eq_some_iff] at h
    obtain ⟨r', hv, hi⟩ := h
    obtain ⟨e, v, vs, body, he, layout, each, bare, same⟩ := ih.item hv hi
    subst unseparated
    refine ⟨v :: vs, _, .first (blank.append he) bare layout, each, ?_⟩
    simp [same]

theorem Recognises.member (ih : Recognises fuel) {fields : String → Option Shape} {a bs r : Bytes}
    {known : List (String × Scalar)} (ha : Blank a)
    (h : readMember fields fuel bs = some (known, r)) :
    ∃ ms body, AreLoose ms ∧ LaysMembers ms body ∧
      a ++ quote :: bs = body ++ [closeBrace] ++ r := by
  simp only [readMember, Option.bind_eq_some_iff] at h
  obtain ⟨⟨key, rest⟩, text, ⟨e, rest'⟩, next, h⟩ := h
  obtain ⟨rfl, inner⟩ := readText_sound text
  obtain ⟨b, hb, -, same⟩ := next?_eq_some_iff.1 next
  obtain rfl : rest = b ++ e :: rest' := same
  split_ifs at h with separator
  obtain rfl : e = colon := separator
  obtain ⟨c, v, ms, body, hc, value, each, layout, rfl⟩ : ∃ c v ms body, Blank c ∧ loose.Value v ∧
      AreLoose ms ∧ LaysRest ms body ∧ rest' = c ++ v ++ body ++ r := by
    cases hf : fields key with
    | some shape =>
      simp only [hf, Option.bind_eq_some_iff, Option.map_eq_some_iff] at h
      obtain ⟨⟨x, r'⟩, read, ⟨known', r⟩, members, h⟩ := h
      cases h
      obtain ⟨c, v, hc, value, rfl⟩ := Shape.read_sound read
      obtain ⟨ms, body, each, rfl, layout⟩ := ih.members members
      exact ⟨c, v, ms, body, hc, value, each, layout, by simp⟩
    | none =>
      simp only [hf, Option.bind_eq_some_iff] at h
      obtain ⟨r', skip, members⟩ := h
      obtain ⟨c, v, s, hc, hs, value, -, rfl⟩ := ih.value skip
      obtain ⟨ms, body, each, rfl, layout⟩ := ih.members members
      exact ⟨c, v, ms, s ++ body, hc, value, each, LaysRest.blank hs layout, by simp⟩
  obtain ⟨whole, members, same⟩ := LaysRest.member (m := (key, v)) ha hb hc layout
  refine ⟨(key, v) :: ms, whole, List.forall_mem_cons.2 ⟨⟨inner, value⟩, each⟩, members, ?_⟩
  rw [← same]
  simp [between]

theorem Recognises.succ_members (ih : Recognises fuel) {fields : String → Option Shape}
    {first : Bool} {bs r : Bytes} {known : List (String × Scalar)}
    (h : readMembers fields (fuel + 1) first bs = some (known, r)) :
    ∃ ms body, AreLoose ms ∧ bs = body ++ r ∧
      if first then LaysObject ms (openBrace :: body) else LaysRest ms body := by
  rw [readMembers_succ, Option.bind_eq_some_iff] at h
  obtain ⟨⟨b, rest⟩, next, h⟩ := h
  obtain ⟨a, blank, -, rfl⟩ := next?_eq_some_iff.1 next
  split_ifs at h with close hfirst separator
  · obtain rfl : b = closeBrace := close
    cases h
    refine ⟨[], a ++ [closeBrace], List.forall_mem_nil _, by simp, ?_⟩
    cases first
    · exact .nil blank
    · exact .empty blank
  · subst hfirst
    simp only [Option.bind_some] at h
    split_ifs at h with mark
    obtain rfl : b = quote := mark
    obtain ⟨ms, body, each, members, same⟩ := ih.member blank h
    exact ⟨ms, body ++ [closeBrace], each, same, .filled members⟩
  · obtain rfl : b = comma := separator
    rw [Option.bind_eq_some_iff] at h
    obtain ⟨⟨c, rest'⟩, next', h⟩ := h
    obtain ⟨d, hd, -, same⟩ := next?_eq_some_iff.1 next'
    obtain rfl : rest = d ++ c :: rest' := same
    split_ifs at h with mark
    obtain rfl : c = quote := mark
    obtain ⟨ms, body, each, members, same⟩ := ih.member hd h
    refine ⟨ms, a ++ comma :: body ++ [closeBrace], each, by simp [same], ?_⟩
    simpa [hfirst] using LaysRest.comma blank members
  · cases h

/-- Whatever the reader takes has a layout, with any fuel. -/
theorem recognises (fuel : Nat) : Recognises fuel := by
  induction fuel with
  | zero => exact .zero
  | succ fuel ih => exact ⟨ih.succ_value, ih.succ_items, ih.succ_members⟩

/-- Only objects are read as records. -/
theorem exists_opens_of_readRecord? {fields : String → Option Shape} {bs : Bytes}
    {known : List (String × Scalar)} (h : readRecord? fields bs = some known) :
    ∃ ms rest, loose.Opens ms bs rest := by
  rw [readRecord?, Option.bind_eq_bind, Option.bind_eq_some_iff] at h
  obtain ⟨⟨b, rest⟩, next, h⟩ := h
  obtain ⟨a, blank, -, rfl⟩ := next?_eq_some_iff.1 next
  by_cases opening : b = openBrace
  · simp only [opening, ne_eq, not_true_eq_false, if_false, Option.bind_eq_bind,
      Option.bind_eq_some_iff] at h
    obtain ⟨⟨known', r⟩, read, -⟩ := h
    obtain ⟨ms, body, each, same, layout⟩ := (recognises _).members read
    obtain rfl : rest = body ++ r := same
    exact ⟨ms, r, a, openBrace :: body, blank, layout, fun m hm => (each m hm).1,
      fun m hm => (each m hm).2, by simp [opening]⟩
  · simp [opening] at h

end GattGateway.Json
