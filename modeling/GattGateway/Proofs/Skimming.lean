import GattGateway.Proofs.Grammar
import Mathlib.Data.List.DropRight

/-!
# Stepping over values

The reader of records steps over exactly the values of the loose reading of JSON, one at a time, and
it takes an object for a record exactly if its known members hold what is expected of them. It looks
at nothing else: not at the layout, not at the order of the members, not at the values of others.
-/
namespace GattGateway.Json

open Text (Bytes utf8 ofUtf8? ofUtf8?_utf8)

/-! ## The next byte -/

theorem next?_eq_some_iff {bs rest : Bytes} {b : UInt8} : next? bs = some (b, rest) ↔
    ∃ a, Blank a ∧ isSpace b = false ∧ bs = a ++ b :: rest := by
  constructor
  · intro h
    have split := List.takeWhile_append_dropWhile (p := isSpace) (l := bs)
    unfold next? at h
    split at h
    · cases h
    · rename_i c tail hd
      cases h
      have space := List.head_dropWhile_not isSpace (l := bs) (by simp [hd])
      simp only [hd, List.head_cons] at space
      exact ⟨_, fun c hc => List.mem_takeWhile_imp hc, space, by rw [← hd, split]⟩
  · rintro ⟨a, ha, hs, rfl⟩
    exact next?_blank_cons ha hs rest

theorem next?_eq_none_iff {bs : Bytes} : next? bs = none ↔ Blank bs := by
  unfold next?
  split
  · rename_i h
    simpa [Blank] using List.dropWhile_eq_nil_iff.1 h
  · rename_i h
    have some : bs.dropWhile isSpace ≠ [] := by simp [h]
    simpa [Blank, List.dropWhile_eq_nil_iff] using some

theorem next?_append {bs rest : Bytes} {b : UInt8} (h : next? bs = some (b, rest)) (tail : Bytes) :
    next? (bs ++ tail) = some (b, rest ++ tail) := by
  obtain ⟨a, ha, hs, rfl⟩ := next?_eq_some_iff.1 h
  exact next?_eq_some_iff.2 ⟨a, ha, hs, by simp⟩

theorem Delimited.append {bs : Bytes} (h : Delimited bs) (tail : Bytes) :
    Delimited (bs ++ tail) := by
  obtain ⟨b, rest, hn, hd⟩ := h
  exact ⟨b, rest ++ tail, next?_append hn tail, hd⟩

theorem Delimited.stops {bs : Bytes} (h : Delimited bs) : Stops bs := by
  have digit {b : UInt8} : isDelimiter b = true → isDigit b = false :=
    forall_byte (P := fun b => isDelimiter b = true → isDigit b = false) (by decide +kernel) b
  obtain ⟨b, rest, hn, hd⟩ := h
  obtain ⟨a, ha, -, rfl⟩ := next?_eq_some_iff.1 hn
  refine .blank ha ?_
  rintro c ⟨⟩
  exact digit hd

section Congr

variable {as bs : Bytes}

theorem skipValue_congr (h : next? as = next? bs) (fuel : Nat) :
    skipValue fuel as = skipValue fuel bs := by
  cases fuel <;> simp only [skipValue, h]

theorem skipItems_congr (h : next? as = next? bs) (fuel : Nat) (first : Bool) :
    skipItems fuel first as = skipItems fuel first bs := by
  cases fuel <;> simp only [skipItems, h]

theorem readMembers_congr {fields : String → Option Shape} (h : next? as = next? bs) (fuel : Nat)
    (first : Bool) : readMembers fields fuel first as = readMembers fields fuel first bs := by
  cases fuel <;> simp only [readMembers, h]

end Congr

/-! ## Texts -/

theorem IsInner.passes {bs : Bytes} (h : IsInner bs) : Passes bs := by
  induction h with
  | nil => exact .nil
  | plain hq hb _ ih => exact (passes_singleton hq hb).append ih
  | pair b _ ih => exact (passes_pair b).append ih

theorem readText_of_isInner {s : String} (h : IsInner (utf8 s)) (rest : Bytes) :
    readText (utf8 s ++ quote :: rest) = some (s, rest) := by
  have span : spanText false (utf8 s ++ quote :: rest) = some (utf8 s, rest) := by
    rw [h.passes]
    simp [spanText]
  simp [readText, span, ofUtf8?_utf8]

/-! ## One value -/

/-- The reader steps over these bytes as over one value. What follows a bare value has to delimit
it, and the spaces before the delimiter may go by with it. -/
structure Skimmed (v : Bytes) : Prop where
  opens : ∃ b bs, v = b :: bs ∧ isSpace b = false ∧ isDelimiter b = false
  skips : ∀ (fuel : Nat) (rest : Bytes), v.length ≤ fuel → (IsBare v → Delimited rest) →
    ∃ r, skipValue fuel (v ++ rest) = some r ∧ next? r = next? rest

theorem skimmed_text {s : String} (h : IsInner (utf8 s)) : Skimmed (between s) where
  opens := ⟨quote, utf8 s ++ [quote], rfl, rfl, rfl⟩
  skips := by
    intro fuel rest enough _
    obtain ⟨fuel, rfl⟩ : ∃ n, fuel = n + 1 := ⟨fuel - 1, by simp [between] at enough; omega⟩
    refine ⟨rest, ?_, rfl⟩
    have opening : next? (between s ++ rest) = some (quote, utf8 s ++ quote :: rest) := by
      simp [between, next?_cons (show isSpace quote = false from rfl)]
    simp [skipValue, opening, readText_of_isInner h]

/-- Up to a delimiter everything is dropped. -/
theorem skipBare_append {bs tail : Bytes} {d : UInt8} (h : ∀ b ∈ bs, isDelimiter b = false)
    (hd : isDelimiter d = true) : skipBare (bs ++ d :: tail) = some (d :: tail) := by
  have drop : (bs ++ d :: tail).dropWhile (! isDelimiter ·) = d :: tail := by
    rw [List.dropWhile_append_of_pos (by simpa using h)]
    simp [hd]
  simp only [skipBare, drop]

theorem not_isDelimiter_of_isSpace {b : UInt8} : isSpace b = true → isDelimiter b = false :=
  forall_byte (P := fun b => isSpace b = true → isDelimiter b = false) (by decide +kernel) b

theorem skimmed_bare {v : Bytes} (h : IsBare v) : Skimmed v := by
  obtain ⟨b, bs, rfl, opens⟩ := h.opens
  have space := not_isSpace_of_opensBare opens
  have delimiter := not_isDelimiter_of_opensBare opens
  refine ⟨⟨b, bs, rfl, space, delimiter⟩, ?_⟩
  intro fuel rest enough delimited
  obtain ⟨fuel, rfl⟩ : ∃ n, fuel = n + 1 := ⟨fuel - 1, by simp at enough; omega⟩
  obtain ⟨d, tail, hn, hd⟩ := delimited h
  obtain ⟨a, ha, hs, rfl⟩ := next?_eq_some_iff.1 hn
  have drop : skipBare (bs ++ (a ++ d :: tail)) = some (d :: tail) := by
    rw [← List.append_assoc]
    refine skipBare_append (List.forall_mem_append.2 ⟨?_, ?_⟩) hd
    · exact fun c hc => h.plain c (List.mem_cons_of_mem _ hc)
    · exact fun c hc => not_isDelimiter_of_isSpace (ha c hc)
  obtain ⟨quote, brace, bracket⟩ := ne_of_opensBare opens
  refine ⟨d :: tail, ?_, ?_⟩
  · simp [skipValue, next?_cons space, quote, brace, bracket, delimiter, drop]
  · rw [next?_blank ha]

theorem SkimsItems.length_pos {first : Bool} {vs : List Bytes} {bs : Bytes}
    (h : SkimsItems first vs bs) : 0 < bs.length := by
  induction h <;> simp only [List.length_append, List.length_cons] <;> omega

/-- The items behind a value are those behind what is left of it. -/
theorem Skimmed.skipItems {v : Bytes} (h : Skimmed v) {fuel : Nat} (enough : v.length ≤ fuel)
    {rest : Bytes} (bare : IsBare v → Delimited rest) (first : Bool) :
    ((skipValue fuel (v ++ rest)).bind fun r => Json.skipItems fuel first r) =
      Json.skipItems fuel first rest := by
  obtain ⟨r, skipped, next⟩ := h.skips fuel rest enough bare
  rw [skipped, Option.bind_some, skipItems_congr next]

theorem skipItems_of_skimsItems {first : Bool} {vs : List Bytes} {bs : Bytes}
    (h : SkimsItems first vs bs) (each : ∀ v ∈ vs, Skimmed v) {fuel : Nat}
    (enough : bs.length ≤ fuel) (rest : Bytes) : skipItems fuel first (bs ++ rest) = some rest := by
  induction h generalizing fuel with
  | @nil first a ha =>
    obtain ⟨fuel, rfl⟩ : ∃ n, fuel = n + 1 := ⟨fuel - 1, by simp at enough; omega⟩
    have closing : next? (a ++ closeBracket :: rest) = some (closeBracket, rest) :=
      next?_blank_cons ha rfl rest
    simp [skipItems, closing]
  | @comma first a b v body vs ha hb bare hs ih =>
    obtain ⟨fuel, rfl⟩ : ∃ n, fuel = n + 1 := ⟨fuel - 1, by simp at enough; omega⟩
    rw [List.forall_mem_cons] at each
    obtain ⟨c, cs, rfl, space, delimiter⟩ := each.1.opens
    simp only [List.length_append, List.length_cons] at enough
    have separator : next? (a ++ comma :: b ++ c :: cs ++ body ++ rest) =
        some (comma, b ++ c :: cs ++ body ++ rest) := by
      simpa using next?_blank_cons ha (show isSpace comma = false from rfl) _
    have item : next? (b ++ c :: cs ++ body ++ rest) = some (c, cs ++ (body ++ rest)) := by
      simpa using next?_blank_cons hb space _
    have unequal : comma ≠ closeBracket := by decide
    have small : (c :: cs).length ≤ fuel := by
      rw [List.length_cons]
      omega
    simp only [skipItems, separator, item, Option.bind_eq_bind, Option.bind_some, unequal, if_false,
      if_true, ne_of_not_isDelimiter delimiter (show isDelimiter closeBracket = true from rfl)]
    rw [← List.cons_append, each.1.skipItems small (fun h => (bare h).append rest)]
    exact ih each.2 (by omega)
  | @first a v body vs ha bare hs ih =>
    have closing := hs.length_pos
    rw [List.forall_mem_cons] at each
    obtain ⟨c, cs, rfl, space, delimiter⟩ := each.1.opens
    simp only [List.length_append, List.length_cons] at enough
    obtain ⟨fuel, rfl⟩ : ∃ n, fuel = n + 1 := ⟨fuel - 1, by omega⟩
    have item : next? (a ++ c :: cs ++ body ++ rest) = some (c, cs ++ (body ++ rest)) := by
      simpa using next?_blank_cons ha space _
    have small : (c :: cs).length ≤ fuel := by
      rw [List.length_cons]
      omega
    simp only [skipItems, item, Option.bind_eq_bind, Option.bind_some, if_false, if_true,
      ne_of_not_isDelimiter delimiter (show isDelimiter closeBracket = true from rfl),
      ne_of_not_isDelimiter delimiter (show isDelimiter comma = true from rfl)]
    rw [← List.cons_append, each.1.skipItems small (fun h => (bare h).append rest)]
    exact ih each.2 (by omega)

theorem skimmed_list {vs : List Bytes} {bs : Bytes}
    (layout : SkimsItems true vs (bs ++ [closeBracket])) (each : ∀ v ∈ vs, Skimmed v) :
    Skimmed (openBracket :: bs ++ [closeBracket]) where
  opens := ⟨openBracket, bs ++ [closeBracket], rfl, rfl, rfl⟩
  skips := by
    intro fuel rest enough _
    simp only [List.cons_append, List.length_cons] at enough
    obtain ⟨fuel, rfl⟩ : ∃ n, fuel = n + 1 := ⟨fuel - 1, by omega⟩
    have opening : next? (openBracket :: bs ++ [closeBracket] ++ rest) =
        some (openBracket, bs ++ [closeBracket] ++ rest) := next?_cons rfl _
    have items := skipItems_of_skimsItems layout each (show _ ≤ fuel by omega) rest
    have unequal : openBracket ≠ quote ∧ openBracket ≠ openBrace := by decide
    refine ⟨rest, ?_, rfl⟩
    simp only [skipValue, opening, Option.bind_eq_bind, Option.bind_some, unequal.1, unequal.2,
      if_false, if_true, items]

/-! ## Known values -/

/-- What a value holds, where all of it is read. -/
def Shape.whole? (shape : Shape) (v : Bytes) : Option Scalar :=
  (shape.read v).bind fun p => if p.2 = [] then some p.1 else none

theorem takeWhile_append_of_stops (bs : Bytes) {rest : Bytes} (h : Stops rest) :
    (bs ++ rest).takeWhile isDigit = bs.takeWhile isDigit ∧
      (bs ++ rest).dropWhile isDigit = bs.dropWhile isDigit ++ rest := by
  induction bs with
  | nil => exact ⟨h.takeWhile, h.dropWhile⟩
  | cons b bs ih => cases hb : isDigit b <;> simp [hb, ih]

theorem readNumber_append {limit : Nat} {b : UInt8} {bs rest : Bytes} (space : isSpace b = false)
    (h : Stops rest) : readNumber limit (b :: bs ++ rest) =
      (readNumber limit (b :: bs)).map fun p => (p.1, p.2 ++ rest) := by
  have digits := takeWhile_append_of_stops bs h
  simp only [readNumber, List.cons_append, next?_cons space, Option.bind_eq_bind, Option.bind_some,
    digits]
  split_ifs <;> rfl

theorem Delimited.head {bs : Bytes} (h : Delimited bs) {b : UInt8} (hb : b ∈ bs.head?) :
    isSpace b = true ∨ isDelimiter b = true := by
  obtain ⟨c, rest, hn, hd⟩ := h
  obtain ⟨a, ha, -, rfl⟩ := next?_eq_some_iff.1 hn
  cases a with
  | nil =>
    cases hb
    exact .inr hd
  | cons d a =>
    cases hb
    exact .inl (ha b List.mem_cons_self)

theorem readOptionalText_eq_some_iff {b : UInt8} {bs : Bytes} {p : Scalar × Bytes}
    (space : isSpace b = false) (text : b ≠ quote) : Shape.optionalText.read (b :: bs) = some p ↔
      ∃ r, b :: bs = utf8 "null" ++ r ∧ p = (.absent, r) := by
  have null : utf8 "null" = [0x6E, 0x75, 0x6C, 0x6C] := by decide
  simp only [Shape.read, next?_cons space, Option.bind_eq_bind, Option.bind_some, text, if_false,
    null]
  split
  · rename_i rest same
    simp [same, eq_comm]
  · rename_i other
    simp only [reduceCtorEq, false_iff, not_exists, not_and]
    exact fun r same => absurd same (other r)

/-- No delimiter and no space completes a word. -/
theorem append_eq_null_append_iff {b : UInt8} {bs rest r : Bytes} (h : Delimited rest) :
    b :: bs ++ rest = utf8 "null" ++ r ↔ ∃ t, b :: bs = utf8 "null" ++ t ∧ r = t ++ rest := by
  have letters : ∀ c ∈ utf8 "null", isSpace c = false ∧ isDelimiter c = false := by decide +kernel
  rw [List.append_eq_append_iff]
  refine ⟨?_, .inr⟩
  rintro (⟨as, same, rfl⟩ | inside)
  · cases as with
    | nil => exact ⟨[], by simpa using same.symm, rfl⟩
    | cons c as =>
      have letter := letters c (by simp [same])
      have := h.head (b := c) rfl
      simp [letter] at this
  · exact inside

theorem readNull_append {b : UInt8} {bs rest : Bytes} (space : isSpace b = false)
    (text : b ≠ quote) (h : Delimited rest) : Shape.optionalText.read (b :: bs ++ rest) =
      (Shape.optionalText.read (b :: bs)).map fun p => (p.1, p.2 ++ rest) := by
  ext p
  rw [List.cons_append, readOptionalText_eq_some_iff space text, ← List.cons_append]
  simp only [append_eq_null_append_iff h, Option.map_eq_some_iff,
    readOptionalText_eq_some_iff space text]
  constructor
  · rintro ⟨_, ⟨t, same, rfl⟩, rfl⟩
    exact ⟨_, ⟨t, same, rfl⟩, rfl⟩
  · rintro ⟨_, ⟨t, same, rfl⟩, rfl⟩
    exact ⟨_, ⟨t, same, rfl⟩, rfl⟩

theorem readNumber_suffix {limit n : Nat} {b : UInt8} {bs r : Bytes} (space : isSpace b = false)
    (h : readNumber limit (b :: bs) = some (n, r)) : r <:+ bs := by
  simp only [readNumber, next?_cons space, Option.bind_eq_bind, Option.bind_some] at h
  split_ifs at h
  · cases h
    exact List.suffix_refl _
  · cases h
    exact List.dropWhile_suffix _

/-- Nothing behind a bare value is read as a part of it, and what is not read of it is its end. -/
theorem Shape.read_of_isBare (shape : Shape) {v : Bytes} (h : IsBare v) :
    (∀ {rest}, Delimited rest →
      shape.read (v ++ rest) = (shape.read v).map fun p => (p.1, p.2 ++ rest)) ∧
    ∀ p ∈ shape.read v, p.2 <:+ v := by
  obtain ⟨b, bs, rfl, opens⟩ := h.opens
  have space := not_isSpace_of_opensBare opens
  have text := (ne_of_opensBare opens).1
  cases shape with
  | text => simp [Shape.read, next?_cons space, text]
  | optionalText =>
    refine ⟨readNull_append space text, fun p hp => ?_⟩
    obtain ⟨r, same, rfl⟩ := (readOptionalText_eq_some_iff space text).1 hp
    exact ⟨_, same.symm⟩
  | number limit =>
    constructor
    · intro rest hr
      simp only [Shape.read, readNumber_append space hr.stops]
      cases readNumber limit (b :: bs) <;> rfl
    · intro p hp
      simp only [Shape.read, Option.bind_eq_bind, Option.mem_def, Option.bind_eq_some_iff] at hp
      obtain ⟨⟨n, r⟩, read, hp⟩ := hp
      cases hp
      exact (readNumber_suffix space read).trans (List.suffix_cons _ _)

/-- What is left of a bare value does not begin with spaces alone. -/
theorem IsBare.next?_suffix {v r : Bytes} (h : IsBare v) (suffix : r <:+ v) (filled : r ≠ [])
    (rest : Bytes) : ∃ b tail, next? (r ++ rest) = some (b, tail) ∧ isDelimiter b = false := by
  have last : isSpace (r.getLast filled) = false := by
    refine h.closes _ ?_
    obtain ⟨t, rfl⟩ := suffix
    rw [List.getLast?_append_of_ne_nil _ filled, List.getLast?_eq_getLast_of_ne_nil filled]
    rfl
  obtain ⟨⟨b, tail⟩, next⟩ : ∃ p, next? r = some p := by
    refine Option.ne_none_iff_exists'.1 fun none => ?_
    have space := next?_eq_none_iff.1 none _ (List.getLast_mem filled)
    simp [last] at space
  obtain ⟨a, -, -, same⟩ := next?_eq_some_iff.1 next
  exact ⟨b, tail ++ rest, next?_append next rest,
    h.plain b (suffix.subset (by simp [same]))⟩

theorem Shape.read_between (shape : Shape) {s : String} (h : IsInner (utf8 s)) (rest : Bytes) :
    shape.read (between s ++ rest) = (shape.whole? (between s)).map (·, rest) := by
  have opening (rest : Bytes) :
      next? (between s ++ rest) = some (quote, utf8 s ++ quote :: rest) := by
    simp [between, next?_cons (show isSpace quote = false from rfl)]
  have alone := opening []
  rw [List.append_nil] at alone
  cases shape with
  | text => simp [whole?, Shape.read, opening, alone, readText_of_isInner h]
  | optionalText => simp [whole?, Shape.read, opening, alone, readText_of_isInner h]
  | number limit =>
    have : quote ≠ 0x30 ∧ isDigit quote = false := by decide
    simp [whole?, Shape.read, readNumber, opening, alone, this]

/-- No list and no object is read as anything. -/
theorem Shape.read_of_opens (shape : Shape) {b : UInt8} (h : b = openBrace ∨ b = openBracket)
    (bs : Bytes) : shape.read (b :: bs) = none := by
  have other : isSpace b = false ∧ b ≠ quote ∧ b ≠ 0x30 ∧ isDigit b = false ∧ b ≠ 0x6E := by
    rcases h with rfl | rfl <;> decide
  obtain ⟨space, text, zero, digit, letter⟩ := other
  cases shape with
  | text => simp [Shape.read, next?_cons space, text]
  | optionalText =>
    refine Option.eq_none_iff_forall_ne_some.2 fun p hp => ?_
    obtain ⟨r, same, -⟩ := (readOptionalText_eq_some_iff space text).1 hp
    exact letter (List.cons.inj same).1
  | number limit => simp [Shape.read, readNumber, next?_cons space, zero, digit]

/-! ## Members -/

section Members

variable {fields : String → Option Shape}

/-- Where neither a comma nor the closing brace follows a value, there are no more members. -/
theorem readMembers_of_next {bs tail : Bytes} {b : UInt8} (h : next? bs = some (b, tail))
    (delimiter : isDelimiter b = false) (fuel : Nat) : readMembers fields fuel false bs = none := by
  have other {d : UInt8} := ne_of_not_isDelimiter delimiter (d := d)
  cases fuel with
  | zero => rfl
  | succ fuel =>
    simp [readMembers, h, other (show isDelimiter closeBrace = true from rfl),
      other (show isDelimiter comma = true from rfl)]

/-- The member at hand, before the ones that follow. -/
def before (key : String) (x : Scalar) (p : List (String × Scalar) × Bytes) :
    List (String × Scalar) × Bytes :=
  ((key, x) :: p.1, p.2)

/-- A known value counts if all of it is read, and the members behind it follow. -/
theorem Shape.read_then (fields : String → Option Shape) (shape : Shape) {v rest : Bytes}
    (h : loose.Value v) (hr : Delimited rest) (key : String) (fuel : Nat) :
    ((shape.read (v ++ rest)).bind fun p =>
        (readMembers fields fuel false p.2).map (before key p.1)) =
      (shape.whole? v).bind fun x => (readMembers fields fuel false rest).map (before key x) := by
  cases h with
  | text h =>
    rw [shape.read_between h]
    cases shape.whole? (between _) <;> rfl
  | bare h =>
    obtain ⟨append, suffix⟩ := shape.read_of_isBare h
    rw [append hr, whole?]
    cases hv : shape.read v with
    | none => rfl
    | some p =>
      obtain ⟨x, r⟩ := p
      by_cases filled : r = []
      · simp [filled]
      · obtain ⟨b, tail, next, delimiter⟩ := h.next?_suffix (suffix _ hv) filled rest
        simp [filled, readMembers_of_next next delimiter]
  | @list vs bs layout each =>
    simp [whole?, shape.read_of_opens (.inr rfl)]
  | object layout keys each =>
    cases layout <;> simp [whole?, shape.read_of_opens (.inl rfl)]

/-- The known members among these, in order, if all of them hold what is expected. -/
def known? (fields : String → Option Shape) :
    List (String × Bytes) → Option (List (String × Scalar))
  | [] => some []
  | (key, v) :: ms =>
    match fields key with
    | some shape => (shape.whole? v).bind fun x => (known? fields ms).map ((key, x) :: ·)
    | none => known? fields ms

theorem map_known?_cons (m : String × Bytes) (ms : List (String × Bytes)) (rest : Bytes) :
    (known? fields (m :: ms)).map (·, rest) =
      match fields m.1 with
      | some shape => (shape.whole? m.2).bind fun x =>
          ((known? fields ms).map (·, rest)).map (before m.1 x)
      | none => (known? fields ms).map (·, rest) := by
  rw [known?]
  cases fields m.1 with
  | none => rfl
  | some shape =>
    dsimp only
    cases shape.whole? m.2 <;> cases known? fields ms <;> rfl

/-- A member behind the first quote of its key, and the members that follow. -/
def readMember (fields : String → Option Shape) (fuel : Nat) (bs : Bytes) :
    Option (List (String × Scalar) × Bytes) :=
  (readText bs).bind fun key => (next? key.2).bind fun separator =>
    if separator.1 = colon then
      match fields key.1 with
      | some shape => (shape.read separator.2).bind fun v =>
          (readMembers fields fuel false v.2).map (before key.1 v.1)
      | none => (skipValue fuel separator.2).bind (readMembers fields fuel false)
    else none

theorem readMembers_succ {first : Bool} {bs : Bytes} {fuel : Nat} :
    readMembers fields (fuel + 1) first bs = (next? bs).bind fun p =>
      if p.1 = closeBrace then some ([], p.2)
      else (if first then some p else if p.1 = comma then next? p.2 else none).bind fun q =>
        if q.1 = quote then readMember fields fuel q.2 else none := by
  have member (q : UInt8 × Bytes) : (if q.1 ≠ quote then none else
        (readText q.2).bind fun key => (next? key.2).bind fun separator =>
          if separator.1 ≠ colon then none else
            match fields key.1 with
            | some shape => (shape.read separator.2).bind fun v =>
                (readMembers fields fuel false v.2).bind fun p => some ((key.1, v.1) :: p.1, p.2)
            | none => (skipValue fuel separator.2).bind (readMembers fields fuel false)) =
      if q.1 = quote then readMember fields fuel q.2 else none := by
    by_cases mark : q.1 = quote
    · simp only [mark, ne_eq, not_true_eq_false, if_false, if_true, readMember, ite_not,
        Option.map_eq_bind]
      rfl
    · simp only [mark, ne_eq, not_false_eq_true, if_false, if_true]
  rw [readMembers]
  cases next? bs with
  | none => rfl
  | some p =>
    by_cases close : p.1 = closeBrace
    · simp [close]
    simp only [Option.bind_some, close, Option.bind_eq_bind, if_false]
    cases first with
    | true => exact member p
    | false =>
      by_cases separator : p.1 = comma
      · simp only [separator, if_true, Bool.false_eq_true, if_false]
        exact Option.bind_congr fun q _ => member q
      · simp [separator]

theorem readMembers_laysMember {m : String × Bytes} {bs : Bytes} (h : LaysMember m bs)
    (key : IsInner (utf8 m.1)) (value : loose.Value m.2) (skimmed : Skimmed m.2) {rest : Bytes}
    (hr : Delimited rest) (fuel : Nat) (enough : m.2.length ≤ fuel) :
    readMembers fields (fuel + 1) true (bs ++ rest) =
      match fields m.1 with
      | some shape => (shape.whole? m.2).bind fun x =>
          (readMembers fields fuel false rest).map (before m.1 x)
      | none => readMembers fields fuel false rest := by
  obtain ⟨k, v⟩ := m
  obtain ⟨a, b, c, d, ha, hb, hc, hd, rfl⟩ := h
  have opening (tail : Bytes) : next? (quote :: tail) = some (quote, tail) := next?_cons rfl tail
  have middle (tail : Bytes) : next? (colon :: tail) = some (colon, tail) := next?_cons rfl tail
  have notClose : quote ≠ closeBrace := by decide
  have delimited : Delimited (d ++ rest) := hr.blank hd
  simp only [readMembers_succ, readMember, between, List.append_assoc, List.cons_append,
    List.nil_append, next?_blank ha, opening, Option.bind_some, notClose, if_false, if_true,
    readText_of_isInner key, next?_blank hb, middle]
  cases fields k with
  | some shape =>
    have members := shape.read_then fields value delimited k fuel
    simp only [readMembers_blank hd] at members
    simp only [Shape.read_blank shape hc, members]
  | none =>
    obtain ⟨r, skipped, next⟩ := skimmed.skips fuel _ enough fun _ => delimited
    simp only [skipValue_congr (next?_blank hc _), skipped, Option.bind_some]
    rw [readMembers_congr next, readMembers_blank hd]

theorem LaysMember.next? {m : String × Bytes} {bs : Bytes} (h : LaysMember m bs) (rest : Bytes) :
    ∃ tail, next? (bs ++ rest) = some (quote, tail) := by
  obtain ⟨a, b, c, d, blank, -, -, -, rfl⟩ := h
  simp only [List.append_assoc, next?_blank blank, between, List.cons_append]
  exact ⟨_, next?_cons rfl _⟩

theorem LaysMembers.next? {ms : List (String × Bytes)} {bs : Bytes} (h : LaysMembers ms bs)
    (rest : Bytes) : ∃ tail, next? (bs ++ rest) = some (quote, tail) := by
  cases h with
  | last h => exact h.next? _
  | cons h hs => simpa using h.next? _

theorem LaysMember.length_lt {m : String × Bytes} {bs : Bytes} (h : LaysMember m bs) :
    m.2.length < bs.length := by
  obtain ⟨a, b, c, d, -, -, -, -, rfl⟩ := h
  simp only [List.length_append, List.length_cons]
  omega

/-- All the members of an object are taken at once. -/
theorem readMembers_laysMembers {ms : List (String × Bytes)} {bs : Bytes} (h : LaysMembers ms bs)
    (keys : ∀ m ∈ ms, IsInner (utf8 m.1)) (values : ∀ m ∈ ms, loose.Value m.2)
    (skimmed : ∀ m ∈ ms, Skimmed m.2) {fuel : Nat} (enough : bs.length < fuel) (rest : Bytes) :
    readMembers fields fuel true (bs ++ closeBrace :: rest) =
      (known? fields ms).map (·, rest) := by
  induction h generalizing fuel with
  | @last m bs h =>
    have value := h.length_lt
    have closed : Delimited (closeBrace :: rest) := .of_cons rfl rfl
    obtain ⟨fuel, rfl⟩ : ∃ n, fuel = n + 2 := ⟨fuel - 2, by omega⟩
    simp only [List.forall_mem_singleton] at keys values skimmed
    rw [readMembers_laysMember h keys values skimmed closed (fuel + 1) (by omega),
      readMembers_closeBrace, map_known?_cons]
    rfl
  | @cons m ms bs body h hs ih =>
    have value := h.length_lt
    have closed : Delimited (comma :: (body ++ closeBrace :: rest)) := .of_cons rfl rfl
    simp only [List.length_append, List.length_cons] at enough
    obtain ⟨fuel, rfl⟩ : ∃ n, fuel = n + 2 := ⟨fuel - 2, by omega⟩
    rw [List.forall_mem_cons] at keys values skimmed
    obtain ⟨tail, next⟩ := hs.next? (closeBrace :: rest)
    rw [List.append_assoc, List.cons_append, readMembers_laysMember h keys.1 values.1 skimmed.1
      closed (fuel + 1) (by omega), readMembers_comma next,
      ih keys.2 values.2 skimmed.2 (by omega), map_known?_cons]

theorem readMembers_laysObject (fields : String → Option Shape) {ms : List (String × Bytes)}
    {bs : Bytes} (h : LaysObject ms bs) (keys : ∀ m ∈ ms, IsInner (utf8 m.1))
    (values : ∀ m ∈ ms, loose.Value m.2) (skimmed : ∀ m ∈ ms, Skimmed m.2) :
    ∃ body, bs = openBrace :: body ∧
      ∀ fuel, body.length ≤ fuel → ∀ rest,
        readMembers fields fuel true (body ++ rest) = (known? fields ms).map (·, rest) := by
  cases h with
  | @empty a ha =>
    refine ⟨a ++ [closeBrace], rfl, fun fuel enough rest => ?_⟩
    simp only [List.length_append, List.length_singleton] at enough
    obtain ⟨fuel, rfl⟩ : ∃ n, fuel = n + 1 := ⟨fuel - 1, by omega⟩
    rw [List.append_assoc, readMembers_blank ha, List.singleton_append, readMembers_closeBrace]
    rfl
  | @filled ms body h =>
    refine ⟨body ++ [closeBrace], rfl, fun fuel enough rest => ?_⟩
    simp only [List.length_append, List.length_singleton] at enough
    rw [List.append_assoc, List.singleton_append,
      readMembers_laysMembers h keys values skimmed (by omega)]

end Members

theorem known?_none (ms : List (String × Bytes)) : known? (fun _ => none) ms = some [] := by
  induction ms with
  | nil => rfl
  | cons m ms ih => exact ih

theorem skimmed_object {ms : List (String × Bytes)} {bs : Bytes} (layout : LaysObject ms bs)
    (keys : ∀ m ∈ ms, IsInner (utf8 m.1)) (values : ∀ m ∈ ms, loose.Value m.2)
    (skimmed : ∀ m ∈ ms, Skimmed m.2) : Skimmed bs := by
  obtain ⟨body, rfl, members⟩ :=
    readMembers_laysObject (fun _ => none) layout keys values skimmed
  refine ⟨⟨openBrace, body, rfl, rfl, rfl⟩, fun fuel rest enough _ => ⟨rest, ?_, rfl⟩⟩
  simp only [List.length_cons] at enough
  obtain ⟨fuel, rfl⟩ : ∃ n, fuel = n + 1 := ⟨fuel - 1, by omega⟩
  have opening : next? (openBrace :: body ++ rest) = some (openBrace, body ++ rest) :=
    next?_cons rfl _
  have unequal : openBrace ≠ quote := by decide
  have whole := members fuel (by omega) rest
  rw [known?_none] at whole
  simp only [skipValue, opening, Option.bind_eq_bind, Option.bind_some, unequal, if_false, if_true,
    whole]
  rfl

/-- Every value, however deep, is stepped over as a whole. -/
theorem Rules.Value.skimmed {v : Bytes} (h : loose.Value v) : Skimmed v := by
  induction h with
  | text h => exact skimmed_text h
  | bare h => exact skimmed_bare h
  | list layout _ ih => exact skimmed_list layout ih
  | object layout keys each ih => exact skimmed_object layout keys each ih

/-- Of an object only the known members count, and nothing but spaces may follow it. -/
theorem readRecord?_of_opens {fields : String → Option Shape} {ms : List (String × Bytes)}
    {bs rest : Bytes} (h : loose.Opens ms bs rest) : readRecord? fields bs =
      (known? fields ms).bind fun known =>
        if Blank rest ∧ (known.map Prod.fst).Nodup then some known else none := by
  obtain ⟨a, object, blank, layout, keys, values, rfl⟩ := h
  obtain ⟨body, rfl, members⟩ := readMembers_laysObject fields layout keys values
    fun m hm => (values m hm).skimmed
  have opening : next? (a ++ openBrace :: body ++ rest) = some (openBrace, body ++ rest) := by
    simpa using next?_blank_cons blank (show isSpace openBrace = false from rfl) _
  have whole := members (2 * (a ++ openBrace :: body ++ rest).length + 1)
    (by simp only [List.length_append, List.length_cons]; omega) rest
  have spaces : rest.all isSpace = true ↔ Blank rest := List.all_eq_true
  simp only [readRecord?, opening, Option.bind_eq_bind, Option.bind_some, ne_eq,
    not_true_eq_false, if_false, whole]
  cases known? fields ms with
  | none => rfl
  | some known => simp [← spaces]

end GattGateway.Json
