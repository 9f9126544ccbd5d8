import GattGateway.Proofs.Skimming

/-!
# What is printed is JSON

Every value is printed by the standard: its texts with their escapes, its numbers without leading
zeros, its items and members with commas between them. A printed list has as many items as the list
that was printed, and bytes are a list of one number of items only.
-/
namespace GattGateway.Json

open Text (Bytes utf8 utf8_ofList decimalDigits hexDigit)

/-! ## Texts -/

theorem IsEscaped.append {cs ds : List Char} (hc : IsEscaped cs) (hd : IsEscaped ds) :
    IsEscaped (cs ++ ds) := by
  induction hc with
  | nil => exact hd
  | plain h _ ih => exact .plain h ih
  | mark h _ ih => exact .mark h ih
  | code length h _ ih =>
    rw [List.append_assoc]
    exact .code length h ih

/-- The escape of a control character that has none of two characters. -/
theorem isEscaped_control {n : Nat} (h : n < 0x20) :
    IsEscaped ['\\', 'u', '0', '0', hexDigit .upper (n / 16), hexDigit .upper (n % 16)] := by
  have hex {k : Nat} (h : k < 16) : Text.isHexDigit (hexDigit .upper k) = true := by
    rw [Text.isHexDigit, Text.hexValue?_hexDigit .upper h]
    rfl
  refine @IsEscaped.code [_, _, _, _] [] rfl (fun d hd => ?_) .nil
  simp only [List.mem_cons, List.not_mem_nil, or_false] at hd
  rcases hd with rfl | rfl | rfl | rfl
  · decide
  · decide
  · exact hex (by omega)
  · exact hex (by omega)

theorem isEscaped_escapeChar (c : Char) : IsEscaped (escapeChar c) := by
  by_cases h : IsLiteral c
  · rw [escapeChar_of_isLiteral h]
    exact .plain h .nil
  unfold escapeChar
  split_ifs with quote backslash _ _ _ _ _ control
  case neg => exact absurd ⟨quote, backslash, Nat.not_lt.1 control⟩ h
  all_goals first
    | exact .mark (by decide) .nil
    | exact isEscaped_control control

theorem isEscaped_escape (s : String) : IsEscaped (escape s).toList := by
  rw [escape, String.toList_ofList]
  induction s.toList with
  | nil => exact .nil
  | cons c cs ih =>
    rw [List.flatMap_cons]
    exact (isEscaped_escapeChar c).append ih

/-! ## Numbers -/

/-- The digits of a number are zero alone, or begin with another digit. -/
theorem whole_decimalDigits (n : Nat) :
    utf8 (String.ofList (decimalDigits n)) = utf8 "0" ∨
      Digits (utf8 (String.ofList (decimalDigits n))) ∧
        (utf8 (String.ofList (decimalDigits n))).head? ≠ some 0x30 := by
  by_cases zero : n = 0
  · subst zero
    exact .inl rfl
  have digits := digits_of_decimal n
  have head := head?_decimalDigits zero
  have filled : decimalDigits n ≠ [] := Nat.toDigits_ne_nil
  rw [utf8_ofList, flatMap_digits digits]
  obtain ⟨c, cs, hcs⟩ := List.exists_cons_of_ne_nil filled
  rw [hcs] at digits head ⊢
  refine .inr ⟨⟨by simp, ?_⟩, ?_⟩
  · simpa using ⟨isDigit_digitByte (digits c List.mem_cons_self),
      fun d hd => isDigit_digitByte (digits d (List.mem_cons_of_mem _ hd))⟩
  · simpa using digitByte_ne_zero (digits c List.mem_cons_self) (by simpa using head)

theorem isNumber_decimal (n : Int) : IsNumber (utf8 (String.ofList (decimal n))) := by
  have whole := whole_decimalDigits n.natAbs
  have minus : utf8 "-" = String.utf8EncodeChar '-' := by decide
  unfold decimal
  split_ifs
  · refine ⟨utf8 "-", _, [], [], ?_, .inr rfl, whole, .inl rfl, .inl rfl⟩
    rw [List.append_nil, List.append_nil, minus, utf8_ofList, utf8_ofList, List.flatMap_cons]
  · exact ⟨[], _, [], [], by simp, .inl rfl, whole, .inl rfl, .inl rfl⟩

/-! ## Lists -/

/-- The bytes are a list of these items, by some rules. -/
def Rules.Lists (r : Rules) (vs : List Bytes) (bs : Bytes) : Prop :=
  ∃ body, bs = openBracket :: body ++ [closeBracket] ∧ r.items vs body ∧ ∀ v ∈ vs, r.Value v

/-- Items with commas and no spaces between them. -/
theorem laysItems_render (v : Value) (vs : List Value) :
    LaysItems ((v :: vs).map fun v => utf8 v.toText)
      (utf8 (String.ofList (v.render ++ renderItems vs))) := by
  have nothing := Blank.nil
  have separator : String.utf8EncodeChar ',' = [comma] := rfl
  induction vs generalizing v with
  | nil =>
    have := LaysItems.last (v := utf8 v.toText) nothing nothing
    simpa only [renderItems, Value.toText, List.map_cons, List.map_nil, List.append_nil,
      List.nil_append] using this
  | cons w ws ih =>
    have := LaysItems.cons (v := utf8 v.toText) nothing nothing (ih w)
    simpa only [renderItems, Value.toText, List.map_cons, utf8_ofList, List.flatMap_append,
      List.flatMap_cons, separator, List.append_nil, List.nil_append, List.cons_append] using this

theorem items_render (vs : List Value) : ∃ body,
    utf8 (Value.list vs).toText = openBracket :: body ++ [closeBracket] ∧
      standard.items (vs.map fun v => utf8 v.toText) body := by
  cases vs with
  | nil => exact ⟨[], rfl, .inl ⟨rfl, Blank.nil⟩⟩
  | cons v vs =>
    have opening : String.utf8EncodeChar '[' = [openBracket] := rfl
    have close : String.utf8EncodeChar ']' = [closeBracket] := rfl
    refine ⟨_, ?_, .inr (laysItems_render v vs)⟩
    simp only [Value.toText, Value.render, utf8_ofList, List.flatMap_append, List.flatMap_cons,
      List.flatMap_nil, opening, close, List.append_nil, List.cons_append, List.nil_append]

/-! ## Objects -/

/-- A member as it stands in a printed object. -/
def printed (m : String × Value) : String × Bytes := (escape m.1, utf8 m.2.toText)

theorem laysMember_render (m : String × Value) :
    LaysMember (printed m) (utf8 (String.ofList (quoted m.1 ++ ':' :: m.2.render))) := by
  have nothing := Blank.nil
  refine ⟨[], [], [], [], nothing, nothing, nothing, nothing, ?_⟩
  rw [utf8_member, utf8_quoted, printed, between]
  simp only [List.append_nil, List.nil_append, List.append_assoc, List.cons_append]

theorem laysMembers_render (m : String × Value) (ms : List (String × Value)) :
    LaysMembers ((m :: ms).map printed)
      (utf8 (String.ofList (quoted m.1 ++ ':' :: m.2.render ++ renderMembers ms))) := by
  have separator : String.utf8EncodeChar ',' = [comma] := rfl
  induction ms generalizing m with
  | nil =>
    rw [renderMembers, List.append_nil]
    exact .last (laysMember_render m)
  | cons n ns ih =>
    have := LaysMembers.cons (laysMember_render m) (ih n)
    simpa only [renderMembers, List.map_cons, utf8_ofList, List.flatMap_append, List.flatMap_cons,
      separator, List.append_assoc, List.cons_append, List.nil_append] using this

theorem laysObject_render (ms : List (String × Value)) :
    LaysObject (ms.map printed) (utf8 (Value.object ms).toText) := by
  cases ms with
  | nil => exact .empty Blank.nil
  | cons m ms =>
    have opening : String.utf8EncodeChar '\x7b' = [openBrace] := rfl
    have close : String.utf8EncodeChar '\x7d' = [closeBrace] := rfl
    have := LaysObject.filled (laysMembers_render m ms)
    simpa only [Value.toText, Value.render, utf8_ofList, List.flatMap_append, List.flatMap_cons,
      List.flatMap_nil, opening, close, List.append_nil, List.cons_append, List.nil_append,
      List.append_assoc] using this

/-! ## Values -/

mutual

/-- Every value is printed by the standard. -/
theorem Value.standard_toText (v : Value) : standard.Value (utf8 v.toText) := by
  match v with
  | .text s =>
    rw [Value.toText, Value.render, utf8_quoted]
    exact .text (isEscaped_escape s)
  | .number n => exact .bare (.inl (isNumber_decimal n))
  | .list vs =>
    obtain ⟨body, same, items⟩ := items_render vs
    rw [same]
    refine .list items fun v hv => ?_
    obtain ⟨w, hw, rfl⟩ := List.mem_map.1 hv
    exact standard_items vs w hw
  | .object ms =>
    refine .object (laysObject_render ms) (fun m hm => ?_) fun m hm => ?_
    · obtain ⟨n, -, rfl⟩ := List.mem_map.1 hm
      exact isEscaped_escape n.1
    · obtain ⟨n, hn, rfl⟩ := List.mem_map.1 hm
      exact standard_members ms n hn

theorem standard_items (vs : List Value) : ∀ v ∈ vs, standard.Value (utf8 v.toText) := by
  match vs with
  | [] => exact nofun
  | v :: vs => exact List.forall_mem_cons.2 ⟨v.standard_toText, standard_items vs⟩

theorem standard_members (ms : List (String × Value)) :
    ∀ m ∈ ms, standard.Value (utf8 m.2.toText) := by
  match ms with
  | [] => exact nofun
  | (k, v) :: ms => exact List.forall_mem_cons.2 ⟨v.standard_toText, standard_members ms⟩

end

/-- A printed list is a list of its printed items. -/
theorem lists_toText (vs : List Value) :
    standard.Lists (vs.map fun v => utf8 v.toText) (utf8 (Value.list vs).toText) := by
  obtain ⟨body, same, items⟩ := items_render vs
  refine ⟨body, same, items, fun v hv => ?_⟩
  obtain ⟨w, -, rfl⟩ := List.mem_map.1 hv
  exact w.standard_toText

/-! ## The number of items -/

/-- The first item of a list, and what follows it: the end of the list or the other items. -/
theorem LaysItems.first {vs : List Bytes} {bs : Bytes} (h : LaysItems vs bs) :
    ∃ a v ws rest, Blank a ∧ vs = v :: ws ∧ bs ++ [closeBracket] = a ++ (v ++ rest) ∧
      Delimited rest ∧ (ws = [] ∧ next? rest = some (closeBracket, []) ∨
        ∃ bs', LaysItems ws bs' ∧ next? rest = some (comma, bs' ++ [closeBracket])) := by
  cases h with
  | @last a b v ha hb =>
    have next : next? (b ++ [closeBracket]) = some (closeBracket, []) :=
      next?_blank_cons hb rfl []
    exact ⟨a, v, [], b ++ [closeBracket], ha, rfl, by simp, ⟨_, _, next, rfl⟩, .inl ⟨rfl, next⟩⟩
  | @cons a b v rest vs ha hb hs =>
    have next : next? (b ++ comma :: (rest ++ [closeBracket])) =
        some (comma, rest ++ [closeBracket]) := next?_blank_cons hb rfl _
    exact ⟨a, v, vs, _, ha, rfl, by simp, ⟨_, _, next, rfl⟩, .inr ⟨rest, hs, next⟩⟩

/-- What follows one of two values follows the other. -/
theorem Skimmed.next?_eq {v w rest rest' : Bytes} (hv : Skimmed v) (hw : Skimmed w)
    (delimited : Delimited rest) (delimited' : Delimited rest')
    (same : next? (v ++ rest) = next? (w ++ rest')) : next? rest = next? rest' := by
  obtain ⟨r, skipped, next⟩ := hv.skips (max v.length w.length) rest (le_max_left _ _)
    fun _ => delimited
  obtain ⟨r', skipped', next'⟩ := hw.skips (max v.length w.length) rest' (le_max_right _ _)
    fun _ => delimited'
  rw [skipValue_congr same, skipped', Option.some_inj] at skipped
  rw [← next, ← next', skipped]

/-- Whether there is another item is seen behind the first one, so that the same bytes hold the same
number of items. -/
theorem LaysItems.length_eq {vs ws : List Bytes} {bs bs' : Bytes} (h : LaysItems vs bs)
    (h' : LaysItems ws bs') (each : ∀ v ∈ vs, Skimmed v) (each' : ∀ w ∈ ws, Skimmed w)
    (same : bs ++ [closeBracket] = bs' ++ [closeBracket]) : vs.length = ws.length := by
  induction vs generalizing ws bs bs' with
  | nil => cases h
  | cons v vs ih =>
    obtain ⟨a, v, vs, rest, ha, ⟨⟩, split, delimited, follows⟩ := h.first
    obtain ⟨a', w, ws, rest', ha', rfl, split', delimited', follows'⟩ := h'.first
    rw [List.forall_mem_cons] at each each'
    have items : next? (v ++ rest) = next? (w ++ rest') := by
      rw [← next?_blank ha, ← split, same, split', next?_blank ha']
    have behind := each.1.next?_eq each'.1 delimited delimited' items
    rcases follows with ⟨rfl, close⟩ | ⟨bs, others, next⟩ <;>
      rcases follows' with ⟨rfl, close'⟩ | ⟨bs', others', next'⟩
    · rfl
    · rw [close, next'] at behind
      cases behind
    · rw [next, close'] at behind
      cases behind
    · rw [next, next'] at behind
      have tails : bs ++ [closeBracket] = bs' ++ [closeBracket] := by simpa using behind
      rw [List.length_cons, List.length_cons, ih others others' each.2 each'.2 tails]

/-- Where there are items there are not only spaces. -/
theorem LaysItems.not_blank {vs : List Bytes} {bs : Bytes} (h : LaysItems vs bs)
    (each : ∀ v ∈ vs, Skimmed v) : ¬Blank bs := by
  intro blank
  obtain ⟨a, v, ws, rest, ha, rfl, split, -, -⟩ := h.first
  obtain ⟨c, cs, rfl, space, delimiter⟩ := (each v List.mem_cons_self).opens
  have next := congrArg next? split
  rw [next?_blank_cons blank rfl, List.cons_append, next?_blank_cons ha space,
    Option.some_inj, Prod.mk.injEq] at next
  exact ne_of_not_isDelimiter delimiter rfl next.1.symm

/-- Bytes are a list of one number of items only. -/
theorem length_eq_of_lists {vs ws : List Bytes} {bs : Bytes} (h : standard.Lists vs bs)
    (h' : standard.Lists ws bs) : vs.length = ws.length := by
  have skimmed {vs : List Bytes} (each : ∀ v ∈ vs, standard.Value v) : ∀ v ∈ vs, Skimmed v :=
    fun v hv => ((each v hv).within standard_within_loose).skimmed
  obtain ⟨body, rfl, items, each⟩ := h
  obtain ⟨body', same, items', each'⟩ := h'
  obtain rfl : body = body' := by simpa using same
  rcases items with ⟨rfl, blank⟩ | items <;> rcases items' with ⟨rfl, blank'⟩ | items'
  · rfl
  · exact absurd blank (items'.not_blank (skimmed each'))
  · exact absurd blank' (items.not_blank (skimmed each))
  · exact items.length_eq items' (skimmed each) (skimmed each') rfl

end GattGateway.Json
