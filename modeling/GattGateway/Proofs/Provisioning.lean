import GattGateway.Provisioning
import GattGateway.Proofs.Spelling
import Mathlib.Data.List.Nodup

/-!
# Provisioning files

A provisioning is read back from every JSON file that holds it, whatever the order of the members,
with one change: each text comes back as it stands between its quotes. Texts without quotes,
backslashes and control characters come back as they were.
-/
namespace GattGateway

open Json Text

/-! ## Members in any order -/

/-- Where each key stands once, the order of the members does not matter. -/
theorem lookup_perm {ms ns : List (String × Scalar)} (h : ms.Perm ns)
    (distinct : (ms.map Prod.fst).Nodup) (key : String) : ms.lookup key = ns.lookup key := by
  induction h with
  | nil => rfl
  | cons m _ ih =>
    obtain ⟨k, v⟩ := m
    simp only [List.lookup_cons, ih (List.nodup_cons.1 distinct).2]
  | swap a b ms =>
    obtain ⟨k, v⟩ := a
    obtain ⟨l, w⟩ := b
    have other : l ≠ k := by
      simp only [List.map_cons, List.nodup_cons, List.mem_cons, not_or] at distinct
      exact distinct.1.1
    simp only [List.lookup_cons]
    by_cases first : key = l
    · subst first
      simp only [beq_self_eq_true, beq_eq_false_iff_ne.2 other]
    · simp only [beq_eq_false_iff_ne.2 first]
  | trans h _ ih ih' =>
    exact (ih distinct).trans (ih' ((h.map Prod.fst).nodup_iff.1 distinct))

namespace Provisioning

/-- The members that no file does without. -/
def required (p : Provisioning) : List (String × Scalar) :=
  [("topic_prefix", .text p.topicPrefix), ("device_id", .text p.deviceId),
    ("wifi_ssid", .text p.wifiSsid), ("wifi_password", .text p.wifiPassword),
    ("mqtt_broker", .text p.broker), ("mqtt_port", .number p.port.toNat)]

/-- How an optional text is given; an absent one is null or left out. -/
inductive Given (key : String) : Option String → List (String × Scalar) → Prop
  | text (s : String) : Given key (some s) [(key, .text s)]
  | null : Given key none [(key, .absent)]
  | omitted : Given key none []

/-- The members of a file that holds `p`, in any order. -/
def Has (p : Provisioning) (ms : List (String × Scalar)) : Prop :=
  ∃ user password, Given "mqtt_user" p.user user ∧ Given "mqtt_password" p.password password ∧
    ms.Perm (p.required ++ user ++ password)

/-- The bytes are a JSON file that holds `p`. -/
def Writes (p : Provisioning) (bs : Bytes) : Prop := ∃ ms, p.Has ms ∧ Spells ms bs

/-- The provisioning as an object, absent texts left out. -/
def toValue (p : Provisioning) : Value :=
  .object ([("topic_prefix", .text p.topicPrefix), ("device_id", .text p.deviceId),
    ("wifi_ssid", .text p.wifiSsid), ("wifi_password", .text p.wifiPassword),
    ("mqtt_broker", .text p.broker), ("mqtt_port", .number p.port.toNat)] ++
    p.user.toList.map (("mqtt_user", .text ·)) ++
    p.password.toList.map (("mqtt_password", .text ·)))

theorem exists_given (key : String) (o : Option String) :
    ∃ ms, Given key o ms ∧ List.Forall₂ Prints ms (o.toList.map ((key, .text ·))) := by
  cases o with
  | none => exact ⟨_, .omitted, .nil⟩
  | some s => exact ⟨_, .text s, .cons (prints_text key s) .nil⟩

/-- Every provisioning has a file, the printed object. -/
theorem writes_toValue (p : Provisioning) : p.Writes (utf8 p.toValue.toText) := by
  obtain ⟨user, hu, printedUser⟩ := exists_given "mqtt_user" p.user
  obtain ⟨password, hp, printedPassword⟩ := exists_given "mqtt_password" p.password
  refine ⟨_, ⟨user, password, hu, hp, .refl _⟩, spells_object ?_ (by simp [required])⟩
  have printed : List.Forall₂ Prints p.required _ :=
    .cons (prints_text _ _) (.cons (prints_text _ _) (.cons (prints_text _ _)
      (.cons (prints_text _ _) (.cons (prints_text _ _) (.cons (prints_number _ _) .nil)))))
  exact List.rel_append (List.rel_append printed printedUser) printedPassword

theorem Given.keys {key : String} {o : Option String} {ms : List (String × Scalar)}
    (h : Given key o ms) : (ms.map Prod.fst).Sublist [key] := by
  cases h <;> simp

theorem Given.known {key : String} {o : Option String} {ms : List (String × Scalar)}
    (h : Given key o ms) (literal : escape key = key) (field : shape key = some .optionalText) :
    ∀ m ∈ ms, Knows shape m := by
  cases h <;> simp [Knows, literal, field, Shape.Admits]

theorem Has.distinct {p : Provisioning} {ms : List (String × Scalar)} (h : p.Has ms) :
    (ms.map Prod.fst).Nodup := by
  obtain ⟨user, password, hu, hp, perm⟩ := h
  rw [(perm.map Prod.fst).nodup_iff, List.map_append, List.map_append]
  have all : (p.required.map Prod.fst ++ ["mqtt_user"] ++ ["mqtt_password"]).Nodup := by
    simp [required]
  exact all.sublist (((List.Sublist.refl _).append hu.keys).append hp.keys)

theorem required_known (p : Provisioning) : ∀ m ∈ p.required, Knows shape m := by
  have port : p.port.toNat ≤ 65535 := by
    have := p.port.toNat_lt
    omega
  have keys : ∀ key ∈ p.required.map Prod.fst, escape key = key := by
    have literal : ∀ key ∈ p.required.map Prod.fst, Literal key := by
      simp only [required, List.map_cons, List.map_nil]
      decide
    exact fun key hk => escape_eq_self.2 (literal key hk)
  intro m hm
  refine ⟨keys m.1 (List.mem_map_of_mem hm), ?_⟩
  simp only [required, List.mem_cons, List.not_mem_nil, or_false] at hm
  rcases hm with rfl | rfl | rfl | rfl | rfl | rfl
  case inr.inr.inr.inr.inr => exact ⟨.number 65535, rfl, port⟩
  all_goals exact ⟨.text, rfl, trivial⟩

theorem Has.known {p : Provisioning} {ms : List (String × Scalar)} (h : p.Has ms) :
    ∀ m ∈ ms, Knows shape m := by
  obtain ⟨user, password, hu, hp, perm⟩ := h
  intro m hm
  simp only [perm.mem_iff, List.mem_append] at hm
  obtain (hm | hm) | hm := hm
  · exact p.required_known m hm
  · exact hu.known (escape_eq_self.2 (by decide)) rfl m hm
  · exact hp.known (escape_eq_self.2 (by decide)) rfl m hm

/-- Reading the members gives what was written. -/
theorem ofMembers?_of_has {p : Provisioning} {ms : List (String × Scalar)} (h : p.Has ms) :
    ofMembers? ms = some p := by
  have distinct := h.distinct
  obtain ⟨user, password, hu, hp, perm⟩ := h
  have same (key : String) : ms.lookup key = (p.required ++ user ++ password).lookup key :=
    lookup_perm perm distinct key
  simp only [ofMembers?, textOf?, numberOf?, same]
  obtain ⟨topic, device, ssid, wifi, broker, port, user, password⟩ := p
  have back : UInt16.ofNat port.toNat = port := UInt16.ofNat_toNat
  cases hu <;> cases hp <;> simp [required, List.lookup_cons, back]

/-! ## What comes back -/

/-- Every text as it stands between its quotes. -/
def escaped (p : Provisioning) : Provisioning where
  topicPrefix := escape p.topicPrefix
  deviceId := escape p.deviceId
  wifiSsid := escape p.wifiSsid
  wifiPassword := escape p.wifiPassword
  broker := escape p.broker
  port := p.port
  user := p.user.map escape
  password := p.password.map escape

def texts (p : Provisioning) : List String :=
  [p.topicPrefix, p.deviceId, p.wifiSsid, p.wifiPassword, p.broker] ++ p.user.toList ++
    p.password.toList

theorem escaped_eq_self {p : Provisioning} :
    p.escaped = p ↔ ∀ s ∈ p.texts, Literal s := by
  have optional (o : Option String) : o.map escape = o ↔ ∀ s ∈ o.toList, escape s = s := by
    cases o <;> simp
  obtain ⟨topicPrefix, deviceId, wifiSsid, wifiPassword, broker, port, user, password⟩ := p
  simp only [← escape_eq_self, escaped, texts, mk.injEq, optional, List.forall_mem_append,
    List.forall_mem_cons, List.not_mem_nil, false_implies, implies_true, and_true, true_and]
  tauto

theorem Given.escaped {key : String} {o : Option String} {ms : List (String × Scalar)}
    (h : Given key o ms) : Given key (o.map escape) (ms.map reread) := by
  cases h with
  | text s => exact .text (escape s)
  | null => exact .null
  | omitted => exact .omitted

theorem Has.escaped {p : Provisioning} {ms : List (String × Scalar)} (h : p.Has ms) :
    p.escaped.Has (ms.map reread) := by
  obtain ⟨user, password, hu, hp, perm⟩ := h
  refine ⟨_, _, hu.escaped, hp.escaped, ?_⟩
  have := perm.map reread
  rwa [List.map_append, List.map_append] at this

theorem parse?_of_writes {p : Provisioning} {bs : Bytes} (h : p.Writes bs)
    (named : p.topicPrefix ≠ "") (identified : p.deviceId ≠ "") : parse? bs = some p.escaped := by
  obtain ⟨ms, has, spells⟩ := h
  have read : readRecord? shape bs = some (ms.map reread) :=
    readRecord?_spells spells has.known has.distinct
  have named' : p.escaped.topicPrefix ≠ "" := mt escape_eq_empty.1 named
  have identified' : p.escaped.deviceId ≠ "" := mt escape_eq_empty.1 identified
  simp only [parse?, read, Option.bind_some, ofMembers?_of_has has.escaped, Option.bind_eq_bind,
    named', identified', or_self, if_false]
  rfl

/-- A file of any provisioning with a topic prefix and a device identifier is taken. The port and
which of the optional texts there are come back as they were, and so does each text that has no
quote, no backslash and no control character. The others come back with their escapes. -/
theorem read_back {p : Provisioning} {bs : Bytes} (named : p.topicPrefix ≠ "")
    (identified : p.deviceId ≠ "") (h : p.Writes bs) :
    parse? bs = some p.escaped ∧
      (parse? bs = some p ↔ ∀ s ∈ p.texts, Literal s) := by
  have read := parse?_of_writes h named identified
  refine ⟨read, ?_⟩
  rw [read, Option.some.injEq, escaped_eq_self]

/-- The password holds a quote. -/
def sample : Provisioning where
  topicPrefix := "ble"
  deviceId := "gw"
  wifiSsid := "lab"
  wifiPassword := "a\"b"
  broker := "10.0.0.2"
  port := 1883
  user := none
  password := none

theorem read_back_sample :
    sample.topicPrefix ≠ "" ∧ sample.deviceId ≠ "" ∧ sample.Writes (utf8 sample.toValue.toText) ∧
      parse? (utf8 sample.toValue.toText) = some { sample with wifiPassword := "a\\\"b" } ∧
      parse? (utf8 sample.toValue.toText) ≠ some sample := by
  have named : sample.topicPrefix ≠ "" := by decide
  have identified : sample.deviceId ≠ "" := by decide
  have written := sample.writes_toValue
  have read := read_back named identified written
  refine ⟨named, identified, written, ?_, ?_⟩
  · rw [read.1]
    decide
  · rw [ne_eq, read.2]
    decide

/-- A text with a quote does not come back as it was. -/
theorem not_always_read_back :
    ¬ ∀ (p : Provisioning) (bs : Bytes), p.topicPrefix ≠ "" → p.deviceId ≠ "" → p.Writes bs →
      parse? bs = some p := by
  intro always
  have named : sample.topicPrefix ≠ "" := by decide
  have identified : sample.deviceId ≠ "" := by decide
  have written := sample.writes_toValue
  have read := parse?_of_writes written named identified
  have : sample.escaped ≠ sample := by decide
  rw [always sample _ named identified written, Option.some.injEq] at read
  exact this read.symm

end Provisioning

end GattGateway
