import GattGateway.Proofs.Grouping
import GattGateway.Scan.Device
import Mathlib.Data.List.Induction

/-!
# From reports to devices

A collector keeps the first reports of a scan window, up to its limit, and counts the others. The
devices made of the kept ones are one for each address that identifies itself in any of its reports,
in the order of first sightings, and each is a summary of the reports of its own address.
-/
namespace GattGateway

/-! ## Collecting -/

/-- A report as it is kept. -/
def Report.cut (r : Report) : Report := { r with payload := r.payload.take maxAdvertBytes }

namespace Collector

/-- What a collector holds after some reports. -/
structure Holds (c : Collector) (limit : Nat) (rs : List Report) : Prop where
  bound : c.limit = limit
  reports : c.reports = (rs.take limit).map Report.cut
  counted : c.reports.length + c.dropped = rs.length

theorem Holds.add {c : Collector} {limit : Nat} {rs : List Report} (h : c.Holds limit rs)
    (r : Report) : (c.add r).Holds limit (rs ++ [r]) := by
  have hl : c.reports.length = min limit rs.length := by simp [h.reports]
  have counted := h.counted
  by_cases hf : limit ≤ rs.length
  · have full : c.isFull = true := by simp [isFull, h.bound, hl, hf]
    have kept : (rs ++ [r]).take limit = rs.take limit := List.take_append_of_le_length hf
    refine ⟨?_, ?_, ?_⟩
    · simp [Collector.add, full, h.bound]
    · simp [Collector.add, full, h.reports, kept]
    · simp only [Collector.add, full, if_true, List.length_append, List.length_singleton]
      omega
  · have room : c.isFull = false := by
      simp only [isFull, h.bound, hl, decide_eq_false_iff_not]
      omega
    have all : rs.take limit = rs := List.take_of_length_le (by omega)
    have kept : (rs ++ [r]).take limit = rs ++ [r] :=
      List.take_of_length_le (by simp only [List.length_append, List.length_singleton]; omega)
    refine ⟨?_, ?_, ?_⟩
    · simp [Collector.add, room, h.bound]
    · simp [Collector.add, room, h.reports, all, kept, Report.cut]
    · simp only [Collector.add, room, Bool.false_eq_true, if_false, List.length_append,
        List.length_singleton]
      omega

theorem holds_addAll (limit : Nat) (rs : List Report) :
    ((empty limit).addAll rs).Holds (min limit maxReports) rs := by
  induction rs using List.reverseRecOn with
  | nil => exact ⟨rfl, by simp [addAll, empty], rfl⟩
  | append_singleton rs r ih =>
    have hr : (empty limit).addAll (rs ++ [r]) = ((empty limit).addAll rs).add r := by
      simp [addAll]
    rw [hr]
    exact ih.add r

end Collector

/-! ## One device -/

/-- What a report says of its device. -/
def Report.fields (r : Report) : Advert.Fields := .ofPayload r.payload

/-- A report that tells its device from others of its kind. -/
def Report.identifies (r : Report) : Bool := r.fields.name != "" || r.fields.manufacturer.isSome

namespace Device

/-- The device that sent some reports: the kind of address and the services of the first, the best
signal, and the first name and the first manufacturer data that any of them has. -/
def ofSightings : List Report → Option Device
  | [] => none
  | first :: later =>
    let own := first :: later
    let manufacturer := own.findSome? (·.fields.manufacturer)
    some
      { address := first.address
        name := ((own.map (·.fields.name)).find? (· ≠ "")).getD ""
        rssi := later.foldl (fun best r => max best r.rssi) first.rssi
        services := first.fields.services
        kind := first.kind
        company := manufacturer.map (·.company)
        manufacturerData := manufacturer.map (·.data) }

theorem ofReport_eq (r : Report) : ofReport r =
    { address := r.address
      name := r.fields.name
      rssi := r.rssi
      services := r.fields.services
      kind := r.kind
      company := r.fields.manufacturer.map (·.company)
      manufacturerData := r.fields.manufacturer.map (·.data) } := rfl

theorem address_merge (d later : Device) : (d.merge later).address = d.address := by
  unfold merge
  dsimp only
  split_ifs <;> rfl

theorem max_eq_ite (a b : Int8) : max a b = if a < b then b else a := by
  rw [show max a b = if a ≤ b then b else a from rfl]
  split_ifs with hle hlt hlt
  · rfl
  · exact Int8.le_antisymm (Int8.not_lt.1 hlt) hle
  · exact absurd (Int8.le_of_lt hlt) hle
  · rfl

/-- A later report raises the signal and fills in what is missing, a company and its data
together. -/
theorem merge_ofReport {d : Device} {manufacturer : Option Advert.Manufacturer}
    (hc : d.company = manufacturer.map (·.company))
    (hd : d.manufacturerData = manufacturer.map (·.data)) (r : Report) :
    d.merge (ofReport r) =
      { d with
        rssi := max d.rssi r.rssi
        name := if d.name = "" then r.fields.name else d.name
        company := (manufacturer.or r.fields.manufacturer).map (·.company)
        manufacturerData := (manufacturer.or r.fields.manufacturer).map (·.data) } := by
  obtain ⟨address, name, rssi, services, kind, company, manufacturerData⟩ := d
  obtain rfl : company = _ := hc
  obtain rfl : manufacturerData = _ := hd
  rw [max_eq_ite, ofReport_eq]
  unfold merge
  cases manufacturer with
  | none =>
    cases r.fields.manufacturer <;> dsimp only <;> split_ifs <;> simp_all
  | some known =>
    dsimp only
    split_ifs <;> simp_all

/-- The first name that is not empty, of some names and one more. -/
theorem firstName_concat (names : List String) (name : String) :
    ((names ++ [name]).find? (· ≠ "")).getD "" =
      if (names.find? (· ≠ "")).getD "" = "" then name else (names.find? (· ≠ "")).getD "" := by
  rw [List.find?_append]
  cases hn : names.find? (· ≠ "") with
  | none =>
    by_cases he : name = "" <;> simp [he]
  | some n =>
    have : n ≠ "" := by simpa using List.find?_some hn
    simp [this]

/-- The sightings of one address are merged to the summary of them. -/
theorem merged_ofReport (own : List Report) :
    merged merge (own.map ofReport) = ofSightings own := by
  cases own with
  | nil => rfl
  | cons first later =>
    induction later using List.reverseRecOn with
    | nil =>
      by_cases hn : first.fields.name = "" <;> simp [merged, ofSightings, ofReport_eq, hn]
    | append_singleton later r ih =>
      have hc : first :: (later ++ [r]) = (first :: later) ++ [r] := rfl
      rw [hc, List.map_append, List.map_singleton, merged_concat _ (by simp), ih, ← hc]
      simp only [ofSightings, Option.map_some, Option.some_inj]
      rw [merge_ofReport rfl rfl]
      simp only [hc, List.map_append, List.map_singleton, firstName_concat, List.foldl_append,
        List.findSome?_append, List.foldl_cons, List.foldl_nil]
      simp

theorem address_of_ofSightings {own : List Report} {d : Device} {a : Address}
    (h : ofSightings own = some d) (ha : ∀ r ∈ own, r.address = a) : d.address = a := by
  cases own with
  | nil => cases h
  | cons first later =>
    cases h
    exact ha first List.mem_cons_self

/-- The first name that is not empty is there exactly if one of the names is not empty. -/
theorem firstName_ne (names : List String) :
    (((names.find? (· ≠ "")).getD "") != "") = names.any (· != "") := by
  induction names with
  | nil => rfl
  | cons name names ih =>
    by_cases h : name = ""
    · simpa [h] using ih
    · simp [h]

/-- A device has an identity exactly if one of its reports tells it. -/
theorem hasIdentity_of_ofSightings {own : List Report} {d : Device}
    (h : ofSightings own = some d) : d.hasIdentity = own.any Report.identifies := by
  have split : own.any Report.identifies =
      ((own.map (·.fields.name)).any (· != "") ||
        (own.findSome? (·.fields.manufacturer)).isSome) := by
    rw [List.any_map, Bool.eq_iff_iff]
    simp only [Report.identifies, List.any_eq_true, Bool.or_eq_true, List.isSome_findSome?,
      Function.comp_apply, and_or_left, exists_or]
  cases own with
  | nil => cases h
  | cons first later =>
    cases h
    rw [split, ← firstName_ne]
    simp only [hasIdentity, Option.isSome_map]

/-- The device that sent some reports, if one of them identifies it. -/
def identified (own : List Report) : Option Device :=
  if own.any Report.identifies then ofSightings own else none

theorem isSome_identified (own : List Report) :
    (identified own).isSome = own.any Report.identifies := by
  cases own with
  | nil => rfl
  | cons first later =>
    by_cases h : (first :: later).any Report.identifies <;> simp [identified, h, ofSightings]

theorem filter_hasIdentity (own : List Report) :
    (ofSightings own).filter hasIdentity = identified own := by
  unfold identified
  cases h : ofSightings own with
  | none => simp
  | some d => simp [Option.filter, hasIdentity_of_ofSightings h]

end Device

/-! ## All devices -/

/-- The reports of one address, in order. -/
def ownReports (rs : List Report) (a : Address) : List Report := rs.filter (·.address = a)

theorem mergeSightings_eq (rs : List Report) :
    mergeSightings rs =
      (rs.map (·.address)).eraseDups.filterMap fun a => Device.ofSightings (ownReports rs a) := by
  have own (a : Address) : (rs.map Device.ofReport).filter (·.address = a) =
      (ownReports rs a).map Device.ofReport := by
    rw [List.filter_map]
    rfl
  have addresses : (rs.map Device.ofReport).map Device.address = rs.map (·.address) := by
    rw [List.map_map]
    rfl
  rw [mergeSightings, foldl_upsert fun d later _ => Device.address_merge d later, addresses]
  simp only [own, Device.merged_ofReport]

/-- The devices of some reports are made for each address by itself. -/
theorem devicesOf_eq (rs : List Report) :
    devicesOf rs =
      (rs.map (·.address)).eraseDups.filterMap fun a => Device.identified (ownReports rs a) := by
  rw [devicesOf, mergeSightings_eq, List.filter_filterMap]
  simp only [Device.filter_hasIdentity]

theorem address_of_identified {rs : List Report} {a : Address} {d : Device}
    (h : Device.identified (ownReports rs a) = some d) : d.address = a := by
  rw [Device.identified] at h
  split_ifs at h
  exact Device.address_of_ofSightings h (by simp [ownReports])

/-- Of all reports of a scan window a collector keeps the first ones up to its limit, cut to size,
and counts the others. The devices made of the kept reports are those that identify themselves, in
the order of first sightings, each with what the reports of its own address say of it. -/
theorem scan_pipeline (limit : Nat) (rs : List Report) :
    let c := (Collector.empty limit).addAll rs
    c.reports = (rs.take (min limit maxReports)).map Report.cut ∧
    c.reports.length + c.dropped = rs.length ∧
    (devicesOf c.reports).map (·.address) =
      (c.reports.map (·.address)).eraseDups.filter (fun a =>
        (ownReports c.reports a).any Report.identifies) ∧
    devicesOf c.reports = (c.reports.map (·.address)).eraseDups.filterMap (fun a =>
      Device.identified (ownReports c.reports a)) ∧
    ∀ a, (devicesOf c.reports).find? (·.address = a) =
      Device.identified (ownReports c.reports a) := by
  intro c
  have holds := Collector.holds_addAll limit rs
  have key (a : Address) (d : Device) (h : Device.identified (ownReports c.reports a) = some d) :=
    address_of_identified h
  have identifies (a : Address) : (Device.identified (ownReports c.reports a)).isSome =
      (ownReports c.reports a).any Report.identifies :=
    Device.isSome_identified (ownReports c.reports a)
  refine ⟨holds.reports, holds.counted, ?_, devicesOf_eq c.reports, fun a => ?_⟩
  · rw [devicesOf_eq, map_key_filterMap key]
    simp only [identifies]
  · rw [devicesOf_eq, find?_filterMap_key key]
    split_ifs with ha
    · rfl
    · have unseen : ownReports c.reports a = [] := by
        refine List.filter_eq_nil_iff.2 fun r hr he => ha ?_
        simp only [List.mem_eraseDups, List.mem_map]
        exact ⟨r, hr, by simpa using he⟩
      simp [unseen, Device.identified]

end GattGateway
