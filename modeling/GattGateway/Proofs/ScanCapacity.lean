import GattGateway.Proofs.PrintedSize
import GattGateway.Proofs.ScanCycles
import GattGateway.Proofs.Sightings

/-!
# Room for a scan cycle

Whatever devices advertise, what a cycle makes of their reports fits: every device in the room
planned for one, and all devices of a cycle in the room for their list. No cycle fails for lack of
room.
-/
namespace GattGateway

open Segment

/-! ## Faults for lack of room -/

namespace Fault

/-- Something did not fit its buffer. -/
def lacksRoom : Fault → Bool
  | .topicTooLong => true
  | .bufferOverflow => true
  | _ => false

theorem append_ne_of_not_prefix {label rest text : String} (h : ¬label.toList <+: text.toList) :
    label ++ rest ≠ text := by
  rintro rfl
  exact h (by simp)

/-- These faults have sentences of their own. -/
theorem message_ne_of_ne {e full : Fault} (h : e ≠ full)
    (fixed : full = .busy ∨ full = .topicTooLong ∨ full = .bufferOverflow) :
    e.message ≠ full.message := by
  cases e with
  | radio cause => rcases fixed with rfl | rfl | rfl <;> exact append_ne_of_not_prefix (by decide)
  | link cause => rcases fixed with rfl | rfl | rfl <;> exact append_ne_of_not_prefix (by decide)
  | scanFailure cause =>
    cases cause with
    | stack code =>
      rcases fixed with rfl | rfl | rfl <;> exact append_ne_of_not_prefix (by decide)
    | _ => rcases fixed with rfl | rfl | rfl <;> decide
  | _ => rcases fixed with rfl | rfl | rfl <;> first | exact absurd rfl h | decide

/-- The sentence of a fault for lack of room is that of no other fault. -/
theorem message_ne_of_lacksRoom {e full : Fault} (h : e.lacksRoom = false)
    (hf : full.lacksRoom = true) : e.message ≠ full.message := by
  have room : full = .topicTooLong ∨ full = .bufferOverflow := by
    cases full <;> first | exact .inl rfl | exact .inr rfl | cases hf
  refine message_ne_of_ne (fun same => ?_) (.inr room)
  rw [same, hf] at h
  cases h

end Fault

/-! ## What one report can say -/

namespace Advert

/-- Fields within the bounds of what is kept of a payload. -/
structure Fields.Bounded (f : Fields) : Prop where
  name : f.name.utf8ByteSize ≤ maxNameBytes
  services : f.services.length ≤ maxServices
  data : ∀ mf ∈ f.manufacturer,
    Json.Literal mf.data ∧ mf.data.utf8ByteSize ≤ maxManufacturerDigits

theorem utf8ByteSize_fittingName (s : String) : (fittingName s).utf8ByteSize ≤ maxNameBytes := by
  rw [fittingName, String.utf8ByteSize_ofList]
  exact Text.utf8Len_fitting_le ..

theorem length_addService {known : List UInt16} (h : known.length ≤ maxServices) (s : UInt16) :
    (addService known s).length ≤ maxServices := by
  unfold addService
  split_ifs with full
  · exact h
  · rw [not_or] at full
    rw [List.length_append, List.length_singleton]
    omega

theorem length_addServices {known : List UInt16} (h : known.length ≤ maxServices)
    (ss : List UInt16) : (ss.foldl addService known).length ≤ maxServices := by
  induction ss generalizing known with
  | nil => exact h
  | cons s ss ih => exact ih (length_addService h s)

theorem Manufacturer.ofPayload_data (company : UInt16) (payload : Text.Bytes) :
    Json.Literal (ofPayload company payload).data ∧
      (ofPayload company payload).data.utf8ByteSize ≤ maxManufacturerDigits := by
  refine ⟨Text.literal_hexText _, ?_⟩
  rw [ofPayload, Text.utf8ByteSize_hexText, List.length_take]
  simp only [maxManufacturerDigits]
  omega

namespace Fields

theorem Bounded.rename {f : Fields} (h : f.Bounded) (value : Text.Bytes) :
    (f.rename value).Bounded := by
  unfold Fields.rename
  split
  · exact { h with name := utf8ByteSize_fittingName _ }
  · exact h

theorem Bounded.add {f : Fields} (h : f.Bounded) (s : Structure) : (f.add s).Bounded := by
  cases s with
  | completeName value => exact h.rename value
  | shortenedName value => exact h.rename value
  | services value => exact { h with services := length_addServices h.services _ }
  | manufacturer company payload =>
    refine { h with data := ?_ }
    rintro mf ⟨⟩
    exact Manufacturer.ofPayload_data company payload
  | unknown type value => exact h

theorem bounded_ofPayload (payload : Text.Bytes) : (ofPayload payload).Bounded := by
  have fold (ss : List Structure) (f : Fields) (h : f.Bounded) : (ss.foldl add f).Bounded := by
    induction ss generalizing f with
    | nil => exact h
    | cons s ss ih => exact ih _ (h.add s)
  exact fold _ _ ⟨Nat.zero_le _, Nat.zero_le _, nofun⟩

end Fields

end Advert

/-! ## One device -/

namespace Device

/-- A device within the bounds of what is kept of its reports. -/
structure Bounded (d : Device) : Prop where
  name : d.name.utf8ByteSize ≤ maxNameBytes
  services : d.services.length ≤ maxServices
  data : ∀ t ∈ d.manufacturerData, Json.Literal t ∧ t.utf8ByteSize ≤ maxManufacturerDigits

theorem bounded_of_ofSightings {own : List Report} {d : Device} (h : ofSightings own = some d) :
    d.Bounded := by
  have bounded (r : Report) : r.fields.Bounded := Advert.Fields.bounded_ofPayload r.payload
  cases own with
  | nil => cases h
  | cons first later =>
    cases h
    refine ⟨?_, (bounded first).services, ?_⟩
    · cases hn : ((first :: later).map (·.fields.name)).find? (· ≠ "") with
      | none => exact Nat.zero_le _
      | some name =>
        obtain ⟨r, -, rfl⟩ := List.mem_map.1 (List.mem_of_find?_eq_some hn)
        exact (bounded r).name
    · intro t ht
      obtain ⟨mf, hmf, rfl⟩ := Option.map_eq_some_iff.1 ht
      obtain ⟨r, -, hr⟩ := List.exists_of_findSome?_eq_some hmf
      exact (bounded r).data mf hr

theorem size_serviceText (s : UInt16) : (Json.Value.text (serviceText s)).size = 6 := by
  have text : serviceText s = Text.hexText [(s >>> 8).toUInt8, s.toUInt8] := by
    rw [serviceText, hexWord_eq, Text.hexText]
  rw [text, Json.Value.size_text, Json.utf8Len_quoted_of_literal (Text.literal_hexText _),
    Text.utf8ByteSize_hexText]
  rfl

theorem size_addressToJson (a : Address) : a.toJson.size = 19 := by
  rw [Address.toJson, Json.Value.size_text, Json.utf8Len_quoted_of_literal a.literal_text,
    a.utf8ByteSize_text]

theorem size_rssi_le (rssi : Int8) : (Json.Value.number rssi.toInt).size ≤ 4 := by
  have := rssi.toInt_lt
  have := rssi.le_toInt
  rw [Json.Value.size_number]
  exact Json.utf8Len_decimal_le (k := 3) (by decide) (by omega)

theorem size_services_le {ss : List UInt16} (h : ss.length ≤ maxServices) :
    (Json.Value.list (ss.map fun s => .text (serviceText s))).size ≤ 2 + maxServices * 7 := by
  refine Json.Value.size_list_le_mul (by rwa [List.length_map]) fun v hv => ?_
  obtain ⟨s, -, rfl⟩ := List.mem_map.1 hv
  exact (size_serviceText s).le

/-- The company takes no more than its key and five digits. -/
theorem size_company_le (company : Option UInt16) :
    ((company.map fun c => ("manufacturer_id", Json.Value.number c.toNat)).toList.map
      Json.memberSize).sum ≤ 24 := by
  have key : String.utf8Len (Json.quoted "manufacturer_id") = 17 := by decide
  cases company with
  | none => exact Nat.zero_le _
  | some c =>
    have := c.toNat_lt
    have digits := Json.utf8Len_decimal_natCast_le (k := 5) (by decide)
      (show c.toNat < 10 ^ 5 by omega)
    simp [Json.memberSize, key]
    omega

theorem size_manufacturerData_le {data : Option String}
    (h : ∀ t ∈ data, Json.Literal t ∧ t.utf8ByteSize ≤ maxManufacturerDigits) :
    ((data.map fun t => ("manufacturer_data", Json.Value.text t)).toList.map
      Json.memberSize).sum ≤ 87 := by
  have key : String.utf8Len (Json.quoted "manufacturer_data") = 19 := by decide
  cases data with
  | none => exact Nat.zero_le _
  | some t =>
    obtain ⟨literal, size⟩ := h t rfl
    simp only [maxManufacturerDigits] at size
    simp [Json.memberSize, key, Json.utf8Len_quoted_of_literal literal]
    omega

theorem size_toJson {d : Device} (h : d.Bounded) : d.toJson.size ≤ maxEncodedDevice := by
  have address := size_addressToJson d.address
  have name : (Json.Value.text d.name).size ≤ 6 * maxNameBytes + 2 := by
    have := Json.utf8Len_quoted_le d.name
    have := h.name
    rw [Json.Value.size_text]
    omega
  have rssi := size_rssi_le d.rssi
  have services := size_services_le h.services
  have kind : d.kind.toJson.size = 1 := by
    cases d.kind <;> rfl
  have company := size_company_le d.company
  have data := size_manufacturerData_le h.data
  have keys : String.utf8Len (Json.quoted "address") = 9 ∧
      String.utf8Len (Json.quoted "name") = 6 ∧ String.utf8Len (Json.quoted "rssi") = 6 ∧
      String.utf8Len (Json.quoted "services") = 10 ∧
      String.utf8Len (Json.quoted "addr_type") = 11 := by decide
  have room : maxEncodedDevice = 498 := by decide
  rw [toJson, Json.Value.size_object (by simp), room]
  simp only [List.cons_append, List.nil_append, List.map_cons, List.sum_cons, List.map_append,
    List.sum_append, Json.memberSize, keys]
  simp only [maxNameBytes, maxServices] at name services
  omega

end Device

/-! ## All devices of a cycle -/

theorem bounded_of_mem_devicesOf {rs : List Report} {d : Device} (h : d ∈ devicesOf rs) :
    d.Bounded := by
  rw [devicesOf_eq] at h
  obtain ⟨a, -, hd⟩ := List.mem_filterMap.1 h
  unfold Device.identified at hd
  split_ifs at hd
  exact Device.bounded_of_ofSightings hd

theorem length_upsert_le {α κ : Type} [DecidableEq κ] (key : α → κ) (merge : α → α → α)
    (ys : List α) (x : α) : (upsert key merge ys x).length ≤ ys.length + 1 := by
  induction ys with
  | nil => exact Nat.le_refl _
  | cons y ys ih =>
    unfold upsert
    split_ifs
    · exact Nat.le_succ _
    · exact Nat.succ_le_succ ih

theorem length_mergeSightings_le (rs : List Report) : (mergeSightings rs).length ≤ rs.length := by
  induction rs using List.reverseRecOn with
  | nil => exact Nat.le_refl _
  | append_singleton rs r ih =>
    have later : mergeSightings (rs ++ [r]) =
        upsert Device.address Device.merge (mergeSightings rs) (.ofReport r) := by
      simp [mergeSightings]
    rw [later, List.length_append]
    exact (length_upsert_le ..).trans (Nat.succ_le_succ ih)

theorem length_devicesOf_le (rs : List Report) : (devicesOf rs).length ≤ rs.length :=
  (List.length_filter_le ..).trans (length_mergeSightings_le rs)

/-- So many reports always leave room enough for their devices. -/
theorem size_devicesToJson_le {rs : List Report} (h : rs.length ≤ maxReports) :
    (devicesToJson (devicesOf rs)).size ≤ maxScanBytes := by
  refine Json.Value.size_list_le_mul ?_ ?_
  · rw [List.length_map]
    exact (length_devicesOf_le rs).trans h
  · intro v hv
    obtain ⟨d, hd, rfl⟩ := List.mem_map.1 hv
    exact Device.size_toJson (bounded_of_mem_devicesOf hd)

/-- What some reports have made of an empty collector. -/
def Collector.Collected (c : Collector) : Prop :=
  ∃ limit rs, c = (Collector.empty limit).addAll rs

namespace Collector

theorem collected_empty (limit : Nat) : (empty limit).Collected := ⟨limit, [], rfl⟩

theorem Collected.add {c : Collector} (h : c.Collected) (r : Report) : (c.add r).Collected := by
  obtain ⟨limit, rs, rfl⟩ := h
  exact ⟨limit, rs ++ [r], by simp [addAll]⟩

theorem length_addAll_le (limit : Nat) (rs : List Report) :
    ((empty limit).addAll rs).reports.length ≤ maxReports := by
  rw [(holds_addAll limit rs).reports, List.length_map, List.length_take]
  exact (Nat.min_le_left _ _).trans (Nat.min_le_right _ _)

theorem Collected.length_le {c : Collector} (h : c.Collected) : c.reports.length ≤ maxReports := by
  obtain ⟨limit, rs, rfl⟩ := h
  exact length_addAll_le limit rs

end Collector

/-! ## One cycle -/

/-- A scan has found what fits, or has failed for another reason than lack of room. -/
def Sweep.Fits (found : Result) : Prop :=
  match found with
  | .ok ds => Autoscan.encode ds = .ok (Text.utf8 (devicesToJson ds).toText)
  | .error e => e.lacksRoom = false

theorem Autoscan.encode_eq_ok {rs : List Report} (h : rs.length ≤ maxReports) :
    encode (devicesOf rs) = .ok (Text.utf8 (devicesToJson (devicesOf rs)).toText) := by
  rw [encode, Json.Value.textWithin?_eq_some (size_devicesToJson_le h)]

namespace Sweep

variable {m : Moment} {g : Gateway}

/-- Whatever has been heard at a stage has been collected. -/
def Stage.Collects : Stage → Prop
  | .poweringUp => True
  | .listening _ heard => heard.Collected
  | .stopping heard => ∀ c, heard = .ok c → c.Collected
  | .poweringDown heard => ∀ c, heard = .ok c → c.Collected

theorem Stage.Collects.hear {s : Stage} (h : s.Collects) (r : Report) : (s.hear r).Collects := by
  cases s with
  | listening deadline heard => exact Collector.Collected.add h r
  | _ => exact h

theorem fits_result {heard : Except RadioFault Collector}
    (h : ∀ c, heard = .ok c → c.Collected) : Fits (result heard) := by
  cases heard with
  | ok c => exact Autoscan.encode_eq_ok (h c rfl).length_le
  | error e => rfl

theorem close_collects {heard : Except RadioFault Collector}
    (h : ∀ c, heard = .ok c → c.Collected) :
    (close g heard).Ends (fun _ s => s.Collects) fun _ found => Fits found := by
  unfold close
  dsimp only
  split_ifs
  · exact h
  · exact fits_result h

theorem begin_collects : (begin m g).Ends (fun _ s => s.Collects) fun _ found => Fits found := by
  unfold begin
  dsimp only
  split_ifs
  · exact rfl
  · exact Collector.collected_empty _
  · trivial

theorem resume_collects {s : Stage} {w : Wake} (h : s.Collects) :
    (resume m g s w).Ends (fun _ s => s.Collects) fun _ found => Fits found := by
  cases w with
  | signal => cases s <;> exact h
  | timeout =>
    cases s with
    | listening deadline heard =>
      rintro c ⟨⟩
      exact h
    | _ => exact h
  | reply r =>
    cases s with
    | poweringUp =>
      simp only [resume]
      split
      · exact Collector.collected_empty _
      · exact close_collects fun c hc => by cases hc
    | listening deadline heard =>
      intro c hc
      cases hr : r.radio with
      | ok _ =>
        rw [hr] at hc
        cases hc
        exact h
      | error e =>
        rw [hr] at hc
        cases hc
    | stopping heard => exact close_collects h
    | poweringDown heard =>
      simp only [resume]
      split
      · exact fits_result h
      · exact fits_result h

end Sweep

namespace Autoscan

variable {m : Moment} {g : Gateway}

/-- What a cycle has found at a stage fits. -/
def Stage.Roomy : Stage → Prop
  | .sweeping s => s.Collects
  | .recovering found _ => Sweep.Fits found
  | _ => True

theorem Stage.Roomy.hear {stage : Stage} (h : stage.Roomy) (r : Report) :
    (stage.hear r).Roomy := by
  cases stage with
  | sweeping s => exact Sweep.Stage.Collects.hear h r
  | _ => exact h

/-- No segment reports that there was no room. -/
def Unfailing (told : List Event) (next : Stage) : Prop :=
  next.Roomy ∧ ∀ e : Fault, e.lacksRoom = true → .error (failure e) ∉ told

theorem unfailing_silent {next : Stage} (h : next.Roomy) : Unfailing [] next :=
  ⟨h, fun _ _ => List.not_mem_nil⟩

theorem report_unfailing {e : Fault} (h : e.lacksRoom = false) :
    (report m g e).Leads fun _ told next => Unfailing told next := by
  rw [report_eq, leads_telling, leads_wait]
  refine ⟨trivial, fun full hf told => Fault.message_ne_of_lacksRoom h hf ?_⟩
  have same : failure full = failure e := by simpa using told
  exact ((String.append_right_inj _).1 same).symm

theorem publish_unfailing {found : Sweep.Result} (h : Sweep.Fits found) :
    (publish m g found).Leads fun _ told next => Unfailing told next := by
  cases found with
  | error e => exact report_unfailing h
  | ok ds =>
    have made : ∃ message, resultsMessage m ds = .ok message := by
      rw [resultsMessage, show encode ds = _ from h, m.topics.topic_eq]
      exact ⟨_, rfl⟩
    obtain ⟨message, made⟩ := made
    simp only [publish, made]
    exact unfailing_silent trivial

theorem recover_unfailing {found : Sweep.Result} {s : Segment Recovery.Stage Recovery.Outcome}
    (silent : s.events = []) (h : Sweep.Fits found) :
    (recover m found s).Leads fun _ told next => Unfailing told next :=
  (ends_trivial s).leads silent (fun _ _ _ => unfailing_silent h) fun _ _ _ =>
    publish_unfailing h

theorem sweep_unfailing {s : Segment Sweep.Stage Sweep.Result} (silent : s.events = [])
    (h : s.Ends (fun _ s => s.Collects) fun _ found => Sweep.Fits found) :
    (sweep m s).Leads fun _ told next => Unfailing told next :=
  h.leads silent (fun _ _ hs => unfailing_silent hs) fun _ _ hf =>
    recover_unfailing Recovery.poll_events hf

theorem consider_unfailing : (consider m g).Leads fun _ told next => Unfailing told next := by
  unfold consider
  split_ifs
  · exact unfailing_silent trivial
  · exact unfailing_silent trivial
  · exact unfailing_silent trivial
  · unfold start
    rw [leads_telling]
    refine (sweep_unfailing Sweep.begin_events Sweep.begin_collects).imp fun _ told next h => ?_
    exact ⟨h.1, fun e he => by simpa using h.2 e he⟩

theorem resume_unfailing {stage : Stage} {w : Wake} (h : stage.Roomy) :
    (resume m g stage w).Leads fun _ told next => Unfailing told next := by
  unfold resume
  split
  · exact consider_unfailing
  · exact consider_unfailing
  · exact sweep_unfailing Sweep.resume_events (Sweep.resume_collects h)
  · exact recover_unfailing Recovery.resume_events h
  · split
    · rw [leads_telling]
      exact ⟨trivial, fun _ _ => by simp [release, wait]⟩
    · exact report_unfailing rfl
  · exact unfailing_silent trivial
  · exact unfailing_silent h

end Autoscan

/-! ## Every cycle of a run -/

variable {setup : Setup} {past : List Step} {s : System}

theorem Run.roomy (h : Run setup past s) : s.autoscan.Roomy := by
  induction h with
  | start online => trivial
  | @step past s s' mv told run moved ih =>
    have hm := System.moved_of_move? moved
    rcases run.addressed.autoscan_or_unheard hm with ⟨w, rfl⟩ | unheard
    · cases hm with
      | autoscan up woken ran =>
        subst ran
        exact (Autoscan.resume_unfailing ih).1
    · rcases unheard.autoscan with same | ⟨r, heard⟩
      · exact same ▸ ih
      · exact heard ▸ ih.hear r

theorem Run.unfailing (h : Run setup past s) {t : Step} (ht : t ∈ past) {e : Fault}
    (he : e.lacksRoom = true) : .error (Autoscan.failure e) ∉ t.told := by
  induction h with
  | start online => cases ht
  | @step past s s' mv told run moved ih =>
    rcases List.mem_cons.1 ht with rfl | earlier
    · have hm := System.moved_of_move? moved
      rcases run.addressed.autoscan_or_unheard hm with ⟨w, rfl⟩ | unheard
      · cases hm with
        | autoscan up woken ran =>
          subst ran
          exact (Autoscan.resume_unfailing run.roomy).2 e he
      · intro told
        have outcome := (unheard.silent _ told).1
        rw [Autoscan.isOutcome_failure] at outcome
        cases outcome
    · exact ih earlier

/-- Whatever has been reported, every device made of what a collector has kept fits the room for one
and all of them the room for their list, so that the list is encoded as it is. In no run does a scan
cycle fail for lack of room. -/
theorem scan_cycle_fits (limit : Nat) (rs : List Report) :
    let c := (Collector.empty limit).addAll rs
    (∀ d ∈ devicesOf c.reports, d.toJson.toText.utf8ByteSize ≤ maxEncodedDevice) ∧
    (devicesToJson (devicesOf c.reports)).toText.utf8ByteSize ≤ maxScanBytes ∧
    Autoscan.encode (devicesOf c.reports) =
      .ok (Text.utf8 (devicesToJson (devicesOf c.reports)).toText) ∧
    ∀ (setup : Setup) (past : List Step) (s : System), Run setup past s →
      ∀ t ∈ past, .error (Autoscan.failure .bufferOverflow) ∉ t.told := by
  intro c
  have kept : c.reports.length ≤ maxReports := Collector.length_addAll_le limit rs
  refine ⟨fun d hd => ?_, ?_, Autoscan.encode_eq_ok kept, fun setup past s run t ht =>
    run.unfailing ht rfl⟩
  · rw [Json.Value.utf8ByteSize_toText]
    exact Device.size_toJson (bounded_of_mem_devicesOf hd)
  · rw [Json.Value.utf8ByteSize_toText]
    exact size_devicesToJson_le kept

/-- A device that names itself with as many control characters as one payload can hold. -/
def Report.escaping : Report where
  address := Peer.sample.address
  kind := .random
  rssi := -128
  payload := 0x1E :: 0x09 :: List.replicate 29 0x01

/-- A cycle that hears it publishes every character of its name as six. -/
theorem scan_cycle_fits_escaping :
    let c := (Collector.empty 1).addAll [.escaping]
    (∃ d ∈ devicesOf c.reports, 6 * 29 < d.toJson.toText.utf8ByteSize ∧
      d.toJson.toText.utf8ByteSize ≤ maxEncodedDevice) ∧
    (devicesToJson (devicesOf c.reports)).toText.utf8ByteSize ≤ maxScanBytes ∧
    ∃ past s, Run .sample past s ∧ (∃ t ∈ past, .scanComplete 1 ∈ t.told) ∧
      ∀ t ∈ past, .error (Autoscan.failure .bufferOverflow) ∉ t.told := by
  intro c
  obtain ⟨one, all, -, cycles⟩ := scan_cycle_fits 1 [.escaping]
  have hm : (System.trace? .sample [] (.initial false)
      (Move.bringUp ++ [.autoscan .signal, .autoscan (.reply .done), .hear .escaping] ++
        List.replicate 4 (.autoscan (.reply .done)))).any
      (fun (past, _) => past.any (.scanComplete 1 ∈ ·.told)) = true := by
    decide +kernel
  obtain ⟨past, s, run, hp⟩ := Run.exists_of_any hm
  have found : ∃ d ∈ devicesOf c.reports, 6 * 29 < d.toJson.toText.utf8ByteSize := by
    decide +kernel
  obtain ⟨d, hd, long⟩ := found
  exact ⟨⟨d, hd, long, one d hd⟩, all, past, s, run, by simpa using hp, cycles _ past s run⟩

end GattGateway
