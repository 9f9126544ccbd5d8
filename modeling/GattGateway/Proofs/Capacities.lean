import GattGateway.Proofs.Handling
import GattGateway.Proofs.ScanCapacity

/-!
# Room for topics, announcements and values

Once the base of its topics fits, nothing that a gateway sends or keeps is ever too long: no topic,
no announcement of a session, no value to write. No command and no handshake fails for lack of room.
-/
namespace GattGateway

open Segment
open Serving (Stage)
open Text (Bytes)

/-! ## Topics -/

namespace Topics

theorem ofNames_eq_ok {topicPrefix deviceId : String} {t : Topics} :
    ofNames topicPrefix deviceId = .ok t ↔ t.base = topicPrefix ++ "/" ++ deviceId := by
  unfold ofNames
  dsimp only
  split_ifs with h
  · obtain ⟨base, fits⟩ := t
    simp [eq_comm]
  · refine ⟨nofun, fun same => absurd ?_ h⟩
    exact same ▸ t.fits

/-- Topics are made of exactly the names whose base fits. -/
theorem exists_ofNames_iff {topicPrefix deviceId : String} :
    (∃ t, ofNames topicPrefix deviceId = .ok t) ↔
      (topicPrefix ++ "/" ++ deviceId).utf8ByteSize ≤ maxBaseBytes := by
  simp only [ofNames_eq_ok]
  exact ⟨fun ⟨t, same⟩ => same ▸ t.fits, fun fits => ⟨⟨_, fits⟩, rfl⟩⟩

end Topics

/-! ## The announcement of a session -/

/-- The names of some properties take no more bytes than the names of all. -/
theorem Properties.size_toJson_le (ps : Properties) : ps.toJson.size ≤ 62 := by
  let width (p : Property) : Nat := (Json.Value.text p.name).size + 1
  have all : (Property.reported.map width).sum = 60 := by decide
  have some : ((Property.reported.filter ps.has).map width).sum ≤
      (Property.reported.map width).sum :=
    (List.filter_sublist.map width).sum_le_sum fun _ _ => Nat.zero_le _
  calc ps.toJson.size
    _ ≤ 2 + ((ps.names.map Json.Value.text).map fun v => v.size + 1).sum :=
      Json.Value.size_list_le _
    _ = 2 + ((Property.reported.filter ps.has).map width).sum := by
      rw [names, List.map_map, List.map_map]
      rfl
    _ ≤ 62 := by omega

theorem CanonicalUuid.size_toJson (u : CanonicalUuid) : u.toJson.size = 34 := by
  have literal : Json.Literal u.text := Text.literal_hexText _
  rw [toJson, Json.Value.size_text, Json.utf8Len_quoted_of_literal literal, u.utf8ByteSize_text]

theorem Descriptor.size_toJson_le (d : Descriptor) : d.toJson.size ≤ 119 := by
  have keys : String.utf8Len (Json.quoted "uuid") = 6 ∧
      String.utf8Len (Json.quoted "properties") = 12 := by decide
  have := d.properties.size_toJson_le
  rw [toJson, Json.Value.size_object (by simp)]
  simp only [List.map_cons, List.map_nil, List.sum_cons, List.sum_nil, Json.memberSize, keys,
    d.uuid.size_toJson]
  omega

namespace Serving

variable {m : Moment} {ds : List Descriptor}

theorem size_descriptorsToJson_le (h : ds.length ≤ maxCharacteristics) :
    (descriptorsToJson ds).size ≤ maxConnectedBytes := by
  have key : String.utf8Len (Json.quoted "chars") = 7 := by decide
  have list : (Json.Value.list (ds.map Descriptor.toJson)).size ≤
      2 + maxCharacteristics * (119 + 1) := by
    refine Json.Value.size_list_le_mul (by rwa [List.length_map]) fun v hv => ?_
    obtain ⟨d, -, rfl⟩ := List.mem_map.1 hv
    exact d.size_toJson_le
  rw [descriptorsToJson, Json.Value.size_object (by simp)]
  simp only [List.map_cons, List.map_nil, List.sum_cons, List.sum_nil, Json.memberSize, key]
  simp only [maxCharacteristics, maxConnectedBytes] at list ⊢
  omega

theorem encode_eq (h : ds.length ≤ maxCharacteristics) :
    encode ds = .ok (Text.utf8 (descriptorsToJson ds).toText) := by
  rw [encode, Json.Value.textWithin?_eq_some (size_descriptorsToJson_le h)]

theorem connectedMessage_eq (h : ds.length ≤ maxCharacteristics) : connectedMessage m ds =
    .ok (m.topics.note .connected (Text.utf8 (descriptorsToJson ds).toText)) := by
  rw [connectedMessage, encode_eq h, m.topics.topic_eq]
  rfl

end Serving

/-! ## Values to write -/

namespace Command

theorem lacksRoom_of_uuidOf {segment : String} {e : Fault} (h : uuidOf segment = .error e) :
    e.lacksRoom = false := by
  unfold uuidOf at h
  split at h
  · cases h
  · cases h
    rfl

theorem lacksRoom_of_peerOf {payload : Bytes} {e : Fault} (h : peerOf payload = .error e) :
    e.lacksRoom = false := by
  unfold peerOf at h
  split at h
  · cases h
    rfl
  · split at h
    · cases h
      rfl
    · split at h
      · cases h
        rfl
      · cases h

/-- A payload that is short enough is written as a whole. -/
theorem parse_write {segment : String} {payload : Bytes} (h : payload.length ≤ maxValueBytes) :
    parse (.write segment) payload = (uuidOf segment).map (.write · payload) := by
  simp only [parse, if_pos h]
  cases uuidOf segment <;> rfl

theorem lacksRoom_of_parse {route : Route} {payload : Bytes} {e : Fault}
    (short : payload.length ≤ maxValueBytes) (h : parse route payload = .error e) :
    e.lacksRoom = false := by
  have map {α β : Type} {f : α → β} {x : Except Fault α} (h : x.map f = .error e) :
      x = .error e := by
    cases x <;> cases h
    rfl
  cases route with
  | connect => exact lacksRoom_of_peerOf (map h)
  | disconnect => cases h
  | write segment =>
    rw [parse_write short] at h
    exact lacksRoom_of_uuidOf (map h)
  | read segment => exact lacksRoom_of_uuidOf (map h)

theorem lacksRoom_of_ofMessage {t : Topics} {r : Request} {e : Fault}
    (h : ofMessage t r.topic.text r.payload = .error e) : e.lacksRoom = false := by
  unfold ofMessage at h
  split at h
  · cases h
  · cases hp : parse _ r.payload with
    | ok command =>
      rw [hp] at h
      cases h
    | error e' =>
      rw [hp] at h
      cases h
      exact lacksRoom_of_parse r.fits hp

end Command

/-- A message of the inbox that asks for a write asks for all of its payload to be written, if the
identifier can be read. -/
theorem Inbox.ofMessage_of_accept? {q q' : Inbox} {topic segment : String} {payload : Bytes}
    (accepted : q.accept? topic payload = some q') {t : Topics}
    (route : t.route topic = some (.write segment)) : Command.ofMessage t topic payload =
      (Command.uuidOf segment).map fun uuid => some (.write uuid payload) := by
  have short := (isSome_accept?_iff.1 (Option.isSome_of_eq_some accepted)).2.1
  simp only [Command.ofMessage, route, Command.parse_write short]
  cases Command.uuidOf segment <;> rfl

/-! ## One command -/

theorem Reply.length_discovered {r : Reply} {cs : List Characteristic}
    (h : r.discovered = .ok cs) : cs.length ≤ maxCharacteristics := by
  unfold discovered at h
  split at h
  · cases h
    exact List.length_take_le ..
  · cases h
  · cases h

namespace Dial

/-- What has been discovered is no more than a session can hold, and nothing has failed for lack of
room. -/
def Sized (found : Result) : Prop :=
  match found with
  | .ok ds => ds.length ≤ maxCharacteristics
  | .error e => e.lacksRoom = false

def Stage.Sized : Stage → Prop
  | .poweringDown e => e.lacksRoom = false
  | _ => True

variable {m : Moment} {g : Gateway}

theorem fail_sized {e : Fault} (h : e.lacksRoom = false) :
    (fail g e).Ends (fun _ s => s.Sized) fun _ found => Sized found := by
  unfold fail
  dsimp only
  split_ifs
  · exact h
  · exact h

theorem begin_sized {peer : Peer} :
    (begin m g peer).Ends (fun _ s => s.Sized) fun _ found => Sized found := by
  unfold begin
  dsimp only
  split_ifs
  · exact rfl
  · trivial
  · trivial

theorem resume_sized {s : Stage} {w : Wake} (h : s.Sized) :
    (resume m g s w).Ends (fun _ s => s.Sized) fun _ found => Sized found := by
  unfold resume
  split
  · split
    · trivial
    · exact fail_sized rfl
  · split
    · trivial
    · exact fail_sized rfl
  · exact fail_sized rfl
  · split
    · rw [ends_finish, Sized, List.length_map]
      exact Reply.length_discovered ‹_›
    · trivial
  · exact fail_sized rfl
  · split
    · exact h
    · exact h
  · exact h

end Dial

/-- What a command has found and what has gone wrong with it leaves room. -/
def Serving.Stage.Sized : Serving.Stage → Prop
  | .dialling _ s => s.Sized
  | .recovering _ found _ => Dial.Sized found
  | .subscribing _ ds _ _ => ds.length ≤ maxCharacteristics
  | .unwinding e _ => e.lacksRoom = false
  | _ => True

namespace Handler

variable {m : Moment} {g : Gateway} {w : Wake}

/-- A handler goes on with what leaves room, and does not fail for lack of it. -/
def Sized (s : Step) : Prop :=
  s.Ends (fun _ stage => stage.Sized) fun _ result => ∀ e, result = .error e → e.lacksRoom = false

theorem sized_done : Sized (done g) := nofun

theorem sized_fail {e : Fault} (h : e.lacksRoom = false) : Sized (fail g e) := by
  rintro e ⟨⟩
  exact h

theorem sized_telling {e : Event} {s : Step} (h : Sized s) : Sized (telling e s) := h

theorem sized_send {name : TopicName} {payload : Bytes} {next : Message → Stage}
    (hn : ∀ message, (next message).Sized) : Sized (send m g name payload next) := by
  rw [send, m.topics.topic_eq]
  exact hn _

theorem sized_unwind {e : Fault} {s : Segment Teardown.Stage Unit} (h : e.lacksRoom = false) :
    Sized (unwind e s) :=
  (ends_trivial s).andThen (fun _ _ _ => h) fun _ _ _ => sized_fail h

theorem sized_abandon {e : Fault} (h : e.lacksRoom = false) : Sized (abandon m g e) :=
  sized_unwind h

theorem sized_announce {peer : Peer} {ds : List Descriptor} (h : ds.length ≤ maxCharacteristics) :
    Sized (announce m g peer ds) := by
  simp only [announce, Serving.connectedMessage_eq h]
  trivial

theorem sized_subscribeTo {peer : Peer} {ds : List Descriptor} {name : TopicName}
    (h : ds.length ≤ maxCharacteristics) : Sized (subscribeTo m g peer ds name) := by
  rw [subscribeTo, m.topics.topic_eq]
  exact h

theorem sized_settle {peer : Peer} {found : Dial.Result}
    {s : Segment Recovery.Stage Recovery.Outcome} (h : Dial.Sized found) :
    Sized (settle m peer found s) := by
  refine (ends_trivial s).andThen (fun _ _ _ => h) fun g outcome _ => ?_
  cases found with
  | error e => exact sized_abandon h
  | ok ds =>
    dsimp only
    split_ifs
    · exact sized_abandon rfl
    · exact sized_announce h
    · exact sized_subscribeTo h

theorem sized_dial {peer : Peer} {s : Segment Dial.Stage Dial.Result}
    (h : s.Ends (fun _ s => s.Sized) fun _ found => Dial.Sized found) : Sized (dial m peer s) :=
  h.andThen (fun _ _ hs => hs) fun _ _ hf => sized_settle hf

theorem sized_clear {peer : Peer} {s : Segment Teardown.Stage Unit} : Sized (clear m peer s) :=
  (ends_trivial s).andThen (fun _ _ _ => trivial) fun _ _ _ => sized_dial Dial.begin_sized

theorem sized_acquire {peer : Peer} {wasPaused : Bool} {giveUp : Instant} :
    Sized (acquire m g peer wasPaused giveUp) := by
  unfold acquire
  split_ifs
  · exact sized_clear
  · exact sized_fail rfl
  · trivial

theorem sized_leave {s : Segment Teardown.Stage Unit} : Sized (leave m s) :=
  (ends_trivial s).andThen (fun _ _ _ => trivial) fun _ _ _ => sized_send fun _ => trivial

theorem sized_answer {uuid : CanonicalUuid} {value : Bytes} : Sized (answer m g uuid value) :=
  sized_send fun _ => trivial

theorem sized_dispatch {r : Request} : Sized (dispatch m g r) := by
  unfold dispatch
  split
  · exact sized_done
  · rename_i command _
    cases command with
    | connect peer => exact sized_acquire
    | disconnect => exact sized_leave
    | write uuid data =>
      simp only [handle]
      split
      · trivial
      · exact sized_done
    | read uuid =>
      simp only [handle]
      split
      · trivial
      · exact sized_answer
  · exact sized_fail (Command.lacksRoom_of_ofMessage ‹_›)

theorem sized_resume {stage : Stage} (h : stage.Sized) : Sized (resume m g stage w) := by
  unfold resume
  split
  · exact sized_acquire
  · exact sized_clear
  · exact sized_dial (Dial.resume_sized h)
  · exact sized_settle h
  · split
    · split_ifs
      · exact sized_subscribeTo h
      · exact sized_announce h
    · exact sized_abandon rfl
  · split
    · exact sized_telling sized_done
    · exact sized_abandon rfl
  · exact sized_unwind h
  · exact sized_leave
  · split
    · exact sized_telling sized_done
    · exact sized_fail rfl
  · split
    · exact sized_done
    · exact sized_fail rfl
  · split
    · exact sized_answer
    · exact sized_fail rfl
  · split
    · exact sized_telling sized_done
    · exact sized_fail rfl
  · exact h

theorem sized_of_segment? {stage : Stage} {s : Step} (h : stage.Sized)
    (hs : segment? m g stage w = some s) : Sized s := by
  unfold segment? at hs
  split at hs
  · obtain ⟨⟨r, inbox⟩, -, rfl⟩ := Option.map_eq_some_iff.1 hs
    exact sized_dispatch
  · split_ifs at hs
    cases hs
    exact sized_resume h

end Handler

namespace Serving

variable {m : Moment} {g : Gateway} {w : Wake}

theorem sized_conclude {s : Handler.Step} (h : Handler.Sized s) :
    (Handler.conclude m s).turn.stage.Sized := by
  rcases s with ⟨g, turn, events⟩
  cases turn with
  | wait stage => exact h
  | finish result =>
    cases result with
    | ok _ => trivial
    | error e =>
      rw [Handler.conclude_error]
      trivial

theorem sized_resume {stage : Stage} (h : stage.Sized) :
    (resume m g stage w).turn.stage.Sized := by
  by_cases handles : stage.handles = true
  · rw [← Handler.conclude_resume handles]
    exact sized_conclude (Handler.sized_resume h)
  · cases stage with
    | receiving =>
      cases w with
      | signal =>
        simp only [resume]
        split
        · rw [← Handler.conclude_dispatch]
          exact sized_conclude Handler.sized_dispatch
        · trivial
      | reply r => trivial
      | timeout => trivial
    | reporting message => cases w <;> trivial
    | _ => exact absurd rfl handles

end Serving

namespace Greeting

variable {m : Moment} {g : Gateway} {w : Wake}

/-- A handshake fails for no other reason than a failed call. -/
def Linked (s : Segment Stage Result) : Prop :=
  s.Ends (fun _ _ => True) fun _ result => ∀ e, result = .error e → e.lacksRoom = false

theorem subscribeTo_linked {name : TopicName} : Linked (subscribeTo m g name) := by
  rw [subscribeTo, m.topics.topic_eq]
  trivial

theorem announce_linked : Linked (announce m g) := by
  rw [announce, m.topics.topic_eq]
  trivial

theorem proceed_linked {name : TopicName} : Linked (proceed m g name) := by
  unfold proceed
  split
  · exact subscribeTo_linked
  · split_ifs
    · exact subscribeTo_linked
    · exact announce_linked
  · exact subscribeTo_linked
  · exact announce_linked

theorem resume_linked {stage : Stage} : Linked (resume m g stage w) := by
  unfold resume
  split
  · split
    · exact proceed_linked
    · rintro e ⟨⟩
      rfl
  · split
    · exact nofun
    · rintro e ⟨⟩
      rfl
  · trivial

end Greeting

/-! ## Every command of a run -/

variable {setup : Setup} {past : List Step} {s : System} {t : Step} {e : Fault}

theorem Run.sized (h : Run setup past s) : s.serving.Sized := by
  induction h with
  | start online => trivial
  | @step past s s' mv told run moved ih =>
    have hm := System.moved_of_move? moved
    by_cases hs : ∃ w, mv = .serving w
    · obtain ⟨w, rfl⟩ := hs
      cases hm with
      | serving up woken ran =>
        subst ran
        exact Serving.sized_resume ih
    · obtain ⟨same, -⟩ := (run.coherent.serving_or_idles hm).resolve_left hs
      rw [same]
      exact ih

theorem Segment.Ends.of_result? {σ ρ : Type} {P : Gateway → σ → Prop} {Q : Gateway → ρ → Prop}
    {s : Segment σ ρ} (h : s.Ends P Q) {result : ρ} (hr : s.turn.result? = some result) :
    Q s.gateway result := by
  refine h.of_finish ?_
  rcases s with ⟨g, turn, events⟩
  cases turn <;> cases hr
  rfl

/-- No command fails for lack of room. -/
theorem Run.lacksRoom_of_verdict? (h : Run setup past s) (ht : t ∈ past)
    (he : t.verdict? setup = some (.error e)) : e.lacksRoom = false := by
  obtain ⟨earlier, run, -⟩ :=
    h.of_mem_states (List.mem_cons_of_mem s (List.mem_map_of_mem ht) : t.before ∈ _)
  obtain ⟨segment, runs, ended⟩ := Option.bind_eq_some_iff.1 he
  unfold Step.handler? at runs
  split at runs
  · exact (Handler.sized_of_segment? run.sized runs).of_result? ended e rfl
  · cases runs

/-- The handshake of the startup does not fail for lack of room. -/
theorem Step.lacksRoom_of_greets? (he : t.greets? setup = some (.error e)) :
    e.lacksRoom = false := by
  unfold greets? at he
  split at he
  · exact Greeting.resume_linked.of_result? he e rfl
  · cases he

/-- The capacities go together. Topics can be made of exactly the names whose base fits, and then
every one of them is made as it is. The announcement of as many characteristics as a session can hold
fits, and so does the payload of every message that the inbox has taken: a write keeps all of it. In
no run does a command, the handshake of the startup or a scan cycle fail for lack of room. -/
theorem capacities_suffice :
    (∀ topicPrefix deviceId : String,
      ((∃ t, Topics.ofNames topicPrefix deviceId = .ok t) ↔
        (topicPrefix ++ "/" ++ deviceId).utf8ByteSize ≤ maxBaseBytes) ∧
      ∀ t, Topics.ofNames topicPrefix deviceId = .ok t → ∀ name : TopicName,
        ∃ topic, t.topic name = .ok topic ∧
          topic.text = topicPrefix ++ "/" ++ deviceId ++ name.path) ∧
    (∀ cs : List Characteristic, cs.length ≤ maxCharacteristics →
      let json := Serving.descriptorsToJson (cs.map (·.descriptor))
      json.toText.utf8ByteSize ≤ maxConnectedBytes ∧
        Serving.encode (cs.map (·.descriptor)) = .ok (Text.utf8 json.toText)) ∧
    (∀ (q q' : Inbox) (topic : String) (payload : Bytes), q.accept? topic payload = some q' →
      ∀ (t : Topics) (segment : String), t.route topic = some (.write segment) →
        Command.ofMessage t topic payload =
          (Command.uuidOf segment).map fun uuid => some (.write uuid payload)) ∧
    ∀ (setup : Setup) (past : List Step) (s : System), Run setup past s → ∀ t ∈ past,
      ∀ e : Fault, e = .topicTooLong ∨ e = .bufferOverflow →
        t.verdict? setup ≠ some (.error e) ∧ t.greets? setup ≠ some (.error e) ∧
          .error (Autoscan.failure e) ∉ t.told := by
  refine ⟨fun topicPrefix deviceId => ⟨Topics.exists_ofNames_iff, fun t made name => ?_⟩,
    fun cs few => ?_, fun q q' topic payload accepted t segment route =>
      Inbox.ofMessage_of_accept? accepted route, fun setup past s run t ht e room => ?_⟩
  · exact ⟨_, t.topic_eq name, congrArg (· ++ name.path) (Topics.ofNames_eq_ok.1 made)⟩
  · have few : (cs.map (·.descriptor)).length ≤ maxCharacteristics := by rwa [List.length_map]
    exact ⟨(Json.Value.utf8ByteSize_toText _).trans_le (Serving.size_descriptorsToJson_le few),
      Serving.encode_eq few⟩
  · have lacks : e.lacksRoom = true := by rcases room with rfl | rfl <;> rfl
    refine ⟨fun verdict => ?_, fun greets => ?_, run.unfailing ht lacks⟩
    · exact Bool.false_ne_true ((run.lacksRoom_of_verdict? ht verdict).symm.trans lacks)
    · exact Bool.false_ne_true ((t.lacksRoom_of_greets? greets).symm.trans lacks)

/-- A characteristic that can do everything. -/
def Characteristic.versatile : Characteristic := ⟨.short 0x2A38, ⟨0x3E⟩, 0⟩

/-- The longest base, the most characteristics and the longest value fit. -/
theorem capacities_exhausted :
    let topicPrefix := String.ofList (List.replicate 62 'p')
    let cs := List.replicate 32 Characteristic.versatile
    let payload : Bytes := List.replicate 512 7
    (∃ t, Topics.ofNames topicPrefix "d" = .ok t ∧ t.base.utf8ByteSize = 64 ∧
      ∃ topic, t.topic (.readResponse Characteristic.versatile.uuid.canonical) = .ok topic ∧
        topic.text = topicPrefix ++ "/" ++ "d" ++
          (TopicName.readResponse Characteristic.versatile.uuid.canonical).path) ∧
    (Serving.descriptorsToJson (cs.map (·.descriptor))).toText.utf8ByteSize ≤ maxConnectedBytes ∧
    (∃ q', Inbox.accept? {} "ble/gateway/write/2a38" payload = some q' ∧
      Command.ofMessage Setup.sample.topics "ble/gateway/write/2a38" payload =
        .ok (some (.write Characteristic.versatile.uuid.canonical payload))) ∧
    ∃ past s, Run .sample past s ∧
      (∃ t ∈ past, .connected Peer.sample.address 1 ∈ t.told ∧
        t.verdict? .sample = some (.ok ())) ∧
      ∀ t ∈ past, t.verdict? .sample ≠ some (.error .bufferOverflow) := by
  intro topicPrefix cs payload
  obtain ⟨topics, announcement, writes, runs⟩ := capacities_suffice
  obtain ⟨exact, made⟩ := topics topicPrefix "d"
  obtain ⟨t, ht⟩ := exact.2 (by decide +kernel)
  have base : t.base = topicPrefix ++ "/" ++ "d" := Topics.ofNames_eq_ok.1 ht
  have accepted : (Inbox.accept? {} "ble/gateway/write/2a38" payload).isSome = true := by
    decide +kernel
  obtain ⟨q', accepted⟩ := Option.isSome_iff_exists.1 accepted
  have hm : (System.trace? .sample [] (.initial false) (Move.connectTo [.versatile])).any
      (fun (past, _) => past.any fun t => .connected Peer.sample.address 1 ∈ t.told &&
        t.verdict? .sample == some (.ok ())) = true := by
    decide +kernel
  obtain ⟨past, s, run, hp⟩ := Run.exists_of_any hm
  simp only [List.any_eq_true, Bool.and_eq_true, decide_eq_true_eq, beq_iff_eq] at hp
  refine ⟨⟨t, ht, ?_, made t ht _⟩, (announcement cs (by decide)).1, ⟨q', accepted, ?_⟩,
    past, s, run, hp, fun t ht => (runs _ past s run t ht _ (.inr rfl)).1⟩
  · rw [base]
    decide +kernel
  · exact writes {} q' _ payload accepted _ "2a38" (by decide)

end GattGateway
