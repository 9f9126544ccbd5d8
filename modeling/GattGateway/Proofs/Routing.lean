import GattGateway.Proofs.ScanCycles

/-!
# Routing

A topic is routed exactly where it is the base of the gateway with the path of a command behind it.
No message that a gateway publishes is a command to itself, and two gateways can both take a message
for a command only if the base of one lies in the topics of values of the other.
-/
namespace GattGateway

open Autoscan (Advances)

/-! ## Paths of commands -/

/-- What stands between the base and the last slash of a command's topic. -/
def Route.branch : Route → String
  | .connect => ""
  | .disconnect => ""
  | .write _ => "/write"
  | .read _ => "/read"

/-- What stands behind the last slash of a command's topic. -/
def Route.leaf : Route → String
  | .connect => "connect"
  | .disconnect => "disconnect"
  | .write segment => segment
  | .read segment => segment

theorem Route.branch_mem (r : Route) : r.branch ∈ ["", "/write", "/read"] := by
  cases r <;> simp [branch]

/-- A command without an identifier is one of two words. -/
theorem Route.leaf_mem {r : Route} (h : r.branch = "") : r.leaf ∈ ["connect", "disconnect"] := by
  cases r with
  | connect => simp [leaf]
  | disconnect => simp [leaf]
  | write s => exact absurd h (by simp [branch])
  | read s => exact absurd h (by simp [branch])

namespace Topics

theorem isSegment_iff {cs : List Char} : isSegment cs = true ↔ cs ≠ [] ∧ '/' ∉ cs := by
  simp [isSegment]

theorem isSegment_toList {s : String} :
    isSegment s.toList = true ↔ s ≠ "" ∧ '/' ∉ s.toList := by
  rw [isSegment_iff, ne_eq, String.toList_eq_nil_iff]

/-- A text ends in one way only in a slash and characters other than that. -/
theorem append_slash_inj {as bs cs ds : List Char} (hc : '/' ∉ cs) (hd : '/' ∉ ds)
    (h : as ++ '/' :: cs = bs ++ '/' :: ds) : as = bs ∧ cs = ds := by
  have shorter {as bs cs ds rest : List Char} (hd : '/' ∉ ds) (hb : bs = as ++ rest)
      (h : '/' :: ds = rest ++ '/' :: cs) : as = bs ∧ ds = cs := by
    cases rest with
    | nil =>
      obtain ⟨-, same⟩ := List.cons.inj h
      exact ⟨by simpa using hb.symm, same⟩
    | cons c rest =>
      obtain ⟨-, same⟩ := List.cons.inj h
      exact absurd (by simp [same]) hd
  rcases List.append_eq_append_iff.1 h with ⟨rest, hb, h⟩ | ⟨rest, ha, h⟩
  · obtain ⟨same, tails⟩ := shorter hc hb h
    exact ⟨same, tails⟩
  · obtain ⟨same, tails⟩ := shorter hd ha h
    exact ⟨same.symm, tails.symm⟩

theorem slash_path {branch path : String} (h : branch.toList ++ ['/'] = '/' :: path.toList)
    (cs : List Char) : branch.toList ++ '/' :: cs = '/' :: (path.toList ++ cs) := by
  rw [← List.cons_append, ← h, List.append_assoc]
  rfl

theorem write_path (cs : List Char) :
    "/write".toList ++ '/' :: cs = '/' :: ("write/".toList ++ cs) :=
  slash_path (by decide) cs

theorem read_path (cs : List Char) :
    "/read".toList ++ '/' :: cs = '/' :: ("read/".toList ++ cs) :=
  slash_path (by decide) cs

/-- What is sorted behind the base and a slash is the path of the command. -/
theorem routeOf_eq_some_iff {rest : List Char} {r : Route} : routeOf rest = some r ↔
    '/' :: rest = r.branch.toList ++ '/' :: r.leaf.toList ∧ isSegment r.leaf.toList = true := by
  constructor
  · intro h
    unfold routeOf at h
    split_ifs at h with hconnect hdisconnect
    · cases h
      exact ⟨by rw [hconnect]; rfl, by decide⟩
    · cases h
      exact ⟨by rw [hdisconnect]; rfl, by decide⟩
    · split at h
      · rename_i cs hcs
        split_ifs at h with segment
        cases h
        simp only [Route.branch, Route.leaf, String.toList_ofList]
        exact ⟨by rw [behind?_eq_some_iff.1 hcs, write_path], segment⟩
      · rename_i cs _ hcs
        split_ifs at h with segment
        cases h
        simp only [Route.branch, Route.leaf, String.toList_ofList]
        exact ⟨by rw [behind?_eq_some_iff.1 hcs, read_path], segment⟩
      · cases h
  · rintro ⟨path, segment⟩
    cases r with
    | connect =>
      obtain ⟨-, rfl⟩ := List.cons.inj path
      decide
    | disconnect =>
      obtain ⟨-, rfl⟩ := List.cons.inj path
      decide
    | write s =>
      obtain ⟨-, rfl⟩ := List.cons.inj (path.trans (write_path _))
      rw [routeOf_write segment, Route.leaf, String.ofList_toList]
    | read s =>
      obtain ⟨-, rfl⟩ := List.cons.inj (path.trans (read_path _))
      rw [routeOf_read segment, Route.leaf, String.ofList_toList]

variable {t t' : Topics} {topic : String} {r : Route}

/-- The topics of commands and no others are routed. -/
theorem route_eq_some_iff : t.route topic = some r ↔
    topic = t.base ++ r.branch ++ "/" ++ r.leaf ∧ isSegment r.leaf.toList = true := by
  have text : topic = t.base ++ r.branch ++ "/" ++ r.leaf ↔
      topic.toList = t.base.toList ++ (r.branch.toList ++ '/' :: r.leaf.toList) := by
    rw [← String.toList_inj]
    simp
  rw [text]
  constructor
  · intro h
    obtain ⟨rest, hrest, h⟩ := Option.bind_eq_some_iff.1 h
    obtain ⟨cs, hcs, h⟩ := Option.bind_eq_some_iff.1 h
    obtain ⟨path, segment⟩ := routeOf_eq_some_iff.1 h
    obtain rfl : rest = '/' :: cs := behind?_eq_some_iff.1 hcs
    exact ⟨path ▸ behind?_eq_some_iff.1 hrest, segment⟩
  · rintro ⟨htopic, segment⟩
    obtain ⟨rest, path⟩ : ∃ rest, r.branch.toList ++ '/' :: r.leaf.toList = '/' :: rest := by
      cases r with
      | connect => exact ⟨_, rfl⟩
      | disconnect => exact ⟨_, rfl⟩
      | write s => exact ⟨_, write_path _⟩
      | read s => exact ⟨_, read_path _⟩
    rw [route_eq (htopic.trans (by rw [path]))]
    exact routeOf_eq_some_iff.2 ⟨path.symm, segment⟩

theorem route_connect_iff : t.route topic = some .connect ↔ topic = t.base ++ "/connect" := by
  have path : t.base ++ "/" ++ "connect" = t.base ++ "/connect" := String.append_assoc
  have segment : isSegment "connect".toList = true := by decide
  rw [route_eq_some_iff, Route.branch, Route.leaf, String.append_empty, path]
  exact and_iff_left segment

theorem route_disconnect_iff :
    t.route topic = some .disconnect ↔ topic = t.base ++ "/disconnect" := by
  have path : t.base ++ "/" ++ "disconnect" = t.base ++ "/disconnect" := String.append_assoc
  have segment : isSegment "disconnect".toList = true := by decide
  rw [route_eq_some_iff, Route.branch, Route.leaf, String.append_empty, path]
  exact and_iff_left segment

theorem route_write_iff {s : String} : t.route topic = some (.write s) ↔
    topic = t.base ++ "/write/" ++ s ∧ s ≠ "" ∧ '/' ∉ s.toList := by
  have path : t.base ++ "/write" ++ "/" = t.base ++ "/write/" := String.append_assoc
  rw [route_eq_some_iff, Route.branch, Route.leaf, path, isSegment_toList]

theorem route_read_iff {s : String} : t.route topic = some (.read s) ↔
    topic = t.base ++ "/read/" ++ s ∧ s ≠ "" ∧ '/' ∉ s.toList := by
  have path : t.base ++ "/read" ++ "/" = t.base ++ "/read/" := String.append_assoc
  rw [route_eq_some_iff, Route.branch, Route.leaf, path, isSegment_toList]

theorem route_eq_none_iff : t.route topic = none ↔ topic ≠ t.base ++ "/connect" ∧
    topic ≠ t.base ++ "/disconnect" ∧ ∀ s, s ≠ "" → '/' ∉ s.toList →
      topic ≠ t.base ++ "/write/" ++ s ∧ topic ≠ t.base ++ "/read/" ++ s := by
  constructor
  · intro unrouted
    have off {r : Route} : t.route topic ≠ some r := by simp [unrouted]
    exact ⟨fun h => off (route_connect_iff.2 h), fun h => off (route_disconnect_iff.2 h),
      fun s hs single => ⟨fun h => off (route_write_iff.2 ⟨h, hs, single⟩),
        fun h => off (route_read_iff.2 ⟨h, hs, single⟩)⟩⟩
  · rintro ⟨connect, disconnect, values⟩
    by_contra routed
    obtain ⟨r, hr⟩ := Option.ne_none_iff_exists'.1 routed
    cases r with
    | connect => exact connect (route_connect_iff.1 hr)
    | disconnect => exact disconnect (route_disconnect_iff.1 hr)
    | write s =>
      obtain ⟨path, hs, single⟩ := route_write_iff.1 hr
      exact (values s hs single).1 path
    | read s =>
      obtain ⟨path, hs, single⟩ := route_read_iff.1 hr
      exact (values s hs single).2 path

end Topics

/-! ## Topics that a gateway publishes on -/

/-- A gateway publishes on these topics. To the others it subscribes. -/
def TopicName.isOutbound : TopicName → Bool
  | .connect => false
  | .disconnect => false
  | .writeFilter => false
  | .readFilter => false
  | _ => true

/-- What stands between the base and the last slash of a topic. -/
def TopicName.branch : TopicName → String
  | .scanResults => "/scan"
  | .writeFilter => "/write"
  | .readFilter => "/read"
  | .readResponse uuid => "/read/" ++ uuid.text
  | .notification _ => "/notify"
  | _ => ""

/-- What stands behind the last slash of a topic. -/
def TopicName.leaf : TopicName → String
  | .status => "status"
  | .connect => "connect"
  | .disconnect => "disconnect"
  | .connected => "connected"
  | .disconnected => "disconnected"
  | .scanResults => "results"
  | .error => "error"
  | .writeFilter => "#"
  | .readFilter => "#"
  | .readResponse _ => "response"
  | .notification uuid => uuid.text

theorem CanonicalUuid.slash_not_mem (u : CanonicalUuid) : '/' ∉ u.text.toList := by
  have digit : ∀ d < 16, Text.hexDigit .lower d ≠ '/' := by decide
  intro h
  rw [text, Text.hexText, String.toList_ofList, hexBytes_eq] at h
  obtain ⟨d, hd, slash⟩ := List.mem_map.1 h
  exact digit d (nibble_lt hd) slash

namespace TopicName

theorem path_eq (name : TopicName) : name.path = name.branch ++ "/" ++ name.leaf := by
  cases name with
  | readResponse u =>
    have split : "/response" = "/" ++ "response" := by decide
    rw [path, branch, leaf, split, String.append_assoc, String.append_assoc, String.append_assoc]
  | notification u =>
    have split : "/notify/" = "/notify" ++ "/" := by decide
    rw [path, branch, leaf, split]
  | _ => decide

theorem slash_not_mem_leaf (name : TopicName) : '/' ∉ name.leaf.toList := by
  cases name with
  | notification u => exact u.slash_not_mem
  | readResponse u => exact (by decide : '/' ∉ "response".toList)
  | _ => decide

end TopicName

namespace Topics

variable {t t' : Topics} {topic : String} {r : Route}

theorem own_route_iff {name : TopicName} (h : t.route (t.base ++ name.path) = some r) :
    name.branch = r.branch ∧ name.leaf = r.leaf := by
  obtain ⟨path, segment⟩ := route_eq_some_iff.1 h
  have same : name.branch.toList ++ '/' :: name.leaf.toList =
      r.branch.toList ++ '/' :: r.leaf.toList := by
    have text := congrArg String.toList path
    simpa [name.path_eq] using text
  obtain ⟨branch, leaf⟩ :=
    append_slash_inj name.slash_not_mem_leaf (isSegment_iff.1 segment).2 same
  exact ⟨String.toList_inj.1 branch, String.toList_inj.1 leaf⟩

/-- What a gateway publishes on its own topics is no command to it. -/
theorem route_outbound {name : TopicName} (h : name.isOutbound = true) :
    t.route (t.base ++ name.path) = none := by
  by_contra routed
  obtain ⟨r, hr⟩ := Option.ne_none_iff_exists'.1 routed
  obtain ⟨branch, leaf⟩ := own_route_iff hr
  have branches := r.branch_mem
  rw [← branch] at branches
  cases name with
  | status | connected | disconnected | error =>
    have words := Route.leaf_mem branch.symm
    rw [← leaf] at words
    exact absurd words (by decide)
  | scanResults => exact absurd branches (by decide)
  | notification u => exact absurd branches (by decide : "/notify" ∉ ["", "/write", "/read"])
  | readResponse u =>
    have long : (TopicName.readResponse u).branch.utf8ByteSize = 38 := by
      rw [TopicName.branch, String.utf8ByteSize_append, u.utf8ByteSize_text]
      decide
    have short : ∀ s ∈ ["", "/write", "/read"], s.utf8ByteSize ≠ 38 := by decide
    exact short _ branches long
  | _ => cases h

end Topics

/-! ## Messages that a gateway publishes -/

namespace Autoscan

/-- A scan cycle publishes its devices or its failure. -/
def Stage.Addressed (topics : Topics) : Stage → Prop
  | .publishing message _ => message.On topics .scanResults
  | .reporting message => message.On topics .error
  | _ => True

theorem Stage.addressed_hear {topics : Topics} {stage : Stage} {r : Report} :
    (stage.hear r).Addressed topics ↔ stage.Addressed topics := by
  cases stage <;> exact Iff.rfl

theorem Advances.addressed {m : Moment} {g g' : Gateway} {stage next : Stage} {told : List Event}
    (h : Advances m g stage g' told next) : next.Addressed m.topics := by
  cases h with
  | rests before behind =>
    cases next with
    | publishing message devices => cases behind
    | reporting message => cases behind
    | _ => trivial
  | starts before online ready unpaused free late noted => trivial
  | searches before behind same =>
    cases next with
    | publishing message devices => cases behind
    | reporting message => cases behind
    | _ => trivial
  | publishes before made same => exact (resultsMessage_eq_ok made).1
  | fails e before same => exact rfl
  | completes before same => trivial
  | ends before same => trivial

end Autoscan

section

variable {setup : Setup} {past : List Step} {s : System} {message : Message} {topics : Topics}

/-- Something that a gateway publishes. -/
def Message.Outbound (topics : Topics) (message : Message) : Prop :=
  ∃ name : TopicName, name.isOutbound = true ∧ message.On topics name

theorem Run.autoscan_addressed (h : Run setup past s) : s.autoscan.Addressed setup.topics := by
  induction h with
  | start online => trivial
  | @step past s s' m told run moved ih =>
    have hm := System.moved_of_move? moved
    cases hm with
    | autoscan up woken ran => exact (run.coherent.advances (.autoscan up woken ran)).addressed
    | hear r => exact Autoscan.Stage.addressed_hear.2 ih
    | startup present woken ran => simpa using ih
    | serving up woken ran => simpa using ih
    | greeting present woken ran => simpa using ih
    | _ => exact ih

theorem Autoscan.Stage.Addressed.outbound {stage : Autoscan.Stage} (h : stage.Addressed topics)
    (hc : stage.call? setup = some (.publish message)) : message.Outbound topics := by
  cases stage with
  | sweeping s => cases s <;> cases hc
  | publishing message' devices =>
    cases hc
    exact ⟨_, rfl, h⟩
  | reporting message' =>
    cases hc
    exact ⟨_, rfl, h⟩
  | _ => cases hc

theorem Serving.Stage.Addressed.outbound {stage : Serving.Stage} (h : stage.Addressed topics)
    (hc : stage.call? = some (.publish message)) : message.Outbound topics := by
  cases stage with
  | clearing peer s | unwinding fault s | leaving s => cases s <;> cases hc
  | dialling peer s => cases s <;> cases hc
  | announcing peer characteristics message' | parting message' | answering uuid value message'
  | reporting message' =>
    cases hc
    exact ⟨_, rfl, h⟩
  | _ => cases hc

theorem Forwarding.Stage.Addressed.outbound {stage : Forwarding.Stage} (h : stage.Addressed topics)
    (hc : stage.call? = some (.publish message)) : message.Outbound topics := by
  cases stage with
  | delivering sub value call =>
    cases hc
    exact ⟨.notification sub.uuid, rfl, h message rfl⟩
  | _ => cases hc

theorem Greeting.Stage.Addressed.outbound {stage : Greeting.Stage} (h : stage.Addressed topics)
    (hc : stage.call? = some (.publish message)) : message.Outbound topics := by
  cases stage with
  | announcing message' =>
    cases hc
    exact ⟨_, rfl, h⟩
  | subscribing name topic => cases hc

theorem Startup.Stage.Addressed.outbound {stage : Startup.Stage} (h : stage.Addressed topics)
    (hc : stage.call? = some (.publish message)) : message.Outbound topics := by
  cases stage with
  | greeting s => exact Greeting.Stage.Addressed.outbound h hc
  | _ => cases hc

/-- In every state of a run the messages on their way go to topics that the gateway publishes
on. -/
theorem Run.outbound (h : Run setup past s) (hc : .publish message ∈ s.calls setup) :
    message.Outbound setup.topics := by
  have addressed := h.addressed
  obtain ⟨strand, hs, hcall⟩ := List.mem_filterMap.1 hc
  simp only [System.strands, List.mem_append, List.mem_cons, List.mem_map, Option.mem_toList] at hs
  rcases hs with (⟨stage, hs, rfl⟩ | rfl | rfl | ⟨i, -, rfl⟩) | ⟨stage, hs, rfl⟩
  · exact (addressed.startup stage hs).outbound hcall
  · exact h.autoscan_addressed.outbound hcall
  · exact addressed.serving.outbound hcall
  · exact (addressed.workers i).outbound hcall
  · exact (addressed.greetings stage hs).outbound hcall

end

/-! ## Two gateways -/

namespace Topics

variable {t t' : Topics} {topic : String} {r r' : Route} {topicPrefix deviceId deviceId' : String}

/-- The base of the second gateway is that of the first one with a path of values behind it. -/
def Nests (t t' : Topics) : Prop := t'.base = t.base ++ "/write" ∨ t'.base = t.base ++ "/read"

/-- Where two gateways route one topic, the bases with the branches behind them are the same. -/
theorem base_branch_eq (h : t.route topic = some r) (h' : t'.route topic = some r') :
    t.base ++ r.branch = t'.base ++ r'.branch := by
  obtain ⟨text, segment⟩ := route_eq_some_iff.1 h
  obtain ⟨text', segment'⟩ := route_eq_some_iff.1 h'
  have same : (t.base ++ r.branch).toList ++ '/' :: r.leaf.toList =
      (t'.base ++ r'.branch).toList ++ '/' :: r'.leaf.toList := by
    have both := congrArg String.toList (text.symm.trans text')
    simpa using both
  exact String.toList_inj.1
    (append_slash_inj (isSegment_iff.1 segment).2 (isSegment_iff.1 segment').2 same).1

/-- The branches of reading and of writing do not end alike. -/
theorem append_write_ne_append_read (s s' : String) : s ++ "/write" ≠ s' ++ "/read" := by
  intro h
  have last := congrArg (fun text => text.toList.getLast?) h
  simp at last

theorem nests_of_route (h : t.route topic = some r) (h' : t'.route topic = some r') :
    t.base = t'.base ∨ t.Nests t' ∨ t'.Nests t := by
  have same := base_branch_eq h h'
  have branches : ∀ r : Route, r.branch = "" ∨ r.branch = "/write" ∨ r.branch = "/read" := by
    simpa using Route.branch_mem
  rcases branches r with hr | hr | hr <;> rcases branches r' with hr' | hr' | hr' <;>
    rw [hr, hr'] at same
  · exact .inl (by simpa using same)
  · exact .inr (.inr (.inl (by simpa using same)))
  · exact .inr (.inr (.inr (by simpa using same)))
  · exact .inr (.inl (.inl (by simpa using same.symm)))
  · exact .inl (by simpa using same)
  · exact absurd same (append_write_ne_append_read _ _)
  · exact .inr (.inl (.inr (by simpa using same.symm)))
  · exact absurd same.symm (append_write_ne_append_read _ _)
  · exact .inl (by simpa using same)

theorem base_of_ofNames (h : ofNames topicPrefix deviceId = .ok t) :
    t.base = topicPrefix ++ "/" ++ deviceId := by
  unfold ofNames at h
  dsimp only at h
  split_ifs at h
  cases h
  rfl

/-- A gateway in the topics of values of another one has a slash in its device identifier. -/
theorem slash_mem_of_nests (h : ofNames topicPrefix deviceId = .ok t)
    (h' : ofNames topicPrefix deviceId' = .ok t') (nests : t.Nests t') :
    '/' ∈ deviceId'.toList := by
  have behind {path : String} (hpath : '/' ∈ path.toList) (nested : t'.base = t.base ++ path) :
      '/' ∈ deviceId'.toList := by
    have same : topicPrefix ++ "/" ++ deviceId' = topicPrefix ++ "/" ++ (deviceId ++ path) := by
      rw [← base_of_ofNames h', nested, base_of_ofNames h]
      exact String.append_assoc
    obtain rfl : deviceId' = deviceId ++ path := by simpa using same
    simp [hpath]
  rcases nests with nested | nested
  · exact behind (by decide) nested
  · exact behind (by decide) nested

/-- Gateways whose device identifiers are different single segments never both route a topic. -/
theorem route_apart (h : ofNames topicPrefix deviceId = .ok t)
    (h' : ofNames topicPrefix deviceId' = .ok t') (ne : deviceId ≠ deviceId')
    (single : '/' ∉ deviceId.toList) (single' : '/' ∉ deviceId'.toList) :
    t.route topic = none ∨ t'.route topic = none := by
  by_contra both
  obtain ⟨hr, hr'⟩ := not_or.1 both
  obtain ⟨r, hr⟩ := Option.ne_none_iff_exists'.1 hr
  obtain ⟨r', hr'⟩ := Option.ne_none_iff_exists'.1 hr'
  rcases nests_of_route hr hr' with same | nests | nests
  · rw [base_of_ofNames h, base_of_ofNames h'] at same
    exact ne (by simpa using same)
  · exact single' (slash_mem_of_nests h h' nests)
  · exact single (slash_mem_of_nests h' h nests)

/-- What is routed, and by whom. -/
structure Routes (t : Topics) : Prop where
  connect : ∀ topic, t.route topic = some .connect ↔ topic = t.base ++ "/connect"
  disconnect : ∀ topic, t.route topic = some .disconnect ↔ topic = t.base ++ "/disconnect"
  write : ∀ topic s, t.route topic = some (.write s) ↔
    topic = t.base ++ "/write/" ++ s ∧ s ≠ "" ∧ '/' ∉ s.toList
  read : ∀ topic s, t.route topic = some (.read s) ↔
    topic = t.base ++ "/read/" ++ s ∧ s ≠ "" ∧ '/' ∉ s.toList
  none : ∀ topic, t.route topic = none ↔ topic ≠ t.base ++ "/connect" ∧
    topic ≠ t.base ++ "/disconnect" ∧ ∀ s, s ≠ "" → '/' ∉ s.toList →
      topic ≠ t.base ++ "/write/" ++ s ∧ topic ≠ t.base ++ "/read/" ++ s
  /-- Every topic to publish on exists and is no command to the gateway itself. -/
  silent : ∀ name : TopicName, name.isOutbound = true →
    ∃ topic, t.topic name = .ok topic ∧ t.route topic.text = .none
  /-- Whatever a gateway publishes in a run is no command to it. -/
  published : ∀ setup past s message, setup.topics = t → Run setup past s →
    .publish message ∈ s.calls setup → t.route message.topic.text = .none
  /-- Gateways of different bases that both route a topic lie one in the other. -/
  nests : ∀ t' topic, t.base ≠ t'.base → t.route topic ≠ .none → t'.route topic ≠ .none →
    t.Nests t' ∨ t'.Nests t
  /-- Gateways of one prefix that are different single segments never both route a topic. -/
  apart : ∀ topicPrefix deviceId deviceId' t', ofNames topicPrefix deviceId = .ok t →
    ofNames topicPrefix deviceId' = .ok t' → deviceId ≠ deviceId' → '/' ∉ deviceId.toList →
    '/' ∉ deviceId'.toList → ∀ topic, t.route topic = .none ∨ t'.route topic = .none

/-- Routing is exact, takes nothing that a gateway publishes for a command to it, and keeps gateways
apart. -/
theorem routes (t : Topics) : t.Routes where
  connect _ := route_connect_iff
  disconnect _ := route_disconnect_iff
  write _ _ := route_write_iff
  read _ _ := route_read_iff
  none _ := route_eq_none_iff
  silent name h := ⟨_, t.topic_eq name, route_outbound h⟩
  published setup past s message ht run hc := by
    obtain ⟨name, outbound, on⟩ := run.outbound hc
    rw [on, ht]
    exact route_outbound outbound
  nests t' topic ne routed routed' := by
    obtain ⟨r, hr⟩ := Option.ne_none_iff_exists'.1 routed
    obtain ⟨r', hr'⟩ := Option.ne_none_iff_exists'.1 routed'
    exact (nests_of_route hr hr').resolve_left ne
  apart _ _ _ _ h h' ne single single' _ := route_apart h h' ne single single'

/-- A gateway whose base lies in the topics of values of another one shares topics with it. -/
example : (⟨"ble", by decide⟩ : Topics).route "ble/write/connect" = some (.write "connect") ∧
    (⟨"ble/write", by decide⟩ : Topics).route "ble/write/connect" = some .connect := by decide

end Topics

end GattGateway
