import GattGateway.Proofs.Access

/-!
# What each strand speaks of

Every strand publishes on topics of its own and tells events of its own. None but the loop that
serves commands takes messages from the inbox, and none but the loop that scans notes when a scan
cycle has started.
-/
namespace GattGateway

open Segment

/-! ## Topics and events -/

/-- The first characters of the part behind the base, by which most topics can be told apart. -/
def TopicName.stem : TopicName → List Char
  | .status => "/sta".toList
  | .connect => "/con".toList
  | .disconnect => "/dis".toList
  | .connected => "/con".toList
  | .disconnected => "/dis".toList
  | .scanResults => "/sca".toList
  | .error => "/err".toList
  | .writeFilter => "/wri".toList
  | .readFilter => "/rea".toList
  | .readResponse _ => "/rea".toList
  | .notification _ => "/not".toList

theorem TopicName.take_path (name : TopicName) : name.path.toList.take 4 = name.stem := by
  have starts {s t : String} (h : 4 ≤ s.toList.length) :
      (s ++ t).toList.take 4 = s.toList.take 4 := by
    rw [String.toList_append, List.take_append_of_le_length h]
  cases name with
  | readResponse uuid =>
    rw [path, String.append_assoc, starts (by decide)]
    exact (by decide : "/read/".toList.take 4 = "/rea".toList)
  | notification uuid =>
    rw [path, starts (by decide)]
    exact (by decide : "/notify/".toList.take 4 = "/not".toList)
  | _ => decide

/-- A message goes to one of a gateway's own topics. -/
def Message.On (message : Message) (topics : Topics) (name : TopicName) : Prop :=
  message.topic.text = topics.base ++ name.path

theorem Message.On.stem_eq {message : Message} {topics : Topics} {name name' : TopicName}
    (h : message.On topics name) (h' : message.On topics name') : name.stem = name'.stem := by
  have same : topics.base.toList ++ name.path.toList = topics.base.toList ++ name'.path.toList := by
    rw [← String.toList_append, ← String.toList_append]
    exact congrArg String.toList (h.symm.trans h')
  rw [← name.take_path, ← name'.take_path, List.append_cancel_left same]

/-- How a scan cycle comes out: its devices have been published, or it has failed. -/
def Event.isOutcome : Event → Bool
  | .scanComplete _ => true
  | .error text => (behind? "Scan failed: ".toList text.toList).isSome
  | _ => false

/-- An event that tells of a command. -/
def Event.Serves : Event → Prop
  | .connected _ _ => True
  | .disconnected => True
  | .readValue _ _ => True
  | .error text => ∃ e : Fault, text = e.message
  | _ => False

theorem String.head?_toList_append {s t : String} {c : Char} (h : s.toList.head? = some c) :
    (s ++ t).toList.head? = some c := by
  rw [String.toList_append, List.head?_append, h]
  rfl

/-- The sentence of no fault looks like that of a failed scan cycle. -/
theorem Fault.head?_message (e : Fault) : e.message.toList.head? ≠ some 'S' := by
  have starts {s t : String} {c : Char} (h : s.toList.head? = some c) (hc : c ≠ 'S') :
      (s ++ t).toList.head? ≠ some 'S' := by
    rw [String.head?_toList_append h]
    exact fun he => hc (Option.some_inj.1 he)
  have radio (cause : RadioFault) : cause.message.toList.head? ≠ some 'S' := by
    cases cause with
    | stack code => exact starts (c := 's') (by decide) (by decide)
    | _ => decide
  cases e with
  | scanFailure cause => exact radio cause
  | radio cause => exact starts (c := 'B') (by decide) (by decide)
  | link cause => exact starts (c := 'T') (by decide) (by decide)
  | _ => decide

theorem Event.Serves.not_outcome {e : Event} (h : e.Serves) : e.isOutcome = false := by
  cases e with
  | error text =>
    obtain ⟨fault, rfl⟩ := h
    by_contra hn
    obtain ⟨rest, hr⟩ := Option.isSome_iff_exists.1 (Bool.eq_true_of_not_eq_false hn)
    have text := behind?_eq_some_iff.1 hr
    exact fault.head?_message (by rw [text]; rfl)
  | scanComplete devices => exact h.elim
  | _ => rfl

/-! ## What is left alone -/

/-- Neither the inbox nor the start of the last scan cycle has changed. -/
structure Gateway.Retains (g g' : Gateway) : Prop where
  inbox : g'.inbox = g.inbox
  lastScan : g'.lastScan = g.lastScan

variable {m : Moment} {w : Wake} {g₀ g g' : Gateway}

theorem Gateway.Retains.refl (g : Gateway) : g.Retains g := ⟨rfl, rfl⟩

theorem Gateway.Retains.trans {g'' : Gateway} (h : g.Retains g') (h' : g'.Retains g'') :
    g.Retains g'' :=
  ⟨h'.inbox.trans h.inbox, h'.lastScan.trans h.lastScan⟩

theorem Gateway.Kept.retains (h : g.Kept g') : g.Retains g' := ⟨by rw [h.rest], by rw [h.rest]⟩

theorem Recovery.Kept.retains (h : Recovery.Kept m g g') : g.Retains g' :=
  ⟨by rw [h.rest], by rw [h.rest]⟩

theorem Recovery.begin_retains : g.Retains (begin m g).gateway :=
  (Recovery.begin_ends (m := m).imp (fun _ _ h => h.retains) fun _ _ h => h.retains).gateway

theorem Recovery.resume_retains {stage : Stage} : g.Retains (resume m g stage w).gateway :=
  (Recovery.resume_ends (m := m).imp (fun _ _ h => h.retains) fun _ _ h => h.retains).gateway

theorem Greeting.Kept.retains (h : Greeting.Kept g g') : g.Retains g' := ⟨by rw [h], by rw [h]⟩

theorem Forwarding.Kept.retains (h : Forwarding.Kept g g') : g.Retains g' :=
  ⟨by rw [h.rest], by rw [h.rest]⟩

theorem Teardown.Stops.retains {first : Nat} {next : Option Stage} (h : Stops g first g' next) :
    g.Retains g' := by
  cases h <;> exact ⟨rfl, rfl⟩

theorem Teardown.Resumes.retains {stage : Stage} {next : Option Stage}
    (h : Resumes g stage w g' next) : g.Retains g' := by
  cases h with
  | stopped rest => exact ⟨rest.retains.inbox, rest.retains.lastScan⟩
  | late rest => exact ⟨rest.retains.inbox, rest.retains.lastScan⟩
  | _ => exact ⟨rfl, rfl⟩

theorem Dial.fail_retains {fault : Fault} : g.Retains (fail g fault).gateway := by
  unfold fail
  dsimp only
  split_ifs
  · exact ⟨rfl, rfl⟩
  · exact ⟨rfl, rfl⟩

theorem Dial.begin_retains {peer : Peer} : g.Retains (begin m g peer).gateway := by
  have h : (begin m g peer).Ends (fun g' _ => g.Retains g') fun g' _ => g.Retains g' :=
    begin_bond.imp (fun _ _ hb => by rw [hb.1]; exact ⟨rfl, rfl⟩)
      fun _ _ hb => by rw [hb.1]; exact .refl g
  exact h.gateway

theorem Dial.resume_retains {stage : Stage} : g.Retains (resume m g stage w).gateway := by
  unfold resume
  split
  · split
    · exact ⟨rfl, rfl⟩
    · exact fail_retains
  · split
    · exact .refl g
    · exact fail_retains
  · exact fail_retains
  · split
    · exact ⟨rfl, rfl⟩
    · exact .refl g
  · exact fail_retains
  · split
    · exact ⟨rfl, rfl⟩
    · exact .refl g
  · exact .refl g

/-! ## The serving loop -/

namespace Serving

/-- Every message of a command goes to its own topic. -/
def Stage.Addressed (topics : Topics) : Stage → Prop
  | .announcing _ _ message => message.On topics .connected
  | .parting message => message.On topics .disconnected
  | .answering uuid _ message => message.On topics (.readResponse uuid)
  | .reporting message => message.On topics .error
  | _ => True

/-- What a command publishes is an answer of its own, and what a report publishes goes to the topic
of errors. -/
theorem Stage.Addressed.publishes {topics : Topics} {stage : Stage} {message : Message}
    (h : stage.Addressed topics) (hc : stage.call? = some (.publish message)) :
    (stage = .reporting message ∧ message.On topics .error) ∨ ∃ name : TopicName,
      message.On topics name ∧ name.stem ∈ ["/con".toList, "/dis".toList, "/rea".toList] := by
  cases stage with
  | clearing peer s | unwinding fault s | leaving s => cases s <;> cases hc
  | dialling peer s => cases s <;> cases hc
  | announcing peer characteristics message' =>
    cases hc
    exact .inr ⟨.connected, h, by decide⟩
  | parting message' =>
    cases hc
    exact .inr ⟨.disconnected, h, by decide⟩
  | answering uuid value message' =>
    cases hc
    exact .inr ⟨.readResponse uuid, h,
      (by decide : "/rea".toList ∈ ["/con".toList, "/dis".toList, "/rea".toList])⟩
  | reporting message' =>
    cases hc
    exact .inl ⟨rfl, h⟩
  | _ => cases hc

/-- What the serving loop comes to, beside the message that it takes from the inbox. -/
structure Speaks (topics : Topics) (g g' : Gateway) (told : List Event) (stage : Stage) :
    Prop where
  retains : g.Retains g'
  told : ∀ e ∈ told, e.Serves
  addressed : stage.Addressed topics

theorem Speaks.waits {topics : Topics} {stage : Stage} (h : g₀.Retains g)
    (ha : stage.Addressed topics) : Speaks topics g₀ g [] stage :=
  ⟨h, nofun, ha⟩

theorem report_speaks {fault : Fault} (h : g₀.Retains g) :
    (report m g fault).Leads fun g' told stage => Speaks m.topics g₀ g' told stage := by
  rw [report_eq, leads_telling, leads_wait]
  refine ⟨h, ?_, rfl⟩
  rintro e he
  obtain rfl := List.mem_singleton.1 he
  exact ⟨fault, rfl⟩

theorem send_speaks {name : TopicName} {payload : Text.Bytes} {next : Message → Stage}
    (h : g₀.Retains g)
    (hn : ∀ message, message.On m.topics name → (next message).Addressed m.topics) :
    (send m g name payload next).Leads fun g' told stage => Speaks m.topics g₀ g' told stage := by
  simp only [send, m.topics.topic_eq]
  exact .waits h (hn _ rfl)

theorem unwind_speaks {fault : Fault} {s : Segment Teardown.Stage Unit} (silent : s.events = [])
    (h : g₀.Retains s.gateway) :
    (unwind m fault s).Leads fun g' told stage => Speaks m.topics g₀ g' told stage :=
  (ends_of_gateway h).leads silent (fun _ _ hr => .waits hr trivial)
    fun _ _ hr => report_speaks ⟨hr.inbox, hr.lastScan⟩

theorem abandon_speaks {fault : Fault} (h : g₀.Retains g) :
    (abandon m g fault).Leads fun g' told stage => Speaks m.topics g₀ g' told stage :=
  unwind_speaks Teardown.begin_events (h.trans Teardown.stopFrom_stops.retains)

theorem connectedMessage_on {ds : List Descriptor} {message : Message}
    (h : connectedMessage m ds = .ok message) : message.On m.topics .connected := by
  unfold connectedMessage at h
  cases he : encode ds with
  | error fault => simp [he, bind, Except.bind] at h
  | ok payload =>
    simp only [he, m.topics.topic_eq, bind, Except.bind, pure, Except.pure] at h
    cases h
    rfl

theorem announce_speaks {peer : Peer} {ds : List Descriptor} (h : g₀.Retains g) :
    (announce m g peer ds).Leads fun g' told stage => Speaks m.topics g₀ g' told stage := by
  have h' : g₀.Retains (g.forwardAll ds) := h.trans (Gateway.forwardAll_kept g ds).retains
  unfold announce
  dsimp only
  split
  · rename_i hm
    exact .waits h' (connectedMessage_on hm)
  · exact abandon_speaks h'

theorem subscribeTo_speaks {peer : Peer} {ds : List Descriptor} {name : TopicName}
    (h : g₀.Retains g) :
    (subscribeTo m g peer ds name).Leads fun g' told stage =>
      Speaks m.topics g₀ g' told stage := by
  simp only [subscribeTo, m.topics.topic_eq]
  exact .waits h trivial

theorem settle_speaks {peer : Peer} {found : Dial.Result}
    {s : Segment Recovery.Stage Recovery.Outcome} (silent : s.events = [])
    (h : g₀.Retains s.gateway) :
    (settle m peer found s).Leads fun g' told stage => Speaks m.topics g₀ g' told stage := by
  refine (ends_of_gateway h).leads silent (fun _ _ hr => .waits hr trivial) fun g outcome hr => ?_
  cases found with
  | error fault => exact abandon_speaks hr
  | ok ds =>
    dsimp only
    split_ifs
    · exact abandon_speaks hr
    · exact announce_speaks hr
    · exact subscribeTo_speaks hr

theorem dial_speaks {peer : Peer} {s : Segment Dial.Stage Dial.Result} (silent : s.events = [])
    (h : g₀.Retains s.gateway) :
    (dial m peer s).Leads fun g' told stage => Speaks m.topics g₀ g' told stage :=
  (ends_of_gateway h).leads silent (fun _ _ hr => .waits hr trivial) fun _ _ hr =>
    settle_speaks Recovery.poll_events (hr.trans Recovery.begin_retains)

theorem clear_speaks {peer : Peer} {s : Segment Teardown.Stage Unit} (silent : s.events = [])
    (h : g₀.Retains s.gateway) :
    (clear m peer s).Leads fun g' told stage => Speaks m.topics g₀ g' told stage := by
  refine (ends_of_gateway h).leads silent (fun _ _ hr => .waits hr trivial) fun g _ hr => ?_
  have hb : g₀.Retains { g with ready := false } := ⟨hr.inbox, hr.lastScan⟩
  exact dial_speaks Dial.begin_events (hb.trans Dial.begin_retains)

theorem acquire_speaks {peer : Peer} {wasPaused : Bool} {giveUp : Instant} (h : g₀.Retains g) :
    (acquire m g peer wasPaused giveUp).Leads fun g' told stage =>
      Speaks m.topics g₀ g' told stage := by
  unfold acquire
  split_ifs
  · have hb : g₀.Retains { g with busy := true } := ⟨h.inbox, h.lastScan⟩
    exact clear_speaks Teardown.begin_events (hb.trans Teardown.stopFrom_stops.retains)
  · exact report_speaks ⟨h.inbox, h.lastScan⟩
  · exact .waits h trivial

theorem leave_speaks {s : Segment Teardown.Stage Unit} (silent : s.events = [])
    (h : g₀.Retains s.gateway) :
    (leave m s).Leads fun g' told stage => Speaks m.topics g₀ g' told stage :=
  (ends_of_gateway h).leads silent (fun _ _ hr => .waits hr trivial)
    fun _ _ hr => send_speaks ⟨hr.inbox, hr.lastScan⟩ fun _ ho => ho

theorem answer_speaks {uuid : CanonicalUuid} {value : Text.Bytes} (h : g₀.Retains g) :
    (answer m g uuid value).Leads fun g' told stage => Speaks m.topics g₀ g' told stage :=
  send_speaks h fun _ ho => ho

theorem dispatch_speaks {r : Request} :
    (dispatch m g r).Leads fun g' told stage => Speaks m.topics g g' told stage := by
  have h : g.Retains g := .refl g
  unfold dispatch
  split
  · exact .waits h trivial
  · rename_i command _
    cases command with
    | connect peer => exact acquire_speaks ⟨rfl, rfl⟩
    | disconnect => exact leave_speaks Teardown.begin_events Teardown.stopFrom_stops.retains
    | write uuid data =>
      simp only [handle]
      split
      · exact .waits h trivial
      · exact .waits h trivial
    | read uuid =>
      simp only [handle]
      split
      · exact .waits h trivial
      · exact answer_speaks h
  · exact report_speaks h

/-- The gateway without the message that a loop waiting for one takes up. -/
def taking (g : Gateway) (stage : Stage) (w : Wake) : Gateway :=
  match stage, w with
  | .receiving, .signal => { g with inbox := (g.inbox.pop?.map (·.2)).getD g.inbox }
  | _, _ => g

/-- A segment of the loop takes at most one message from the inbox, tells of commands only and sends
every message on its topic. -/
theorem resume_speaks {stage : Stage} (ha : stage.Addressed m.topics) :
    (resume m g stage w).Leads fun g' told stage' =>
      Speaks m.topics (taking g stage w) g' told stage' := by
  have h : g.Retains g := .refl g
  have tells (e : Event) (he : e.Serves) {g' : Gateway} (hg : g.Retains g') :
      Speaks m.topics g g' [e] .receiving := by
    refine ⟨hg, ?_, trivial⟩
    intro e' he'
    rwa [List.mem_singleton.1 he']
  cases stage with
  | receiving =>
    cases w with
    | signal =>
      simp only [resume, taking]
      cases g.inbox.pop? with
      | some popped => exact dispatch_speaks
      | none => exact .waits h trivial
    | reply r => exact .waits h trivial
    | timeout => exact .waits h trivial
  | acquiring peer wasPaused giveUp deadline =>
    cases w with
    | timeout => exact acquire_speaks h
    | signal => exact .waits h trivial
    | reply r => exact .waits h trivial
  | clearing peer s =>
    exact clear_speaks Teardown.resume_events Teardown.resume_resumes.retains
  | dialling peer s => exact dial_speaks Dial.resume_events Dial.resume_retains
  | recovering peer found s => exact settle_speaks Recovery.resume_events Recovery.resume_retains
  | subscribing peer ds name topic =>
    cases w with
    | reply r =>
      simp only [resume, taking]
      split
      · split_ifs
        · exact subscribeTo_speaks h
        · exact announce_speaks ⟨rfl, rfl⟩
      · exact abandon_speaks h
    | signal => exact .waits h trivial
    | timeout => exact .waits h trivial
  | announcing peer characteristics message =>
    cases w with
    | reply r =>
      simp only [resume, taking]
      split
      · exact tells (.connected _ _) trivial ⟨rfl, rfl⟩
      · exact abandon_speaks h
    | signal => exact .waits h ha
    | timeout => exact .waits h ha
  | unwinding fault s =>
    exact unwind_speaks Teardown.resume_events Teardown.resume_resumes.retains
  | leaving s => exact leave_speaks Teardown.resume_events Teardown.resume_resumes.retains
  | parting message =>
    cases w with
    | reply r =>
      simp only [resume, taking]
      split
      · exact tells .disconnected trivial h
      · exact report_speaks h
    | signal => exact .waits h ha
    | timeout => exact .waits h ha
  | answering uuid value message =>
    cases w with
    | reply r =>
      simp only [resume, taking]
      split
      · exact tells (.readValue _ _) trivial h
      · exact report_speaks h
    | signal => exact .waits h ha
    | timeout => exact .waits h ha
  | writing connection handle data =>
    cases w with
    | reply r =>
      simp only [resume, taking]
      split
      · exact .waits h trivial
      · exact report_speaks h
    | signal => exact .waits h trivial
    | timeout => exact .waits h trivial
  | reading uuid connection handle =>
    cases w with
    | reply r =>
      simp only [resume, taking]
      split
      · exact answer_speaks h
      · exact report_speaks h
    | signal => exact .waits h trivial
    | timeout => exact .waits h trivial
  | reporting message =>
    cases w with
    | reply r => exact .waits h trivial
    | signal => exact .waits h ha
    | timeout => exact .waits h ha

end Serving

/-! ## Workers and greetings -/

namespace Forwarding

/-- A value on its way goes to the topic of its identifier. -/
def Stage.Addressed (topics : Topics) : Stage → Prop
  | .delivering sub _ call => ∀ message, call = .publish message →
      message.On topics (.notification sub.uuid)
  | _ => True

/-- What a worker comes to: it tells of nothing but the values that it forwards. -/
def Speaks (topics : Topics) (told : List Event) (stage : Stage) : Prop :=
  (∀ e ∈ told, ∃ uuid value, e = .notification uuid value) ∧ stage.Addressed topics

variable {i : Worker} {sub : Subscription}

theorem serve_speaks :
    (serve m g i sub).Leads fun _ told stage => Speaks m.topics told stage := by
  unfold serve
  split_ifs
  · exact ⟨nofun, trivial⟩
  · exact ⟨nofun, trivial⟩

theorem deliver_speaks {value : Text.Bytes} {outlet : Outlet} :
    (deliver m g i sub value outlet).Leads fun _ told stage => Speaks m.topics told stage := by
  cases outlet with
  | broker =>
    simp only [deliver, m.topics.topic_eq]
    refine ⟨?_, ?_⟩
    · rintro e he
      exact ⟨_, _, List.mem_singleton.1 he⟩
    · rintro message ⟨⟩
      rfl
  | receiver =>
    refine ⟨List.forall_mem_nil _, ?_⟩
    rintro message ⟨⟩

theorem resume_speaks {outlet : Outlet} {stage : Stage} (ha : stage.Addressed m.topics) :
    (resume m g i outlet stage w).Leads fun _ told stage' => Speaks m.topics told stage' := by
  unfold resume
  split
  · split
    · exact ⟨nofun, trivial⟩
    · exact ⟨nofun, trivial⟩
  · exact ⟨nofun, trivial⟩
  · split
    · exact serve_speaks
    · exact ⟨nofun, trivial⟩
  · exact ⟨nofun, trivial⟩
  · exact serve_speaks
  · split
    · exact serve_speaks
    · exact deliver_speaks
    · exact ⟨nofun, trivial⟩
  · exact serve_speaks
  · exact ⟨nofun, ha⟩

end Forwarding

namespace Greeting

def Stage.Addressed (topics : Topics) : Stage → Prop
  | .announcing message => message.On topics .status
  | _ => True

/-- A greeting tells nothing, and what it publishes is the state of the gateway. -/
def Speaks (topics : Topics) (s : Segment Stage Result) : Prop :=
  s.events = [] ∧ ∀ stage, s.turn.stage? = some stage → stage.Addressed topics

theorem subscribeTo_speaks {name : TopicName} : Speaks m.topics (subscribeTo m g name) := by
  simp only [subscribeTo, m.topics.topic_eq]
  refine ⟨rfl, ?_⟩
  rintro stage ⟨⟩
  trivial

theorem announce_speaks : Speaks m.topics (announce m g) := by
  simp only [announce, m.topics.topic_eq]
  refine ⟨rfl, ?_⟩
  rintro stage ⟨⟩
  rfl

theorem proceed_speaks {name : TopicName} : Speaks m.topics (proceed m g name) := by
  unfold proceed
  split
  · exact subscribeTo_speaks
  · split_ifs
    · exact subscribeTo_speaks
    · exact announce_speaks
  · exact subscribeTo_speaks
  · exact announce_speaks

theorem resume_speaks {stage : Stage} (ha : stage.Addressed m.topics) :
    Speaks m.topics (resume m g stage w) := by
  unfold resume
  split
  · split
    · exact proceed_speaks
    · exact ⟨rfl, nofun⟩
  · split
    · exact ⟨rfl, nofun⟩
    · exact ⟨rfl, nofun⟩
  · refine ⟨rfl, ?_⟩
    rintro stage ⟨⟩
    exact ha

end Greeting

namespace Startup

def Stage.Addressed (topics : Topics) : Stage → Prop
  | .greeting s => s.Addressed topics
  | _ => True

theorem settle_speaks {s : Segment Greeting.Stage Greeting.Result}
    (h : Greeting.Speaks m.topics s) : (settle m s).events = [] ∧
      ∀ stage, (settle m s).turn.stage? = some stage → stage.Addressed m.topics := by
  rcases s with ⟨g, turn, events⟩
  obtain ⟨rfl, ha⟩ := h
  cases turn with
  | wait stage =>
    refine ⟨rfl, ?_⟩
    rintro _ ⟨⟩
    exact ha stage rfl
  | finish result =>
    cases result with
    | ok _ => exact ⟨rfl, nofun⟩
    | error fault =>
      refine ⟨rfl, ?_⟩
      rintro _ ⟨⟩
      trivial

theorem resume_speaks {stage : Stage} (ha : stage.Addressed m.topics) :
    (resume m g stage w).events = [] ∧
      ∀ stage', (resume m g stage w).turn.stage? = some stage' → stage'.Addressed m.topics := by
  have waits {g : Gateway} {stage : Stage} (ha : stage.Addressed m.topics) :
      (.wait g stage : Segment Stage Unit).events = [] ∧
        ∀ stage', (.wait g stage : Segment Stage Unit).turn.stage? = some stage' →
          stage'.Addressed m.topics := by
    refine ⟨rfl, ?_⟩
    rintro _ ⟨⟩
    exact ha
  unfold resume
  split
  · exact waits trivial
  · split
    · exact settle_speaks Greeting.subscribeTo_speaks
    · exact waits trivial
  · exact settle_speaks (Greeting.resume_speaks ha)
  · exact waits trivial
  · exact waits ha

end Startup

/-! ## Every state of a run -/

/-- Whatever a strand other than the loop that scans publishes goes to a topic of its own. -/
structure System.Addressed (topics : Topics) (s : System) : Prop where
  startup : ∀ stage, s.startup = some stage → stage.Addressed topics
  serving : s.serving.Addressed topics
  workers : ∀ i, (s.workers i).Addressed topics
  greetings : ∀ stage ∈ s.greetings, stage.Addressed topics

/-- The message with whose publication the strand goes on that a step resumes. -/
def Step.publishes? (setup : Setup) (t : Step) : Option Message :=
  match (t.move.strand? t.after).bind (·.call? setup) with
  | some (.publish message) => some message
  | _ => none

namespace System

variable {setup : Setup} {past : List Step} {s s' : System} {mv : Move} {told : List Event}

theorem Addressed.greet (h : s.Addressed setup.topics) :
    (s.greet setup).Addressed setup.topics where
  startup := h.startup
  serving := h.serving
  workers := h.workers
  greetings stage hs := by
    rcases List.mem_append.1 hs with hs | hs
    · exact h.greetings stage hs
    · exact (Greeting.subscribeTo_speaks (m := s.moment setup)).2 stage (Option.mem_toList.1 hs)

theorem addressed_moved (h : s.Addressed setup.topics) (hm : Moved setup s mv s' told) :
    s'.Addressed setup.topics := by
  cases hm with
  | @startup stage w segment present woken ran =>
    subst ran
    have speaks := Startup.resume_speaks (w := w) (g := s.gateway)
      (m := (s.answered stage.call? w).moment setup) (h.startup stage present)
    exact ⟨speaks.2, by simpa using h.serving, by simpa using h.workers,
      by simpa using h.greetings⟩
  | autoscan up woken ran => exact ⟨h.startup, h.serving, h.workers, h.greetings⟩
  | @serving w segment up woken ran =>
    subst ran
    have speaks := Serving.resume_speaks (w := w) (g := s.gateway)
      (m := (s.answered s.serving.call? w).moment setup) h.serving
    exact ⟨by simpa using h.startup, speaks.addressed, by simpa using h.workers,
      by simpa using h.greetings⟩
  | @worker i w segment up woken ran =>
    subst ran
    refine ⟨h.startup, h.serving, fun j => ?_, h.greetings⟩
    by_cases hj : j = i
    · subst j
      simp only [Function.update_self]
      exact (Forwarding.resume_speaks (m := s.moment setup) (h.workers i)).2
    · simpa [Function.update_of_ne hj] using h.workers j
  | @greeting i stage w segment present woken ran =>
    subst ran
    refine ⟨by simpa using h.startup, by simpa using h.serving, by simpa using h.workers, ?_⟩
    have speaks := Greeting.resume_speaks (w := w) (g := s.gateway)
      (m := (s.answered stage.call? w).moment setup)
      (h.greetings stage (List.mem_of_getElem? present))
    intro stage' hs
    split at hs
    · rcases List.mem_or_eq_of_mem_set hs with hs | rfl
      · exact h.greetings stage' hs
      · exact speaks.2 _ ‹_›
    · exact h.greetings stage' (List.mem_of_mem_eraseIdx hs)
  | greet => exact h.greet
  | rejoin offline =>
    exact Addressed.greet ⟨h.startup, h.serving, h.workers, h.greetings⟩
  | _ => exact ⟨h.startup, h.serving, h.workers, h.greetings⟩

end System

variable {setup : Setup} {past : List Step} {s s' : System} {mv : Move} {told : List Event}

theorem Run.addressed (h : Run setup past s) : s.Addressed setup.topics :=
  h.invariant (fun _ => ⟨by rintro stage ⟨⟩; trivial, trivial, fun _ => trivial, nofun⟩)
    System.addressed_moved

/-- Only the loop that scans publishes on the topic of its results. -/
theorem System.Addressed.not_results {t : Step} {message : Message}
    (h : t.after.Addressed setup.topics) (hp : t.publishes? setup = some message)
    (hs : ∀ w, t.move ≠ .autoscan w) : ¬message.On setup.topics .scanResults := by
  intro on
  have off {name : TopicName} (h : message.On setup.topics name)
      (hn : name.stem ≠ TopicName.scanResults.stem) : False := hn (h.stem_eq on)
  unfold Step.publishes? at hp
  split at hp
  · rename_i message' hc
    cases hp
    obtain ⟨strand, hstrand, hcall⟩ := Option.bind_eq_some_iff.1 hc
    have greets {stage : Greeting.Stage} (ha : stage.Addressed setup.topics)
        (hc : stage.call? = some (.publish message)) : False := by
      cases stage with
      | announcing message' =>
        cases hc
        exact off ha (by decide)
      | subscribing name topic => cases hc
    cases hm : t.move with
    | startup w =>
      rw [hm] at hstrand
      obtain ⟨stage, hstage, rfl⟩ := Option.map_eq_some_iff.1 hstrand
      have ha := h.startup stage hstage
      cases stage with
      | greeting stage => exact greets ha hcall
      | _ => cases hcall
    | autoscan w => exact hs w hm
    | serving w =>
      rw [hm] at hstrand
      cases hstrand
      rcases h.serving.publishes hcall with ⟨-, ho⟩ | ⟨name, ho, hn⟩
      · exact off ho (by decide)
      · exact off ho fun he => absurd (he ▸ hn) (by decide)
    | worker i w =>
      rw [hm] at hstrand
      cases hstrand
      have ha := h.workers i
      generalize t.after.workers i = stage at ha hcall
      cases stage with
      | delivering sub value call =>
        cases hcall
        exact off (ha message rfl) (by decide : "/not".toList ≠ "/sca".toList)
      | _ => cases hcall
    | greeting i w =>
      rw [hm] at hstrand
      obtain ⟨stage, hstage, rfl⟩ := Option.map_eq_some_iff.1 hstrand
      exact greets (h.greetings stage (List.mem_of_getElem? hstage)) hcall
    | _ =>
      rw [hm] at hstrand
      cases hstrand
  · cases hp

/-- What happens beside the loop that scans says nothing of scan cycles. -/
structure System.Unheard (s s' : System) (told : List Event) : Prop where
  silent : ∀ e ∈ told, e.isOutcome = false ∧ e ≠ .scanStarted
  lastScan : s'.gateway.lastScan = s.gateway.lastScan
  autoscan : s'.autoscan = s.autoscan ∨ ∃ r, s'.autoscan = s.autoscan.hear r

theorem System.Addressed.autoscan_or_unheard (h : s.Addressed setup.topics)
    (hm : System.Moved setup s mv s' told) : (∃ w, mv = .autoscan w) ∨ s.Unheard s' told := by
  cases hm with
  | autoscan up woken ran => exact .inl ⟨_, rfl⟩
  | @startup stage w segment present woken ran =>
    subst ran
    have speaks := Startup.resume_speaks (w := w) (g := s.gateway)
      (m := (s.answered stage.call? w).moment setup) (h.startup stage present)
    refine .inr ⟨?_, (Greeting.Kept.retains Startup.resume_ends.gateway).lastScan, .inl (by simp)⟩
    rw [speaks.1]
    nofun
  | @serving w segment up woken ran =>
    subst ran
    have speaks := Serving.resume_speaks (w := w) (g := s.gateway)
      (m := (s.answered s.serving.call? w).moment setup) h.serving
    refine .inr ⟨fun e he => ⟨(speaks.told e he).not_outcome, ?_⟩, ?_, .inl (by simp)⟩
    · rintro rfl
      exact (speaks.told _ he).elim
    · refine speaks.retains.lastScan.trans ?_
      unfold Serving.taking
      split <;> rfl
  | @worker i w segment up woken ran =>
    subst ran
    have speaks : (Forwarding.resume (s.moment setup) s.gateway i .broker (s.workers i) w).Leads
        fun _ told stage => Forwarding.Speaks setup.topics told stage :=
      Forwarding.resume_speaks (h.workers i)
    refine .inr ⟨fun e he => ?_, (Forwarding.Kept.retains Forwarding.resume_leads).lastScan,
      .inl rfl⟩
    obtain ⟨uuid, value, rfl⟩ := speaks.1 e he
    exact ⟨rfl, nofun⟩
  | @greeting i stage w segment present woken ran =>
    subst ran
    have speaks := Greeting.resume_speaks (w := w) (g := s.gateway)
      (m := (s.answered stage.call? w).moment setup)
      (h.greetings stage (List.mem_of_getElem? present))
    refine .inr ⟨?_, (Greeting.Kept.retains Greeting.resume_ends.gateway).lastScan, .inl (by simp)⟩
    rw [speaks.1]
    nofun
  | hear r => exact .inr ⟨nofun, rfl, .inr ⟨r, rfl⟩⟩
  | greet =>
    exact .inr ⟨nofun, (Greeting.Kept.retains Greeting.begin_ends.gateway).lastScan, .inl rfl⟩
  | rejoin offline =>
    exact .inr ⟨nofun, (Greeting.Kept.retains Greeting.begin_ends.gateway).lastScan, .inl rfl⟩
  | _ => exact .inr ⟨nofun, rfl, .inl rfl⟩

end GattGateway
