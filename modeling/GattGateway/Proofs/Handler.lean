import GattGateway.Proofs.Inbox

/-!
# Handlers

What is done about one message, apart from the loop that takes messages up and reports what fails. A
handler waits where the loop waits, and ends with a result; the loop is the handler of the message
at hand with a report behind it.
-/
namespace GattGateway

open Segment
open Serving (Stage)
open Text (Bytes)

/-- A handler is at work, and not the loop that waits for a message or for the end of a report. -/
def Serving.Stage.handles : Stage → Bool
  | .receiving => false
  | .reporting _ => false
  | _ => true

theorem Serving.Stage.handles_of_connects {stage : Stage} (h : stage.connects = true) :
    stage.handles = true := by
  cases stage <;> first | rfl | cases h

namespace Handler

abbrev Result := Except Fault Unit

abbrev Step := Segment Stage Result

/-- The fault with which a handler has ended, if it has ended with one. -/
def fault? : Option Result → Option Fault
  | some (.error e) => some e
  | _ => none

def done (g : Gateway) : Step := .finish g (.ok ())

def fail (g : Gateway) (e : Fault) : Step := .finish g (.error e)

def send (m : Moment) (g : Gateway) (name : TopicName) (payload : Bytes) (next : Message → Stage) :
    Step :=
  match m.topics.topic name with
  | .ok topic => .wait g (next { topic, payload })
  | .error e => fail g e

def unwind (e : Fault) (s : Segment Teardown.Stage Unit) : Step :=
  s.andThen (.unwinding e) fun g _ => fail { g with paused := false, busy := false } e

def abandon (m : Moment) (g : Gateway) (e : Fault) : Step := unwind e (Teardown.begin m g)

def announce (m : Moment) (g : Gateway) (peer : Peer) (ds : List Descriptor) : Step :=
  let g := g.forwardAll ds
  match Serving.connectedMessage m ds with
  | .ok message => .wait g (.announcing peer ds.length message)
  | .error e => abandon m g e

def subscribeTo (m : Moment) (g : Gateway) (peer : Peer) (ds : List Descriptor)
    (name : TopicName) : Step :=
  match m.topics.topic name with
  | .ok topic => .wait g (.subscribing peer ds name topic)
  | .error e => abandon m g e

def settle (m : Moment) (peer : Peer) (found : Dial.Result)
    (s : Segment Recovery.Stage Recovery.Outcome) : Step :=
  s.andThen (.recovering peer found) fun g outcome =>
    match found with
    | .error e => abandon m g e
    | .ok ds =>
      if outcome = .lost then abandon m g .linkDisrupted
      else if g.valueTopics then announce m g peer ds
      else subscribeTo m g peer ds .writeFilter

def dial (m : Moment) (peer : Peer) (s : Segment Dial.Stage Dial.Result) : Step :=
  s.andThen (.dialling peer) fun g found => settle m peer found (Recovery.begin m g)

def clear (m : Moment) (peer : Peer) (s : Segment Teardown.Stage Unit) : Step :=
  s.andThen (.clearing peer) fun g _ => dial m peer (Dial.begin m { g with ready := false } peer)

def acquire (m : Moment) (g : Gateway) (peer : Peer) (wasPaused : Bool) (giveUp : Instant) : Step :=
  if !g.busy then clear m peer (Teardown.begin m { g with busy := true })
  else if giveUp ≤ m.now then fail { g with paused := wasPaused } .busy
  else .wait g (.acquiring peer wasPaused giveUp (m.now + m.timing.busyPoll))

def leave (m : Moment) (s : Segment Teardown.Stage Unit) : Step :=
  s.andThen .leaving fun g _ =>
    send m { g with valueTopics := false, paused := false } .disconnected [] .parting

def answer (m : Moment) (g : Gateway) (uuid : CanonicalUuid) (value : Bytes) : Step :=
  send m g (.readResponse uuid) value (.answering uuid value)

def handle (m : Moment) (g : Gateway) : Command → Step
  | .connect peer =>
    acquire m { g with paused := true } peer g.paused (m.now + m.timing.busyWait)
  | .disconnect => leave m (Teardown.begin m g)
  | .write uuid data =>
    match g.lookup? uuid with
    | some (connection, e) => .wait g (.writing connection e.handle data)
    | none => done g
  | .read uuid =>
    match g.lookup? uuid with
    | some (connection, e) => .wait g (.reading uuid connection e.handle)
    | none => answer m g uuid []

def dispatch (m : Moment) (g : Gateway) (r : Request) : Step :=
  match Command.ofMessage m.topics r.topic.text r.payload with
  | .ok none => done g
  | .ok (some command) => handle m g command
  | .error e => fail g e

def resume (m : Moment) (g : Gateway) : Stage → Wake → Step
  | .acquiring peer wasPaused giveUp _, .timeout => acquire m g peer wasPaused giveUp
  | .clearing peer s, w => clear m peer (Teardown.resume m g s w)
  | .dialling peer s, w => dial m peer (Dial.resume m g s w)
  | .recovering peer found s, w => settle m peer found (Recovery.resume m g s w)
  | .subscribing peer ds name _, .reply r =>
    match r.link with
    | .ok _ =>
      if name = .writeFilter then subscribeTo m g peer ds .readFilter
      else announce m { g with valueTopics := true } peer ds
    | .error e => abandon m g (.link e)
  | .announcing peer characteristics _, .reply r =>
    match r.link with
    | .ok _ => .telling (.connected peer.address characteristics) (done { g with busy := false })
    | .error e => abandon m g (.link e)
  | .unwinding e s, w => unwind e (Teardown.resume m g s w)
  | .leaving s, w => leave m (Teardown.resume m g s w)
  | .parting _, .reply r =>
    match r.link with
    | .ok _ => .telling .disconnected (done g)
    | .error e => fail g (.link e)
  | .writing _ _ _, .reply r =>
    match r.radio with
    | .ok _ => done g
    | .error e => fail g (.radio e)
  | .reading uuid _ _, .reply r =>
    match r.received with
    | .ok value => answer m g uuid value
    | .error e => fail g (.radio e)
  | .answering uuid value _, .reply r =>
    match r.link with
    | .ok _ => .telling (.readValue uuid value) (done g)
    | .error e => fail g (.link e)
  | stage, _ => .wait g stage

/-- What a segment of the loop runs of a handler. -/
def segment? (m : Moment) (g : Gateway) : Stage → Wake → Option Step
  | .receiving, .signal => g.inbox.pop?.map fun (r, inbox) => dispatch m { g with inbox } r
  | stage, w => if stage.handles then some (resume m g stage w) else none

/-- The loop behind a handler: it reports what has failed, and waits for the next message. -/
def conclude (m : Moment) (s : Step) : Serving.Step :=
  s.andThen id fun g result =>
    match result with
    | .ok _ => .wait g .receiving
    | .error e => Serving.report m g e

variable {m : Moment} {g : Gateway} {w : Wake}

/-- A message that is no command is done with at once. -/
theorem dispatch_of_unrouted {r : Request} (h : m.topics.route r.topic.text = none) :
    dispatch m g r = done g := by
  simp only [dispatch, Command.ofMessage, h]

theorem segment?_of_pop? {r : Request} {inbox : Inbox} (h : g.inbox.pop? = some (r, inbox)) :
    segment? m g .receiving .signal = some (dispatch m { g with inbox } r) := by
  simp only [segment?, h, Option.map_some]

theorem segment?_of_handles {stage : Stage} (h : stage.handles = true) :
    segment? m g stage w = some (resume m g stage w) := by
  unfold segment?
  split
  · cases h
  · exact if_pos h

/-! ## The loop is the handler with a report behind it -/

theorem conclude_andThen {σ ρ : Type} (s : Segment σ ρ) (lift : σ → Stage)
    (next : Gateway → ρ → Step) :
    conclude m (s.andThen lift next) = s.andThen lift fun g r => conclude m (next g r) := by
  rcases s with ⟨g, turn, events⟩
  cases turn with
  | wait stage => rfl
  | finish r =>
    rcases hn : next g r with ⟨g', turn', events'⟩
    cases turn' with
    | wait stage => simp [conclude, andThen, hn]
    | finish result => simp [conclude, andThen, hn]

/-- Behind a handler that has failed a report begins. -/
theorem conclude_error (m : Moment) (g : Gateway) (events : List Event) (e : Fault) :
    conclude m ⟨g, .finish (.error e), events⟩ =
      ⟨g, .wait (.reporting (m.topics.note .error (Text.utf8 e.message))),
        events ++ [.error e.message]⟩ := by
  simp only [conclude, andThen, Serving.report_eq]
  rfl

/-- A handler that has ended does not go on. -/
theorem result?_of_handles {s : Step} (h : (conclude m s).turn.stage.handles = true) :
    s.turn.result? = none := by
  rcases s with ⟨g, turn, events⟩
  cases turn with
  | wait stage => rfl
  | finish result =>
    cases result with
    | ok _ => cases h
    | error e => rw [conclude_error] at h; cases h

theorem conclude_send {name : TopicName} {payload : Bytes} {next : Message → Stage} :
    conclude m (send m g name payload next) = Serving.send m g name payload next := by
  unfold send Serving.send
  cases m.topics.topic name <;> rfl

theorem conclude_unwind {e : Fault} {s : Segment Teardown.Stage Unit} :
    conclude m (unwind e s) = Serving.unwind m e s :=
  conclude_andThen ..

theorem conclude_abandon {e : Fault} : conclude m (abandon m g e) = Serving.abandon m g e :=
  conclude_unwind

theorem conclude_announce {peer : Peer} {ds : List Descriptor} :
    conclude m (announce m g peer ds) = Serving.announce m g peer ds := by
  unfold announce Serving.announce
  dsimp only
  cases Serving.connectedMessage m ds with
  | ok message => rfl
  | error e => exact conclude_abandon

theorem conclude_subscribeTo {peer : Peer} {ds : List Descriptor} {name : TopicName} :
    conclude m (subscribeTo m g peer ds name) = Serving.subscribeTo m g peer ds name := by
  unfold subscribeTo Serving.subscribeTo
  cases m.topics.topic name with
  | ok topic => rfl
  | error e => exact conclude_abandon

theorem conclude_settle {peer : Peer} {found : Dial.Result}
    {s : Segment Recovery.Stage Recovery.Outcome} :
    conclude m (settle m peer found s) = Serving.settle m peer found s := by
  rw [settle, conclude_andThen, Serving.settle]
  congr 1
  funext g outcome
  cases found with
  | error e => exact conclude_abandon
  | ok ds =>
    dsimp only
    split_ifs
    · exact conclude_abandon
    · exact conclude_announce
    · exact conclude_subscribeTo

theorem conclude_dial {peer : Peer} {s : Segment Dial.Stage Dial.Result} :
    conclude m (dial m peer s) = Serving.dial m peer s := by
  rw [dial, conclude_andThen, Serving.dial]
  simp only [conclude_settle]

theorem conclude_clear {peer : Peer} {s : Segment Teardown.Stage Unit} :
    conclude m (clear m peer s) = Serving.clear m peer s := by
  rw [clear, conclude_andThen, Serving.clear]
  simp only [conclude_dial]

theorem conclude_acquire {peer : Peer} {wasPaused : Bool} {giveUp : Instant} :
    conclude m (acquire m g peer wasPaused giveUp) = Serving.acquire m g peer wasPaused giveUp := by
  unfold acquire Serving.acquire
  split_ifs
  · exact conclude_clear
  · rfl
  · rfl

theorem conclude_leave {s : Segment Teardown.Stage Unit} :
    conclude m (leave m s) = Serving.leave m s := by
  rw [leave, conclude_andThen, Serving.leave]
  simp only [conclude_send]

theorem conclude_answer {uuid : CanonicalUuid} {value : Bytes} :
    conclude m (answer m g uuid value) = Serving.answer m g uuid value :=
  conclude_send

theorem conclude_handle {c : Command} : conclude m (handle m g c) = Serving.handle m g c := by
  cases c with
  | connect peer => exact conclude_acquire
  | disconnect => exact conclude_leave
  | write uuid data =>
    simp only [handle, Serving.handle]
    cases g.lookup? uuid <;> rfl
  | read uuid =>
    simp only [handle, Serving.handle]
    cases g.lookup? uuid with
    | some reached => rfl
    | none => exact conclude_answer

theorem conclude_dispatch {r : Request} :
    conclude m (dispatch m g r) = Serving.dispatch m g r := by
  unfold dispatch Serving.dispatch
  cases Command.ofMessage m.topics r.topic.text r.payload with
  | error e => rfl
  | ok command? =>
    cases command? with
    | none => rfl
    | some command => exact conclude_handle

theorem conclude_resume {stage : Stage} (h : stage.handles = true) :
    conclude m (resume m g stage w) = Serving.resume m g stage w := by
  cases stage with
  | receiving => cases h
  | reporting message => cases h
  | acquiring peer wasPaused giveUp deadline =>
    cases w with
    | timeout => exact conclude_acquire
    | signal => rfl
    | reply r => rfl
  | clearing peer s => exact conclude_clear
  | dialling peer s => exact conclude_dial
  | recovering peer found s => exact conclude_settle
  | unwinding e s => exact conclude_unwind
  | leaving s => exact conclude_leave
  | subscribing peer ds name topic =>
    cases w with
    | reply r =>
      simp only [resume, Serving.resume]
      cases r.link with
      | ok _ =>
        dsimp only
        split_ifs
        · exact conclude_subscribeTo
        · exact conclude_announce
      | error e => exact conclude_abandon
    | signal => rfl
    | timeout => rfl
  | announcing peer characteristics message =>
    cases w with
    | reply r =>
      simp only [resume, Serving.resume]
      cases r.link with
      | ok _ => rfl
      | error e => exact conclude_abandon
    | signal => rfl
    | timeout => rfl
  | reading uuid connection handle =>
    cases w with
    | reply r =>
      simp only [resume, Serving.resume]
      cases r.received with
      | ok value => exact conclude_answer
      | error e => rfl
    | signal => rfl
    | timeout => rfl
  | parting message | answering uuid value message =>
    cases w with
    | reply r =>
      simp only [resume, Serving.resume]
      cases r.link <;> rfl
    | signal => rfl
    | timeout => rfl
  | writing connection handle data =>
    cases w with
    | reply r =>
      simp only [resume, Serving.resume]
      cases r.radio <;> rfl
    | signal => rfl
    | timeout => rfl

/-- A segment of the loop that runs one of a handler is that segment, and a report behind it if the
handler has failed. -/
theorem resume_of_segment? {stage : Stage} {s : Step} (h : segment? m g stage w = some s) :
    Serving.resume m g stage w = conclude m s := by
  unfold segment? at h
  split at h
  · obtain ⟨⟨r, inbox⟩, hpop, rfl⟩ := Option.map_eq_some_iff.1 h
    simp only [Serving.resume, hpop, conclude_dispatch]
  · split_ifs at h with hs
    cases h
    exact (conclude_resume hs).symm

/-! ## What a handler tells -/

/-- A handler tells of no error, and waits in a stage of its own. -/
def Quiet (s : Step) : Prop :=
  s.events.filter Event.isError = [] ∧ s.Ends (fun _ stage => stage.handles = true) fun _ _ => True

theorem quiet_done : Quiet (done g) := ⟨rfl, trivial⟩

theorem quiet_fail {e : Fault} : Quiet (fail g e) := ⟨rfl, trivial⟩

theorem quiet_wait {stage : Stage} (h : stage.handles = true) : Quiet (.wait g stage) := ⟨rfl, h⟩

theorem quiet_andThen {σ ρ : Type} {s : Segment σ ρ} {lift : σ → Stage}
    {next : Gateway → ρ → Step} (silent : s.events = [])
    (hl : ∀ stage, (lift stage).handles = true) (hn : ∀ g r, Quiet (next g r)) :
    Quiet (s.andThen lift next) := by
  rcases s with ⟨g, turn, events⟩
  cases silent
  cases turn with
  | wait stage => exact quiet_wait (hl stage)
  | finish r => exact hn g r

theorem quiet_send {name : TopicName} {payload : Bytes} {next : Message → Stage}
    (hn : ∀ message, (next message).handles = true) : Quiet (send m g name payload next) := by
  unfold send
  split
  · exact quiet_wait (hn _)
  · exact quiet_fail

theorem quiet_unwind {e : Fault} {s : Segment Teardown.Stage Unit} (silent : s.events = []) :
    Quiet (unwind e s) :=
  quiet_andThen silent (fun _ => rfl) fun _ _ => quiet_fail

theorem quiet_abandon {e : Fault} : Quiet (abandon m g e) := quiet_unwind Teardown.begin_events

theorem quiet_announce {peer : Peer} {ds : List Descriptor} : Quiet (announce m g peer ds) := by
  unfold announce
  dsimp only
  split
  · exact quiet_wait rfl
  · exact quiet_abandon

theorem quiet_subscribeTo {peer : Peer} {ds : List Descriptor} {name : TopicName} :
    Quiet (subscribeTo m g peer ds name) := by
  unfold subscribeTo
  split
  · exact quiet_wait rfl
  · exact quiet_abandon

theorem quiet_settle {peer : Peer} {found : Dial.Result}
    {s : Segment Recovery.Stage Recovery.Outcome} (silent : s.events = []) :
    Quiet (settle m peer found s) := by
  refine quiet_andThen silent (fun _ => rfl) fun g outcome => ?_
  cases found with
  | error e => exact quiet_abandon
  | ok ds =>
    dsimp only
    split_ifs
    · exact quiet_abandon
    · exact quiet_announce
    · exact quiet_subscribeTo

theorem quiet_dial {peer : Peer} {s : Segment Dial.Stage Dial.Result} (silent : s.events = []) :
    Quiet (dial m peer s) :=
  quiet_andThen silent (fun _ => rfl) fun _ _ => quiet_settle Recovery.poll_events

theorem quiet_clear {peer : Peer} {s : Segment Teardown.Stage Unit} (silent : s.events = []) :
    Quiet (clear m peer s) :=
  quiet_andThen silent (fun _ => rfl) fun _ _ => quiet_dial Dial.begin_events

theorem quiet_acquire {peer : Peer} {wasPaused : Bool} {giveUp : Instant} :
    Quiet (acquire m g peer wasPaused giveUp) := by
  unfold acquire
  split_ifs
  · exact quiet_clear Teardown.begin_events
  · exact quiet_fail
  · exact quiet_wait rfl

theorem quiet_leave {s : Segment Teardown.Stage Unit} (silent : s.events = []) :
    Quiet (leave m s) :=
  quiet_andThen silent (fun _ => rfl) fun _ _ => quiet_send fun _ => rfl

theorem quiet_answer {uuid : CanonicalUuid} {value : Bytes} : Quiet (answer m g uuid value) :=
  quiet_send fun _ => rfl

theorem quiet_dispatch {r : Request} : Quiet (dispatch m g r) := by
  unfold dispatch
  split
  · exact quiet_done
  · rename_i command _
    cases command with
    | connect peer => exact quiet_acquire
    | disconnect => exact quiet_leave Teardown.begin_events
    | write uuid data =>
      simp only [handle]
      split
      · exact quiet_wait rfl
      · exact quiet_done
    | read uuid =>
      simp only [handle]
      split
      · exact quiet_wait rfl
      · exact quiet_answer
  · exact quiet_fail

theorem quiet_resume {stage : Stage} (h : stage.handles = true) :
    Quiet (resume m g stage w) := by
  unfold resume
  split
  · exact quiet_acquire
  · exact quiet_clear Teardown.resume_events
  · exact quiet_dial Dial.resume_events
  · exact quiet_settle Recovery.resume_events
  · split
    · split_ifs
      · exact quiet_subscribeTo
      · exact quiet_announce
    · exact quiet_abandon
  · split
    · exact ⟨rfl, trivial⟩
    · exact quiet_abandon
  · exact quiet_unwind Teardown.resume_events
  · exact quiet_leave Teardown.resume_events
  · split
    · exact ⟨rfl, trivial⟩
    · exact quiet_fail
  · split
    · exact quiet_done
    · exact quiet_fail
  · split
    · exact quiet_answer
    · exact quiet_fail
  · split
    · exact ⟨rfl, trivial⟩
    · exact quiet_fail
  · exact quiet_wait h

theorem quiet_of_segment? {stage : Stage} {s : Step} (h : segment? m g stage w = some s) :
    Quiet s := by
  unfold segment? at h
  split at h
  · obtain ⟨⟨r, inbox⟩, -, rfl⟩ := Option.map_eq_some_iff.1 h
    exact quiet_dispatch
  · split_ifs at h with hs
    cases h
    exact quiet_resume hs

/-- The loop tells of the fault with which a handler has ended, and of no other. -/
theorem errors_conclude {s : Step} (quiet : Quiet s) :
    (conclude m s).events.filter Event.isError =
      ((fault? s.turn.result?).map fun e => .error e.message).toList := by
  rcases s with ⟨g, turn, events⟩
  have silent : events.filter Event.isError = [] := quiet.1
  cases turn with
  | wait stage => exact silent
  | finish result =>
    cases result with
    | ok _ =>
      have told : (conclude m ⟨g, .finish (.ok ()), events⟩).events = events ++ [] := rfl
      rw [told, List.append_nil]
      exact silent
    | error e =>
      rw [conclude_error, List.filter_append, silent]
      rfl

end Handler

end GattGateway
