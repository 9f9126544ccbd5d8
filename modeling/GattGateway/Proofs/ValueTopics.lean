import GattGateway.Proofs.Handshake
import GattGateway.Proofs.Marks
import GattGateway.Proofs.Pause

/-!
# The topics of values and the session

The topics of reads and writes are marked as subscribed in the middle of a connect command, and only
a disconnect command unmarks them. Between two commands they are marked exactly while a session is
stored, unless the last command that could change the session was a connect command that failed with
the topics marked.
-/
namespace GattGateway

open Segment

namespace Serving

/-- A disconnect command closes the session. -/
def Stage.leaves : Stage → Bool
  | .leaving _ => true
  | _ => false

/-- A connect command has all it needs, and tells the broker. -/
def Stage.announces : Stage → Bool
  | .announcing _ _ _ => true
  | _ => false

/-- No command is at work on the session. -/
def Stage.rests (stage : Stage) : Bool := !stage.holdsRadio && !stage.leaves

theorem Stage.rests_iff {stage : Stage} :
    stage.rests = true ↔ stage.holdsRadio = false ∧ stage.leaves = false := by
  simp [rests]

variable {m : Moment} {g g' : Gateway} {stage : Stage} {w : Wake}

/-! ## Announcing -/

/-- A session is announced only with the topics of values marked. -/
structure Marking (g : Gateway) (told : List Event) (stage : Stage) : Prop where
  announces : stage.announces = true → g.valueTopics = true
  connected : ∀ a characteristics, .connected a characteristics ∈ told → g.valueTopics = true

theorem Marking.quiet (h : stage.announces = false) : Marking g [] stage := by
  constructor
  · intro ha
    rw [h] at ha
    cases ha
  · nofun

theorem report_marking {e : Fault} : (report m g e).Leads Marking := by
  unfold report
  rw [leads_telling]
  split
  · exact ⟨nofun, fun _ _ h => by cases List.mem_singleton.1 h⟩
  · exact ⟨nofun, fun _ _ h => by cases List.mem_singleton.1 h⟩

theorem send_marking {name : TopicName} {payload : Text.Bytes} {next : Message → Stage}
    (hn : ∀ message, (next message).announces = false) :
    (send m g name payload next).Leads Marking := by
  unfold send
  split
  · exact .quiet (hn _)
  · exact report_marking

theorem answer_marking {uuid : CanonicalUuid} {value : Text.Bytes} :
    (answer m g uuid value).Leads Marking :=
  send_marking fun _ => rfl

theorem unwind_marking {e : Fault} {s : Segment Teardown.Stage Unit} (silent : s.events = []) :
    (unwind m e s).Leads Marking :=
  s.ends_trivial.leads silent (fun _ _ _ => .quiet rfl) fun _ _ _ => report_marking

theorem abandon_marking {e : Fault} : (abandon m g e).Leads Marking :=
  unwind_marking Teardown.begin_events

theorem announce_marking {peer : Peer} {ds : List Descriptor} (h : g.valueTopics = true) :
    (announce m g peer ds).Leads Marking := by
  have marked : (g.forwardAll ds).valueTopics = true := by
    rw [(g.forwardAll_kept ds).sameFlags.2]
    exact h
  unfold announce
  dsimp only
  split
  · exact ⟨fun _ => marked, nofun⟩
  · exact abandon_marking

theorem subscribeTo_marking {peer : Peer} {ds : List Descriptor} {name : TopicName} :
    (subscribeTo m g peer ds name).Leads Marking := by
  unfold subscribeTo
  split
  · exact .quiet rfl
  · exact abandon_marking

theorem settle_marking {peer : Peer} {found : Dial.Result}
    {s : Segment Recovery.Stage Recovery.Outcome} (silent : s.events = []) :
    (settle m peer found s).Leads Marking := by
  refine s.ends_trivial.leads silent (fun _ _ _ => .quiet rfl) fun g outcome _ => ?_
  cases found with
  | error e => exact abandon_marking
  | ok ds =>
    dsimp only
    split_ifs with hlost hmarked
    · exact abandon_marking
    · exact announce_marking hmarked
    · exact subscribeTo_marking

theorem dial_marking {peer : Peer} {s : Segment Dial.Stage Dial.Result} (silent : s.events = []) :
    (dial m peer s).Leads Marking :=
  s.ends_trivial.leads silent (fun _ _ _ => .quiet rfl) fun _ _ _ =>
    settle_marking Recovery.poll_events

theorem clear_marking {peer : Peer} {s : Segment Teardown.Stage Unit} (silent : s.events = []) :
    (clear m peer s).Leads Marking :=
  s.ends_trivial.leads silent (fun _ _ _ => .quiet rfl) fun _ _ _ =>
    dial_marking Dial.begin_events

theorem acquire_marking {peer : Peer} {wasPaused : Bool} {giveUp : Instant} :
    (acquire m g peer wasPaused giveUp).Leads Marking := by
  unfold acquire
  split_ifs
  · exact clear_marking Teardown.begin_events
  · exact report_marking
  · exact .quiet rfl

theorem leave_marking {s : Segment Teardown.Stage Unit} (silent : s.events = []) :
    (leave m s).Leads Marking :=
  s.ends_trivial.leads silent (fun _ _ _ => .quiet rfl) fun _ _ _ => send_marking fun _ => rfl

theorem dispatch_marking {r : Request} : (dispatch m g r).Leads Marking := by
  unfold dispatch
  split
  · exact .quiet rfl
  · rename_i command _
    cases command with
    | connect peer => exact acquire_marking
    | disconnect => exact leave_marking Teardown.begin_events
    | write uuid data =>
      simp only [handle]
      split
      · exact .quiet rfl
      · exact .quiet rfl
    | read uuid =>
      simp only [handle]
      split
      · exact .quiet rfl
      · exact answer_marking
  · exact report_marking

theorem resume_marking (h : stage.announces = true → g.valueTopics = true)
    (hs : stage.isSingle = false) : (resume m g stage w).Leads Marking := by
  have waits : Marking g [] stage := ⟨h, nofun⟩
  cases stage with
  | receiving =>
    cases w with
    | signal =>
      simp only [resume]
      split
      · exact dispatch_marking
      · exact waits
    | reply r => exact waits
    | timeout => exact waits
  | acquiring peer wasPaused giveUp deadline =>
    cases w with
    | timeout => exact acquire_marking
    | signal => exact waits
    | reply r => exact waits
  | clearing peer s => exact clear_marking Teardown.resume_events
  | dialling peer s => exact dial_marking Dial.resume_events
  | recovering peer found s => exact settle_marking Recovery.resume_events
  | subscribing peer ds name topic =>
    cases w with
    | reply r =>
      simp only [resume]
      split
      · split_ifs
        · exact subscribeTo_marking
        · exact announce_marking rfl
      · exact abandon_marking
    | signal => exact waits
    | timeout => exact waits
  | announcing peer characteristics message =>
    cases w with
    | reply r =>
      simp only [resume]
      split
      · exact ⟨fun announces => absurd announces Bool.false_ne_true, fun _ _ _ => h rfl⟩
      · exact abandon_marking
    | signal => exact waits
    | timeout => exact waits
  | unwinding e s => exact unwind_marking Teardown.resume_events
  | leaving s => exact leave_marking Teardown.resume_events
  | _ => cases hs

/-! ## The session and the mark -/

theorem send_gateway {name : TopicName} {payload : Text.Bytes} {next : Message → Stage} :
    (send m g name payload next).Leads fun g' _ _ => g' = g := by
  unfold send
  split
  · exact rfl
  · exact report_rests.imp fun _ _ _ h => h.2.1

/-- The end of a disconnect command. -/
theorem leave_ends {s : Segment Teardown.Stage Unit} (silent : s.events = [])
    (h : s.Ends (fun _ _ => True) fun g _ => g.session = none) :
    (leave m s).Leads fun g' _ stage' =>
      stage'.rests = true → g'.session = none ∧ g'.valueTopics = false := by
  refine h.leads silent (fun _ _ _ => nofun) fun g _ session => ?_
  exact send_gateway.imp fun g' _ _ same _ => by
    subst same
    exact ⟨session, rfl⟩

variable {taken scans : Bool}

/-- A command that waits for the radio gets it or changes nothing. -/
theorem acquire_idles {peer : Peer} {wasPaused : Bool} {giveUp deadline : Instant}
    (h : Agrees taken scans g (.acquiring peer wasPaused giveUp deadline)) :
    (acquire m g peer wasPaused giveUp).Leads fun g' _ stage' =>
      stage'.rests = true → g.Idles g' := by
  refine (acquire_leads h).imp fun g' told stage' hl hr => ?_
  obtain ⟨-, ⟨holds, -⟩ | ⟨-, -, same⟩ | ⟨-, same, -⟩⟩ := hl
  · rw [Stage.rests_iff, holds] at hr
    cases hr.1
  · subst same
    exact ⟨rfl, rfl⟩
  · subst same
    exact ⟨rfl, rfl⟩

/-- What a segment of the loop does to the session and the mark. -/
structure Shifts (topics : Topics) (g : Gateway) (stage : Stage) (w : Wake) (g' : Gateway)
    (stage' : Stage) : Prop where
  announces : stage'.announces = true → g'.valueTopics = true
  idles : stage.rests = true → stage'.rests = true →
    taken? topics g stage w ≠ some (.ok (some .disconnect)) → g.Idles g'
  connects : stage.holdsRadio = true → stage'.rests = true → g'.session.isSome = true →
    g'.valueTopics = true
  leaves : stage.leaves = true ∨ taken? topics g stage w = some (.ok (some .disconnect)) →
    stage'.rests = true → g'.session = none ∧ g'.valueTopics = false

theorem dispatch_idles {r : Request} (h : Agrees taken scans g .receiving)
    (hc : Command.ofMessage m.topics r.topic.text r.payload ≠ .ok (some .disconnect)) :
    (dispatch m g r).Leads fun g' _ stage' => stage'.rests = true → g.Idles g' := by
  have same {s : Step} (hs : s.Leads fun g' _ _ => g' = g) :
      s.Leads fun g' _ stage' => stage'.rests = true → g.Idles g' :=
    hs.imp fun _ _ _ he _ => he ▸ ⟨rfl, rfl⟩
  unfold dispatch
  split
  · exact fun _ => ⟨rfl, rfl⟩
  · rename_i command hcommand
    cases command with
    | connect peer =>
      have ha : Agrees taken scans { g with paused := true }
          (.acquiring peer g.paused (m.now + m.timing.busyWait) 0) := h.acquiring
      exact acquire_idles ha
    | disconnect => exact absurd hcommand hc
    | write uuid data =>
      simp only [handle]
      split
      · exact fun _ => ⟨rfl, rfl⟩
      · exact fun _ => ⟨rfl, rfl⟩
    | read uuid =>
      simp only [handle]
      split
      · exact fun _ => ⟨rfl, rfl⟩
      · exact same send_gateway
  · exact same (report_rests.imp fun _ _ _ hr => hr.2.1)

theorem resume_idles (h : Agrees taken scans g stage) (hs : stage.rests = true)
    (hn : taken? m.topics g stage w ≠ some (.ok (some .disconnect))) :
    (resume m g stage w).Leads fun g' _ stage' => stage'.rests = true → g.Idles g' := by
  have waits : stage.rests = true → g.Idles g := fun _ => ⟨rfl, rfl⟩
  have same {s : Step} (hs : s.Leads fun g' _ _ => g' = g) :
      s.Leads fun g' _ stage' => stage'.rests = true → g.Idles g' :=
    hs.imp fun _ _ _ he _ => he ▸ ⟨rfl, rfl⟩
  cases stage with
  | receiving =>
    cases w with
    | signal =>
      cases hpop : g.inbox.pop? with
      | none =>
        simp only [resume, hpop]
        exact waits
      | some found =>
        obtain ⟨request, inbox⟩ := found
        simp only [resume, hpop]
        refine dispatch_idles (h.undisturbed (.of_inbox g inbox)) fun hc => hn ?_
        simp [taken?, hpop, hc]
    | reply r => exact waits
    | timeout => exact waits
  | acquiring peer wasPaused giveUp deadline =>
    cases w with
    | timeout => exact acquire_idles h
    | signal => exact waits
    | reply r => exact waits
  | parting message | writing connection handle data | reading uuid connection handle
  | answering uuid value message | reporting message =>
    exact resume_single rfl waits (fun _ _ => ⟨rfl, rfl⟩)
      (fun _ => same (report_rests.imp fun _ _ _ hr => hr.2.1)) fun _ _ => same send_gateway
  | _ => cases hs

theorem resume_leaves (h : Agrees taken scans g stage) (hw : w = .signal → stage.signalled g = true)
    (hl : stage.leaves = true ∨ taken? m.topics g stage w = some (.ok (some .disconnect))) :
    (resume m g stage w).Leads fun g' _ stage' =>
      stage'.rests = true → g'.session = none ∧ g'.valueTopics = false := by
  rcases hl with hl | hl
  · cases stage with
    | leaving s =>
      refine leave_ends Teardown.resume_events ?_
      exact (Teardown.resume_ends h.fits.1 h.orderly hw).imp (fun _ _ _ => trivial)
        fun _ _ hf => hf.2.session
    | _ => cases hl
  · obtain ⟨request, inbox, rfl, rfl, hpop, hcommand⟩ := taken?_eq_some hl
    simp only [resume, hpop, dispatch, hcommand, handle]
    have settled : ({ g with inbox } : Gateway).Settled :=
      (h.undisturbed (.of_inbox g inbox)).fits.1
    refine leave_ends Teardown.begin_events ?_
    exact (Teardown.begin_ends settled).imp (fun _ _ _ => trivial) fun _ _ hf => hf.2.session

/-- A connect command that ends with a session has been announced. -/
theorem resume_connected (h : Agrees taken scans g stage) (hs : stage.holdsRadio = true)
    (hw : w = .signal → stage.signalled g = true)
    (announced : stage.announces = true → g.valueTopics = true) :
    (resume m g stage w).Leads fun g' _ stage' =>
      stage'.rests = true → g'.session.isSome = true → g'.valueTopics = true := by
  have hsingle : stage.isSingle = false := by cases stage <;> first | rfl | cases hs
  have both : (resume m g stage w).Leads fun g' told stage' =>
      Proceeds g' told stage' ∧ Marking g' told stage' :=
    ⟨resume_proceeds h hs hw, resume_marking announced hsingle⟩
  refine both.imp fun g' told stage' hb hr session => ?_
  obtain ⟨proceeds, marking⟩ := hb
  cases proceeds with
  | waits agrees holds =>
    rw [Stage.rests_iff, holds] at hr
    cases hr.1
  | connected agrees bound => exact marking.connected _ _ (List.mem_singleton_self _)
  | failed agrees rests free unpaused reason =>
    rw [free.session] at session
    cases session

theorem resume_announces (announced : stage.announces = true → g.valueTopics = true) :
    (resume m g stage w).Leads fun g' _ stage' =>
      stage'.announces = true → g'.valueTopics = true := by
  cases hsingle : stage.isSingle with
  | false => exact (resume_marking announced hsingle).imp fun _ _ _ hm => hm.announces
  | true =>
    have hc : stage.connects = false := by cases stage <;> first | rfl | cases hsingle
    have hr : w = .signal → stage ≠ .receiving := by
      rintro - rfl
      cases hsingle
    refine (resume_rests hc hr).imp fun g' told stage' hrest ha => ?_
    cases stage' with
    | announcing peer characteristics message => cases hrest
    | _ => cases ha

theorem resume_shifts (h : Agrees taken scans g stage) (hw : w = .signal → stage.signalled g = true)
    (announced : stage.announces = true → g.valueTopics = true) :
    (resume m g stage w).Leads fun g' _ stage' => Shifts m.topics g stage w g' stage' :=
  ⟨resume_announces announced, fun hs hs' hn => resume_idles h hs hn hs',
    fun hs hs' => resume_connected h hs hw announced hs', fun hl hs' => resume_leaves h hw hl hs'⟩

end Serving

/-! ## Every state of a run -/

namespace Step

variable (t : Step)

/-- The serving loop takes up a disconnect command. -/
def Disconnects (setup : Setup) : Prop :=
  ∃ w, t.move = .serving w ∧
    Serving.taken? setup.topics t.before.gateway t.before.serving w = some (.ok (some .disconnect))

/-- A command that can change the session comes to its end: a connect command that has got the
radio, or a disconnect command. -/
def Ends (setup : Setup) : Prop :=
  t.after.serving.rests = true ∧ (t.before.serving.rests = false ∨ t.Disconnects setup)

/-- A connect command fails with the topics of values marked. -/
structure Spoils : Prop where
  held : t.before.serving.holdsRadio = true
  rests : t.after.serving.rests = true
  session : t.after.gateway.session = none
  marked : t.after.gateway.valueTopics = true

variable {t} {setup : Setup}

/-- Without a connect command it is a disconnect command that ends. -/
theorem Ends.leaves (h : t.Ends setup) (unheld : t.before.serving.holdsRadio = false) :
    t.before.serving.leaves = true ∨ t.Disconnects setup := by
  refine h.2.imp_left fun hr => ?_
  by_contra hl
  rw [Serving.Stage.rests_iff.2 ⟨unheld, by simpa using hl⟩] at hr
  cases hr

end Step

variable {setup : Setup} {past : List Step} {s s' : System}

/-- The last command that could change the session has failed with the topics of values marked. -/
def Stale (setup : Setup) (past : List Step) : Prop :=
  ∃ later t earlier, past = later ++ t :: earlier ∧ t.Spoils ∧ ∀ u ∈ later, ¬u.Ends setup

theorem stale_cons {t : Step} :
    Stale setup (t :: past) ↔ t.Spoils ∨ ¬t.Ends setup ∧ Stale setup past := by
  constructor
  · rintro ⟨later, u, earlier, hp, spoils, unended⟩
    cases later with
    | nil =>
      cases hp
      exact .inl spoils
    | cons v later =>
      cases hp
      refine .inr ⟨unended _ List.mem_cons_self, later, u, earlier, rfl, spoils, fun v hv => ?_⟩
      exact unended v (List.mem_cons_of_mem _ hv)
  · rintro (spoils | ⟨unended, later, u, earlier, rfl, spoils, rest⟩)
    · exact ⟨[], t, past, rfl, spoils, fun v hv => absurd hv List.not_mem_nil⟩
    · refine ⟨t :: later, u, earlier, rfl, spoils, fun v hv => ?_⟩
      rcases List.mem_cons.1 hv with rfl | hv
      · exact unended
      · exact rest v hv

/-- How the mark fits the session and what has happened to it. -/
structure ValuesFit (setup : Setup) (past : List Step) (s : System) : Prop where
  announces : s.serving.announces = true → s.gateway.valueTopics = true
  marked : s.serving.rests = true →
    (s.gateway.valueTopics = true ↔ s.gateway.session.isSome = true ∨ Stale setup past)
  fresh : s.serving.rests = true → s.gateway.session.isSome = true → ¬Stale setup past

/-- A step that changes neither the session nor the mark and ends no command. -/
theorem ValuesFit.idles {t : Step} (h : ValuesFit setup past t.before)
    (idles : t.before.gateway.Idles t.after.gateway)
    (announces : t.after.serving.announces = true → t.after.gateway.valueTopics = true)
    (rests : t.after.serving.rests = true → t.before.serving.rests = true ∧ ¬t.Ends setup) :
    ValuesFit setup (t :: past) t.after := by
  have same (hr : t.after.serving.rests = true) : Stale setup (t :: past) ↔ Stale setup past := by
    obtain ⟨hr', unended⟩ := rests hr
    have unspoilt : ¬t.Spoils := by
      intro spoils
      rw [Serving.Stage.rests_iff, spoils.held] at hr'
      cases hr'.1
    rw [stale_cons]
    simp [unspoilt, unended]
  refine ⟨announces, fun hr => ?_, fun hr session => ?_⟩
  · rw [same hr, idles.1, idles.2]
    exact h.marked (rests hr).1
  · rw [same hr]
    rw [idles.1] at session
    exact h.fresh (rests hr).1 session

/-- A step in which a command that can change the session comes to its end. -/
theorem ValuesFit.ended {t : Step} (ends : t.Ends setup)
    (announces : t.after.serving.announces = true → t.after.gateway.valueTopics = true)
    (marked : t.after.gateway.session.isSome = true → t.after.gateway.valueTopics = true)
    (unmarked : t.before.serving.holdsRadio = false → t.after.gateway.valueTopics = false) :
    ValuesFit setup (t :: past) t.after := by
  have hstale : Stale setup (t :: past) ↔ t.Spoils := by
    rw [stale_cons]
    simp [ends]
  refine ⟨announces, fun _ => ?_, fun _ session => ?_⟩
  · rw [hstale]
    constructor
    · intro hv
      cases session : t.after.gateway.session with
      | some stored => exact .inl rfl
      | none =>
        refine .inr ⟨?_, ends.1, session, hv⟩
        by_contra held
        rw [unmarked (by simpa using held)] at hv
        cases hv
    · rintro (session | spoils)
      · exact marked session
      · exact spoils.marked
  · rw [hstale]
    intro spoils
    rw [spoils.session] at session
    cases session

/-- A step of the serving loop. -/
theorem ValuesFit.serves {t : Step} {w : Wake} (h : ValuesFit setup past t.before)
    (hm : t.move = .serving w)
    (shifts : Serving.Shifts setup.topics t.before.gateway t.before.serving w t.after.gateway
      t.after.serving) : ValuesFit setup (t :: past) t.after := by
  have leave (hl : t.before.serving.leaves = true ∨ t.Disconnects setup)
      (hr : t.after.serving.rests = true) :
      t.after.gateway.session = none ∧ t.after.gateway.valueTopics = false := by
    refine shifts.leaves (hl.imp_right ?_) hr
    rintro ⟨w', hw, htaken⟩
    rw [hm] at hw
    cases hw
    exact htaken
  by_cases hr : t.after.serving.rests = true
  · by_cases ends : t.Ends setup
    · refine .ended ends shifts.announces (fun session => ?_) fun unheld => ?_
      · cases held : t.before.serving.holdsRadio with
        | true => exact shifts.connects held hr session
        | false =>
          rw [(leave (ends.leaves held) hr).1] at session
          cases session
      · exact (leave (ends.leaves unheld) hr).2
    · have rested : t.before.serving.rests = true := by
        by_contra hn
        exact ends ⟨hr, .inl (by simpa using hn)⟩
      refine h.idles ?_ shifts.announces fun _ => ⟨rested, ends⟩
      exact shifts.idles rested hr fun htaken => ends ⟨hr, .inr ⟨w, hm, htaken⟩⟩
  · exact ⟨shifts.announces, fun h => absurd h hr, fun h => absurd h hr⟩

/-- A step beside the serving loop. -/
theorem ValuesFit.beside {t : Step} (h : ValuesFit setup past t.before)
    (hm : ¬∃ w, t.move = .serving w) (same : t.after.serving = t.before.serving)
    (idles : t.before.gateway.Idles t.after.gateway) : ValuesFit setup (t :: past) t.after := by
  refine h.idles idles ?_ fun hr => ?_
  · rw [same, idles.2]
    exact h.announces
  · rw [same] at hr
    refine ⟨hr, ?_⟩
    rintro ⟨-, hr' | ⟨w, hw, -⟩⟩
    · rw [hr] at hr'
      cases hr'
    · exact hm ⟨w, hw⟩

theorem Run.valuesFit (h : Run setup past s) : ValuesFit setup past s := by
  induction h with
  | start online =>
    have unstale : ¬Stale setup [] := by
      rintro ⟨later, t, earlier, hp, -⟩
      simp at hp
    exact ⟨nofun, fun _ => by simp [System.initial, unstale], fun _ _ => unstale⟩
  | @step past s s' m told run moved ih =>
    have hm := System.moved_of_move? moved
    by_cases hserving : ∃ w, m = .serving w
    · obtain ⟨w, rfl⟩ := hserving
      refine ValuesFit.serves (t := ⟨s, .serving w, told, s'⟩) ih rfl ?_
      cases hm with
      | serving up woken ran =>
        subst ran
        exact Serving.resume_shifts (m := (s.answered s.serving.call? w).moment setup)
          run.coherent (System.signalled_of_wakes woken) ih.announces
    · obtain ⟨same, idles⟩ := (run.coherent.serving_or_idles hm).resolve_left hserving
      exact ValuesFit.beside (t := ⟨s, m, told, s'⟩) ih hserving same idles

/-! ## Handshakes between two commands -/

namespace Greeting

/-- The topic that a handshake subscribes. -/
def Stage.asks? : Stage → Option TopicName
  | .subscribing name _ => some name
  | .announcing _ => none

/-- The topic that a handshake subscribes after another one. -/
def next? (g : Gateway) : TopicName → Option TopicName
  | .connect => some .disconnect
  | .disconnect => if g.valueTopics then some .writeFilter else none
  | .writeFilter => some .readFilter
  | _ => none

variable {m : Moment} {g : Gateway}

theorem subscribeTo_asks (name : TopicName)
    (h : name.path.utf8ByteSize ≤ maxTopicBytes - maxBaseBytes) :
    ∃ stage, (subscribeTo m g name).turn.stage? = some stage ∧ stage.asks? = some name := by
  obtain ⟨topic, htopic⟩ := m.topics.topic_eq_ok h
  exact ⟨.subscribing name topic, by simp only [subscribeTo, htopic]; rfl, rfl⟩

theorem announce_asks :
    ∃ stage, (announce m g).turn.stage? = some stage ∧ stage.asks? = none := by
  obtain ⟨topic, htopic⟩ := @Topics.topic_eq_ok m.topics .status (by decide)
  exact ⟨.announcing ⟨topic, online, .atLeastOnce, true⟩,
    by simp only [announce, htopic]; rfl, rfl⟩

theorem proceed_asks (name : TopicName) :
    ∃ stage, (proceed m g name).turn.stage? = some stage ∧ stage.asks? = next? g name := by
  cases name with
  | connect => exact subscribeTo_asks .disconnect (by decide)
  | disconnect =>
    simp only [proceed, next?]
    split_ifs
    · exact subscribeTo_asks .writeFilter (by decide)
    · exact announce_asks
  | writeFilter => exact subscribeTo_asks .readFilter (by decide)
  | _ => exact announce_asks

end Greeting

namespace System

/-- The topic that one of the handshakes subscribes. -/
def asks? (s : System) (i : Nat) : Option TopicName := s.greetings[i]?.bind Greeting.Stage.asks?

/-- A handshake goes on as soon as the broker has confirmed a topic. -/
theorem asks_of_greeting {i : Nat} {name : TopicName} {r : Reply} (ha : s.asks? i = some name)
    (hr : r.link = .ok ()) (moved : s.move? setup (.greeting i (.reply r)) = some (s', told)) :
    s'.asks? i = Greeting.next? s.gateway name := by
  obtain ⟨stage, hstage, hname⟩ := Option.bind_eq_some_iff.1 ha
  cases stage with
  | announcing message => cases hname
  | subscribing name' topic =>
    cases hname
    cases moved_of_move? moved with
    | greeting present woken ran =>
      rw [hstage] at present
      cases present
      simp only [Greeting.resume, hr] at ran
      subst ran
      obtain ⟨next, hnext, hasks⟩ := Greeting.proceed_asks
        (m := (s.answered (Greeting.Stage.call? (.subscribing name topic)) (.reply r)).moment setup)
        (g := s.gateway) name
      have hi : i < s.greetings.length := (List.getElem?_eq_some_iff.1 hstage).1
      simp only [asks?, hnext, List.getElem?_set_self hi, Option.bind_some, hasks]

end System

/-- While the serving loop waits for a message, the topics of values are marked exactly if a session
is stored, unless a connect command has failed with the topics marked since. A handshake that gets
to them subscribes both in just these two cases. -/
theorem Run.value_topics_iff (h : Run setup past s) (waiting : s.serving = .receiving) :
    ((s.gateway.valueTopics = true ↔ s.gateway.session.isSome = true) ↔ ¬Stale setup past) ∧
    (s.gateway.session.isSome = true → s.gateway.valueTopics = true) ∧
    ∀ i r s' told, r.link = .ok () →
      s.move? setup (.greeting i (.reply r)) = some (s', told) →
      (s.asks? i = some .disconnect → (s'.asks? i = some .writeFilter ↔
        s.gateway.session.isSome = true ∨ Stale setup past)) ∧
      (s.asks? i = some .writeFilter → s'.asks? i = some .readFilter) := by
  have rests : s.serving.rests = true := by
    rw [waiting]
    rfl
  have fit := h.valuesFit
  have marked := fit.marked rests
  have fresh := fit.fresh rests
  refine ⟨?_, fun session => marked.2 (.inl session), fun i r s' told hr moved => ⟨?_, ?_⟩⟩
  · rw [marked]
    constructor
    · intro same stale
      exact fresh (same.1 (.inr stale)) stale
    · intro unstale
      simp [unstale]
  · intro ha
    rw [System.asks_of_greeting ha hr moved, ← marked]
    simp [Greeting.next?]
  · intro ha
    rw [System.asks_of_greeting ha hr moved]
    rfl

/-! ## A session that cannot be announced -/

/-- A connect command fails at its announcement. The link is lost then, and a handshake begins when
it comes up again. -/
def unannounced : List Move :=
  Move.bringUp ++
    [.connectSample, .serving .signal, .serving (.reply .done), .serving (.reply (.connection 1)),
    .serving (.reply (.characteristics [])), .serving (.reply .done), .serving (.reply .done),
    .serving (.reply (.linkFault .publish)), .serving (.reply .done), .serving (.reply .done),
    .serving (.reply .done), .drop, .rejoin, .greeting 0 (.reply .done),
    .greeting 0 (.reply .done)]

theorem unannounced_marked : ∃ past s, Run .sample past s ∧ s.serving = .receiving ∧
    s.gateway.session.isSome = false ∧ s.gateway.valueTopics = true ∧
      s.asks? 0 = some .writeFilter := by
  have hm : (System.trace? .sample [] (.initial false) unannounced).any
      (fun (_, s) => s.serving.isReceiving && !s.gateway.session.isSome && s.gateway.valueTopics &&
        s.asks? 0 == some .writeFilter) = true := by
    decide +kernel
  obtain ⟨past, s, run, hs⟩ := Run.exists_of_any hm
  simp only [Bool.and_eq_true, Bool.not_eq_true', beq_iff_eq] at hs
  obtain ⟨⟨⟨waiting, hsession⟩, hv⟩, ha⟩ := hs
  exact ⟨past, s, run, Serving.Stage.isReceiving_iff.1 waiting, hsession, hv, ha⟩

theorem not_always_unmarked : ¬∀ past s, Run .sample past s → s.serving = .receiving →
    (s.gateway.valueTopics = true ↔ s.gateway.session.isSome = true) := by
  intro h
  obtain ⟨past, s, run, waiting, hsession, hv, -⟩ := unannounced_marked
  have := (h past s run waiting).1 hv
  rw [hsession] at this
  cases this

theorem unannounced_stale : ∃ past s, Run .sample past s ∧ s.serving = .receiving ∧
    Stale .sample past := by
  obtain ⟨past, s, run, waiting, hsession, hv, -⟩ := unannounced_marked
  refine ⟨past, s, run, waiting, ?_⟩
  by_contra unstale
  have := ((run.value_topics_iff waiting).1.2 unstale).1 hv
  rw [hsession] at this
  cases this

end GattGateway
