import GattGateway.Proofs.Channels
import GattGateway.Proofs.PrintedForm

/-!
# Scan cycles

A cycle starts only where the broker can be reached, scanning is not paused, nobody holds the radio
and the last start is long enough ago. Before it gives the radio up it comes to one outcome: the
devices that it has published, counted, or the report that it has failed.
-/
namespace GattGateway

open Segment

/-- The message is a JSON list of so many values. -/
def Message.Lists (message : Message) (n : Nat) : Prop :=
  ∃ vs, Json.standard.Lists vs message.payload ∧ vs.length = n

/-- A list has one number of values only. -/
theorem Message.Lists.iff {message : Message} {n : Nat} (h : message.Lists n) (k : Nat) :
    message.Lists k ↔ k = n := by
  refine ⟨?_, fun same => same ▸ h⟩
  rintro ⟨ws, lists', rfl⟩
  obtain ⟨vs, lists, rfl⟩ := h
  exact Json.length_eq_of_lists lists' lists

namespace Autoscan

/-- What is told and published of a failed cycle. -/
def failure (e : Fault) : String := "Scan failed: " ++ e.message

variable {m : Moment} {g g₀ : Gateway} {stage : Stage}

theorem report_eq (e : Fault) : report m g e = telling (.error (failure e))
    (.wait g (.reporting (m.topics.note .error (Text.utf8 (failure e))))) := by
  simp only [report, m.topics.topic_eq]
  rfl

theorem resultsMessage_eq_ok {ds : List Device} {message : Message}
    (h : resultsMessage m ds = .ok message) :
    message.On m.topics .scanResults ∧ message.Lists ds.length := by
  simp only [resultsMessage, encode, Json.Value.textWithin?] at h
  split_ifs at h with hfits
  · simp only [m.topics.topic_eq, bind, Except.bind, pure, Except.pure] at h
    cases h
    exact ⟨rfl, _, Json.lists_toText _, by rw [List.length_map, List.length_map]⟩
  · cases h

/-- A cycle has not yet come to its outcome, nor has it published anything. -/
def Stage.searches : Stage → Bool
  | .sweeping _ => true
  | .recovering _ _ => true
  | _ => false

theorem Stage.holdsRadio_of_searches (h : stage.searches = true) : stage.holdsRadio = true := by
  cases stage <;> first | rfl | cases h

/-- How the loop goes on in one segment. -/
inductive Advances (m : Moment) (g : Gateway) (stage : Stage) :
    Gateway → List Event → Stage → Prop
  | rests {next : Stage} (before : stage.holdsRadio = false) (behind : next.holdsRadio = false) :
      Advances m g stage g [] next
  | starts {g' : Gateway} {s : Sweep.Stage} (before : stage.holdsRadio = false)
      (online : m.online = true) (ready : g.ready = true) (unpaused : g.paused = false)
      (free : g.busy = false) (late : isEarly m g = false) (noted : g'.lastScan = some m.now) :
      Advances m g stage g' [.scanStarted] (.sweeping s)
  | searches {g' : Gateway} {next : Stage} (before : stage.searches = true)
      (behind : next.searches = true) (same : g'.lastScan = g.lastScan) :
      Advances m g stage g' [] next
  | publishes {g' : Gateway} {ds : List Device} {message : Message}
      (before : stage.searches = true) (made : resultsMessage m ds = .ok message)
      (same : g'.lastScan = g.lastScan) : Advances m g stage g' [] (.publishing message ds.length)
  | fails {g' : Gateway} (e : Fault)
      (before : stage.searches = true ∨ ∃ message n, stage = .publishing message n)
      (same : g'.lastScan = g.lastScan) :
      Advances m g stage g' [.error (failure e)]
        (.reporting (m.topics.note .error (Text.utf8 (failure e))))
  | completes {g' : Gateway} {message : Message} {n : Nat} (before : stage = .publishing message n)
      (same : g'.lastScan = g.lastScan) : Advances m g stage g' [.scanComplete n] .deciding
  | ends {g' : Gateway} {message : Message} (before : stage = .reporting message)
      (same : g'.lastScan = g.lastScan) : Advances m g stage g' [] .deciding

theorem report_advances {e : Fault} (hs : g₀.lastScan = g.lastScan)
    (before : stage.searches = true ∨ ∃ message n, stage = .publishing message n) :
    (report m g₀ e).Leads fun g' told next => Advances m g stage g' told next := by
  rw [report_eq]
  exact .fails e before hs

theorem publish_advances {found : Sweep.Result} (hs : g₀.lastScan = g.lastScan)
    (before : stage.searches = true) :
    (publish m g₀ found).Leads fun g' told next => Advances m g stage g' told next := by
  cases found with
  | error e => exact report_advances hs (.inl before)
  | ok ds =>
    simp only [publish]
    split
    · exact .publishes before ‹_› hs
    · exact report_advances hs (.inl before)

theorem recover_advances {found : Sweep.Result} {s : Segment Recovery.Stage Recovery.Outcome}
    (silent : s.events = []) (hs : s.gateway.lastScan = g.lastScan)
    (before : stage.searches = true) :
    (recover m found s).Leads fun g' told next => Advances m g stage g' told next :=
  (ends_of_gateway (P := fun g' => g'.lastScan = g.lastScan) hs).leads silent
    (fun _ _ h => .searches before rfl h) fun _ _ h => publish_advances h before

theorem sweep_advances {s : Segment Sweep.Stage Sweep.Result} (silent : s.events = [])
    (hs : s.gateway.lastScan = g.lastScan) (before : stage.searches = true) :
    (sweep m s).Leads fun g' told next => Advances m g stage g' told next :=
  (ends_of_gateway (P := fun g' => g'.lastScan = g.lastScan) hs).leads silent
    (fun _ _ h => .searches before rfl h) fun _ _ h =>
      recover_advances Recovery.poll_events (Recovery.begin_retains.lastScan.trans h) before

theorem consider_advances (before : stage.holdsRadio = false)
    (hl : g.paused = false → g.peerLink = .disconnected) (hs : g.scanning = false) :
    (consider m g).Leads fun g' told next => Advances m g stage g' told next := by
  unfold consider
  split_ifs with hr hp he
  · exact .rests before rfl
  · exact .rests before rfl
  · exact .rests before rfl
  · obtain ⟨online, ready⟩ : m.online = true ∧ g.ready = true := by simpa using hr
    obtain ⟨unpaused, free⟩ : g.paused = false ∧ g.busy = false := by simpa using hp
    have unused : ({ g with busy := true, lastScan := some m.now, ready := false } :
        Gateway).radioInUse = false := by
      simp [Gateway.radioInUse, hs, hl unpaused]
    unfold start
    rw [leads_telling]
    refine (Sweep.begin_ends unused).leads Sweep.begin_events (fun g' s hk => ?_)
      fun _ _ h => h.elim
    exact .starts before online ready unpaused free (by simpa using he) (by rw [hk.1])

/-- Every segment of the loop is one of these, wherever the gateway is in order. -/
theorem resume_advances {w : Wake} (hl : g.paused = false → g.peerLink = .disconnected)
    (hs : g.scanning = stage.scans) (woken : Woken stage.signalled stage.deadline? w) :
    (resume m g stage w).Leads fun g' told next => Advances m g stage g' told next := by
  cases stage with
  | deciding =>
    cases w with
    | signal => exact consider_advances rfl hl hs
    | reply r => exact .rests rfl rfl
    | timeout => exact .rests rfl rfl
  | resting deadline =>
    cases w with
    | timeout => exact consider_advances rfl hl hs
    | signal => exact .rests rfl rfl
    | reply r => exact .rests rfl rfl
  | sweeping s =>
    have kept : (Sweep.resume m g s w).gateway.lastScan = g.lastScan := by
      refine Ends.gateway (P := fun g' => g'.lastScan = g.lastScan)
        ((Sweep.resume_ends hs).imp (fun _ _ hk => ?_) fun _ _ hk => ?_)
      · rw [hk.1]
      · rw [hk.1]
    exact sweep_advances Sweep.resume_events kept rfl
  | recovering found s =>
    exact recover_advances Recovery.resume_events Recovery.resume_retains.lastScan rfl
  | publishing message n =>
    obtain ⟨r, rfl⟩ := woken.reply
    simp only [resume]
    split
    · exact .completes rfl rfl
    · exact report_advances rfl (.inr ⟨message, n, rfl⟩)
  | reporting message =>
    obtain ⟨r, rfl⟩ := woken.reply
    exact .ends rfl rfl

/-! ## The outcome of a cycle -/

/-- A cycle has come to an outcome: it has published one list and counted its values, or it has
failed. -/
def Concluded (outcomes : List Event) (results : List Message) : Prop :=
  (∃ n message, outcomes = [.scanComplete n] ∧ results = [message] ∧
      ∀ k, message.Lists k ↔ k = n) ∨
    ∃ e, outcomes = [.error (failure e)]

/-- The outcomes told and the results published since a cycle has started fit where the loop stands
with it. -/
def Stage.Tallies (outcomes : List Event) (results : List Message) : Stage → Prop
  | .deciding => Concluded outcomes results
  | .resting _ => Concluded outcomes results
  | .sweeping _ => outcomes = [] ∧ results = []
  | .recovering _ _ => outcomes = [] ∧ results = []
  | .publishing message n => outcomes = [] ∧ results = [message] ∧ message.Lists n
  | .reporting _ => ∃ e, outcomes = [.error (failure e)]

theorem isOutcome_failure (e : Fault) : (Event.error (failure e)).isOutcome = true := by
  have h : behind? "Scan failed: ".toList (failure e).toList = some e.message.toList :=
    behind?_eq_some_iff.2 (String.toList_append ..)
  simp only [Event.isOutcome, h, Option.isSome_some]

theorem Stage.tallies_of_searches {outcomes : List Event} {results : List Message}
    (h : stage.searches = true) :
    stage.Tallies outcomes results ↔ outcomes = [] ∧ results = [] := by
  cases stage <;> first | exact Iff.rfl | cases h

theorem Stage.tallies_of_rests {outcomes : List Event} {results : List Message}
    (h : stage.holdsRadio = false) :
    stage.Tallies outcomes results ↔ Concluded outcomes results := by
  cases stage <;> first | exact Iff.rfl | cases h

@[simp] theorem Stage.tallies_hear (outcomes : List Event) (results : List Message) (r : Report) :
    (stage.hear r).Tallies outcomes results ↔ stage.Tallies outcomes results := by
  cases stage <;> exact Iff.rfl

end Autoscan

open Autoscan (Advances Concluded failure)

/-- A scan cycle starts in a step. -/
def Step.Starts (t : Step) : Prop := .scanStarted ∈ t.told

instance (t : Step) : Decidable t.Starts := inferInstanceAs (Decidable (_ ∈ _))

/-- The outcomes told in steps that stand in the order in which they are taken. -/
def outcomes (steps : List Step) : List Event := (steps.flatMap Step.told).filter Event.isOutcome

/-- The messages on the topic of scan results whose publication begins in such steps. -/
def results (setup : Setup) (steps : List Step) : List Message :=
  (steps.filterMap (·.publishes? setup)).filter
    (·.topic.text = setup.topics.base ++ TopicName.scanResults.path)

section

variable {setup : Setup} {steps : List Step} {t : Step}

theorem Step.publishes?_eq_none
    (h : ∀ message, (t.move.strand? t.after).bind (·.call? setup) ≠ some (.publish message)) :
    t.publishes? setup = none := by
  unfold publishes?
  split
  · exact absurd ‹_› (h _)
  · rfl

theorem Step.publishes?_eq_some {message : Message}
    (h : (t.move.strand? t.after).bind (·.call? setup) = some (.publish message)) :
    t.publishes? setup = some message := by
  rw [publishes?, h]

theorem outcomes_concat : outcomes (steps ++ [t]) =
    outcomes steps ++ t.told.filter Event.isOutcome := by
  simp [outcomes]

theorem results_concat_of_none (h : t.publishes? setup = none) :
    results setup (steps ++ [t]) = results setup steps := by
  simp [results, h]

theorem results_concat_of_on {message : Message} (h : t.publishes? setup = some message)
    (on : message.On setup.topics .scanResults) :
    results setup (steps ++ [t]) = results setup steps ++ [message] := by
  have text : message.topic.text = setup.topics.base ++ TopicName.scanResults.path := on
  simp [results, h, text]

theorem results_concat_of_not_on {message : Message} (h : t.publishes? setup = some message)
    (off : ¬message.On setup.topics .scanResults) :
    results setup (steps ++ [t]) = results setup steps := by
  have text : message.topic.text ≠ setup.topics.base ++ TopicName.scanResults.path := off
  simp [results, h, text]

end

/-! ## One step -/

namespace Autoscan

variable {m : Moment} {g g' : Gateway} {stage next : Stage} {told : List Event}

/-- Only a start tells of a start. -/
theorem Advances.started (h : Advances m g stage g' told next) (hs : .scanStarted ∈ told) :
    stage.holdsRadio = false ∧ (m.online = true ∧ g.ready = true) ∧
      (g.paused = false ∧ g.busy = false) ∧ isEarly m g = false ∧ g'.lastScan = some m.now ∧
      told = [.scanStarted] ∧ next.searches = true := by
  cases h with
  | starts before online ready unpaused free late noted =>
    exact ⟨before, ⟨online, ready⟩, ⟨unpaused, free⟩, late, noted, rfl, rfl⟩
  | rests => cases hs
  | searches => cases hs
  | publishes => cases hs
  | fails => simp at hs
  | completes => simp at hs
  | ends => cases hs

theorem Advances.lastScan (h : Advances m g stage g' told next) :
    g'.lastScan = g.lastScan ∨ g'.lastScan = some m.now := by
  cases h with
  | rests => exact .inl rfl
  | starts before online ready unpaused free late noted => exact .inr noted
  | searches before behind same => exact .inl same
  | publishes before made same => exact .inl same
  | fails e before same => exact .inl same
  | completes before same => exact .inl same
  | ends before same => exact .inl same

/-- A cycle that holds the radio behind a segment has held it before, or has just started. -/
theorem Advances.held (h : Advances m g stage g' told next) (unstarted : .scanStarted ∉ told)
    (held : next.holdsRadio = true) : stage.holdsRadio = true := by
  cases h with
  | rests before behind => exact absurd held (by simp [behind])
  | starts => exact absurd (List.mem_singleton_self _) unstarted
  | searches before behind same => exact Stage.holdsRadio_of_searches before
  | publishes before made same => exact Stage.holdsRadio_of_searches before
  | fails e before same =>
    rcases before with searches | ⟨message, n, rfl⟩
    · exact Stage.holdsRadio_of_searches searches
    · rfl
  | completes before same => exact before ▸ rfl
  | ends before same => exact before ▸ rfl

theorem Stage.call?_ne_publish_of_searches (setup : Setup) (h : stage.searches = true)
    (message : Message) : stage.call? setup ≠ some (.publish message) := by
  cases stage with
  | sweeping s => cases s <;> simp [Stage.call?, Sweep.Stage.call?]
  | recovering found s => simp [Stage.call?]
  | _ => cases h

theorem Stage.call?_ne_publish_of_rests (setup : Setup) (h : stage.holdsRadio = false)
    (message : Message) : stage.call? setup ≠ some (.publish message) := by
  cases stage with
  | deciding => simp [Stage.call?]
  | resting deadline => simp [Stage.call?]
  | _ => cases h

/-- A segment that starts no cycle brings the one under way on, and its outcome with it. -/
theorem Advances.tallies {setup : Setup} {steps : List GattGateway.Step} {t : GattGateway.Step}
    (h : Advances m g stage g' t.told next) (topics : m.topics = setup.topics)
    (calls : (t.move.strand? t.after).bind (·.call? setup) = next.call? setup)
    (unstarted : .scanStarted ∉ t.told)
    (ht : stage.Tallies (outcomes steps) (results setup steps)) :
    next.Tallies (outcomes (steps ++ [t])) (results setup (steps ++ [t])) := by
  have silent (h : t.told = []) : outcomes (steps ++ [t]) = outcomes steps := by
    rw [outcomes_concat, h]
    exact List.append_nil _
  have still (hc : ∀ message, next.call? setup ≠ some (.publish message)) :
      results setup (steps ++ [t]) = results setup steps :=
    results_concat_of_none (Step.publishes?_eq_none fun message => calls ▸ hc message)
  generalize htold : t.told = told at h
  cases h with
  | rests before behind =>
    rw [Stage.tallies_of_rests before] at ht
    rw [silent htold, still (Stage.call?_ne_publish_of_rests setup behind)]
    exact (Stage.tallies_of_rests behind).2 ht
  | starts => simp [htold] at unstarted
  | searches before behind same =>
    rw [Stage.tallies_of_searches before] at ht
    rw [silent htold, still (Stage.call?_ne_publish_of_searches setup behind)]
    exact (Stage.tallies_of_searches behind).2 ht
  | @publishes g' ds message before made same =>
    obtain ⟨on, lists⟩ := resultsMessage_eq_ok made
    rw [Stage.tallies_of_searches before] at ht
    rw [silent htold, results_concat_of_on (Step.publishes?_eq_some calls) (topics ▸ on)]
    exact ⟨ht.1, by rw [ht.2]; rfl, lists⟩
  | fails e before same =>
    have undecided : outcomes steps = [] := by
      rcases before with searches | ⟨message, n, rfl⟩
      · exact ((Stage.tallies_of_searches searches).1 ht).1
      · exact ht.1
    refine ⟨e, ?_⟩
    rw [outcomes_concat, htold, undecided]
    simp [isOutcome_failure]
  | @completes g' message n before same =>
    subst before
    obtain ⟨undecided, published, lists⟩ := ht
    refine .inl ⟨n, message, ?_, ?_, lists.iff⟩
    · rw [outcomes_concat, htold, undecided]
      rfl
    · rw [still (Stage.call?_ne_publish_of_rests setup rfl), published]
  | ends before same =>
    subst before
    rw [silent htold, still (Stage.call?_ne_publish_of_rests setup rfl)]
    exact .inr ht

end Autoscan

/-! ## Every state of a run -/

variable {setup : Setup} {past later earlier : List Step} {s s' : System} {mv : Move} {w : Wake}
  {told : List Event} {t : Step}

theorem System.Coherent.advances (h : s.Coherent)
    (hm : System.Moved setup s (.autoscan w) s' told) :
    Advances (s.moment setup) s.gateway s.autoscan s'.gateway told s'.autoscan := by
  cases hm with
  | autoscan up woken ran =>
    subst ran
    have unlinked (hp : s.gateway.paused = false) : s.gateway.peerLink = .disconnected :=
      h.fits.link.resolve_right (by simp [hp])
    exact Autoscan.resume_advances unlinked h.scanning (System.woken_of_wakes woken)

/-- Where a cycle may start: the broker can be reached and has been greeted, scanning is not paused,
nobody holds the radio or uses it, no connect command is being handled and no session is stored. -/
structure System.Allows (s : System) : Prop where
  online : s.online = true
  ready : s.gateway.ready = true
  unpaused : s.gateway.paused = false
  free : s.gateway.busy = false
  unused : s.gateway.radioInUse = false
  unconnecting : s.serving.connects = false
  unbound : s.gateway.session = none

theorem Serving.Stage.Fits.unconnecting {g : Gateway} {stage : Stage} (h : stage.Fits g)
    (hp : g.paused = false) : stage.connects = false := by
  by_contra hc
  have paused : g.paused = true := by
    cases stage with
    | acquiring peer wasPaused giveUp deadline => exact h.2.1
    | _ => first | exact h.paused rfl | exact absurd rfl hc
  rw [hp] at paused
  cases paused

theorem System.Coherent.allows (h : s.Coherent) (hh : s.autoscan.holdsRadio = false)
    (online : s.online = true) (ready : s.gateway.ready = true)
    (unpaused : s.gateway.paused = false) (free : s.gateway.busy = false) : s.Allows := by
  have unlinked : s.gateway.peerLink = .disconnected :=
    h.fits.link.resolve_right (by simp [unpaused])
  refine ⟨online, ready, unpaused, free, ?_, h.fits.unconnecting unpaused, ?_⟩
  · rw [Gateway.radioInUse, h.scanning, Autoscan.Stage.scans_of_rests hh, unlinked]
    rfl
  · by_contra hs
    have linked := h.pauseFits.session_iff.1 (Option.isSome_iff_ne_none.2 hs)
    rw [unlinked] at linked
    cases linked

/-- What is known of a step in which a cycle starts. -/
structure Step.Opens (setup : Setup) (t : Step) : Prop where
  move : ∃ w, t.move = .autoscan w
  rests : t.before.autoscan.holdsRadio = false
  allowed : t.before.Allows
  late : ∀ last, t.before.gateway.lastScan = some last →
    setup.timing.scanInterval ≤ t.before.now - last
  noted : t.after.gateway.lastScan = some t.before.now
  told : t.told = [.scanStarted]
  searches : t.after.autoscan.searches = true

theorem Run.opens (run : Run setup past s) (hm : System.Moved setup s mv s' told)
    (hs : .scanStarted ∈ told) : Step.Opens setup ⟨s, mv, told, s'⟩ := by
  rcases run.addressed.autoscan_or_unheard hm with ⟨w, rfl⟩ | unheard
  · obtain ⟨rests, ⟨online, ready⟩, ⟨unpaused, free⟩, late, noted, htold, searches⟩ :=
      (run.coherent.advances hm).started hs
    have allowed := run.coherent.allows rests online ready unpaused free
    refine ⟨⟨w, rfl⟩, rests, allowed, fun last hl => ?_, noted, htold, searches⟩
    have hl : s.gateway.lastScan = some last := hl
    rw [Autoscan.isEarly, hl] at late
    exact Nat.le_of_not_lt (of_decide_eq_false late)
  · exact absurd rfl (unheard.silent _ hs).2

/-! ## Starts and the time between them -/

theorem System.Moved.now_le (hm : System.Moved setup s mv s' told) : s.now ≤ s'.now := by
  cases hm with
  | startup present woken ran => exact (s.answered_now ..).ge
  | serving up woken ran => exact (s.answered_now ..).ge
  | greeting present woken ran => exact (s.answered_now ..).ge
  | tick d => exact Nat.le_add_right _ _
  | _ => exact Nat.le_refl _

/-- The start of a scan cycle is noted, and no start came after the one that is noted. -/
structure System.Paced (past : List Step) (s : System) : Prop where
  noted : ∀ last, s.gateway.lastScan = some last → last ≤ s.now
  starts : ∀ u ∈ past, u.Starts → ∃ last, s.gateway.lastScan = some last ∧ u.before.now ≤ last

theorem System.Paced.same (h : s.Paced past) (hl : s'.gateway.lastScan = s.gateway.lastScan)
    (hn : s.now ≤ s'.now) (hs : .scanStarted ∉ told) : s'.Paced (⟨s, mv, told, s'⟩ :: past) where
  noted last ht := (h.noted last (hl.symm.trans ht)).trans hn
  starts u hu hstarts := by
    rw [hl]
    rcases List.mem_cons.1 hu with rfl | hu
    · exact absurd hstarts hs
    · exact h.starts u hu hstarts

/-- The present is noted. -/
theorem System.Paced.now (h : s.Paced past) (hl : s'.gateway.lastScan = some s.now)
    (hn : s.now ≤ s'.now) : s'.Paced (⟨s, mv, told, s'⟩ :: past) where
  noted last ht := by
    rw [hl] at ht
    cases ht
    exact hn
  starts u hu hstarts := by
    refine ⟨s.now, hl, ?_⟩
    rcases List.mem_cons.1 hu with rfl | hu
    · exact Nat.le_refl _
    · obtain ⟨last, hlast, hle⟩ := h.starts u hu hstarts
      exact hle.trans (h.noted last hlast)

theorem Run.paced (h : Run setup past s) : s.Paced past := by
  induction h with
  | start online => exact ⟨fun last hl => absurd hl (Option.some_ne_none last).symm, by simp⟩
  | @step past s s' mv told run moved ih =>
    have hm := System.moved_of_move? moved
    have hn := hm.now_le
    by_cases hs : .scanStarted ∈ told
    · exact ih.now (run.opens hm hs).noted hn
    · rcases run.addressed.autoscan_or_unheard hm with ⟨w, rfl⟩ | unheard
      · rcases (run.coherent.advances hm).lastScan with same | noted
        · exact ih.same same hn hs
        · exact ih.now noted hn
      · exact ih.same unheard.lastScan hn hs

theorem Run.opens_of_starts (h : Run setup (t :: earlier) s) (hs : t.Starts) :
    t.Opens setup ∧ ∀ u ∈ earlier, u.Starts →
      u.before.now + setup.timing.scanInterval ≤ t.before.now := by
  cases h with
  | @step past s s' mv told run moved =>
    have opens := run.opens (System.moved_of_move? moved) hs
    refine ⟨opens, fun u hu hstarts => ?_⟩
    obtain ⟨last, hlast, hle⟩ := run.paced.starts u hu hstarts
    have late : setup.timing.scanInterval ≤ s.now - last := opens.late last hlast
    have past : last ≤ s.now := run.paced.noted last hlast
    calc u.before.now + setup.timing.scanInterval
      _ ≤ last + setup.timing.scanInterval := Nat.add_le_add_right hle _
      _ = setup.timing.scanInterval + last := Nat.add_comm ..
      _ ≤ s.now := Nat.add_le_of_le_sub past late

/-! ## The outcome of every cycle -/

theorem outcomes_concat_of_silent {steps : List Step}
    (h : ∀ e ∈ t.told, e.isOutcome = false) : outcomes (steps ++ [t]) = outcomes steps := by
  have none : t.told.filter Event.isOutcome = [] :=
    List.filter_eq_nil_iff.2 fun e he => by simp [h e he]
  rw [outcomes_concat, none, List.append_nil]

theorem results_concat_of_other {steps : List Step} (h : t.after.Addressed setup.topics)
    (hs : ∀ w, t.move ≠ .autoscan w) : results setup (steps ++ [t]) = results setup steps := by
  cases hp : t.publishes? setup with
  | none => exact results_concat_of_none hp
  | some message => exact results_concat_of_not_on hp (h.not_results hp hs)

/-- A step that starts no cycle keeps the account of the one under way. -/
theorem Run.tallies_step {steps : List Step} (run : Run setup past s)
    (moved : s.move? setup mv = some (s', told)) (hs : .scanStarted ∉ told)
    (ht : s.autoscan.Tallies (outcomes steps) (results setup steps)) :
    s'.autoscan.Tallies (outcomes (steps ++ [⟨s, mv, told, s'⟩]))
      (results setup (steps ++ [⟨s, mv, told, s'⟩])) := by
  have hm := System.moved_of_move? moved
  by_cases hw : ∃ w, mv = .autoscan w
  · obtain ⟨w, rfl⟩ := hw
    exact Advances.tallies (t := ⟨s, .autoscan w, told, s'⟩) (run.coherent.advances hm) rfl rfl
      hs ht
  · have unheard := (run.addressed.autoscan_or_unheard hm).resolve_left hw
    have kept : outcomes (steps ++ [⟨s, mv, told, s'⟩]) = outcomes steps :=
      outcomes_concat_of_silent fun e he => (unheard.silent e he).1
    have same : results setup (steps ++ [⟨s, mv, told, s'⟩]) = results setup steps :=
      results_concat_of_other (run.step moved).addressed fun w h => hw ⟨w, h⟩
    rw [kept, same]
    rcases unheard.autoscan with he | ⟨r, he⟩
    · rw [he]
      exact ht
    · rw [he, Autoscan.Stage.tallies_hear]
      exact ht

/-- From its start on the account of a cycle fits where the loop stands with it. -/
theorem Run.tallies (h : Run setup (later ++ t :: earlier) s) (hs : t.Starts)
    (alone : ∀ u ∈ later, ¬u.Starts) :
    s.autoscan.Tallies (outcomes (t :: later.reverse)) (results setup (t :: later.reverse)) := by
  -- The steps since the start lie the latest first, so that a longer account ends in the new step.
  induction later generalizing s with
  | nil =>
    cases h with
    | @step past before _ mv told run moved =>
      have opens := run.opens (System.moved_of_move? moved) hs
      obtain ⟨w, rfl⟩ : ∃ w, mv = .autoscan w := opens.move
      have searches : s.autoscan.searches = true := opens.searches
      refine (Autoscan.Stage.tallies_of_searches searches).2 ⟨?_, ?_⟩
      · have told : told = [.scanStarted] := opens.told
        subst told
        rfl
      · exact @results_concat_of_none setup [] _ (Step.publishes?_eq_none
          (Autoscan.Stage.call?_ne_publish_of_searches setup searches))
  | cons u later ih =>
    rw [List.cons_append] at h
    cases h with
    | @step past s s' mv told run moved =>
      have tallies := ih run fun u hu => alone u (List.mem_cons_of_mem _ hu)
      rw [List.reverse_cons, ← List.cons_append]
      exact run.tallies_step moved (alone _ List.mem_cons_self) tallies

theorem Autoscan.Stage.Tallies.undecided {stage : Stage} {outcomes : List Event}
    {results : List Message} (h : stage.Tallies outcomes results) (hh : stage.holdsRadio = true) :
    outcomes = [] ∨ ∃ e, outcomes = [.error (failure e)] := by
  cases stage with
  | sweeping s => exact .inl h.1
  | recovering found s => exact .inl h.1
  | publishing message n => exact .inl h.1
  | reporting message => exact .inr h
  | deciding => cases hh
  | resting deadline => cases hh

/-- Every cycle of a run starts where that is allowed and at least the scan interval after every
earlier one. From its start to the next one, which comes only when it does not hold the radio any
more, it comes to one outcome: while it holds the radio nothing has been told of its outcome unless
it has failed, and once it has given the radio up there is one, the failure or a count of the values
in the one list that it has published. -/
theorem Run.scan_cycles (h : Run setup past s) :
    (∀ t earlier, t :: earlier <:+ past → t.Starts →
      t.before.autoscan.holdsRadio = false ∧ t.before.Allows ∧
        ∀ u ∈ earlier, u.Starts → u.before.now + setup.timing.scanInterval ≤ t.before.now) ∧
    s.gateway.busy = (s.autoscan.holdsRadio || s.serving.holdsRadio) ∧
    ∀ later t earlier, past = later ++ t :: earlier → t.Starts → (∀ u ∈ later, ¬u.Starts) →
      (s.autoscan.holdsRadio = true → outcomes (t :: later.reverse) = [] ∨
        ∃ e, outcomes (t :: later.reverse) = [.error (failure e)]) ∧
      (s.autoscan.holdsRadio = false →
        Concluded (outcomes (t :: later.reverse)) (results setup (t :: later.reverse))) := by
  refine ⟨fun t earlier hsuffix hs => ?_, h.coherent.busy, ?_⟩
  · obtain ⟨opens, apart⟩ := (h.of_suffix hsuffix).opens_of_starts hs
    exact ⟨opens.rests, opens.allowed, apart⟩
  · rintro later t earlier rfl hs alone
    have tallies := h.tallies hs alone
    exact ⟨tallies.undecided, fun rests => (Autoscan.Stage.tallies_of_rests rests).1 tallies⟩

/-- Two devices that can be told from others, one by its name and one by its manufacturer data. -/
def Report.samples : List Report :=
  [{ address := Peer.sample.address
     kind := .registered
     rssi := -40
     payload := [0x05, 0x09, 0x4C, 0x61, 0x6D, 0x70, 0x03, 0x03, 0x0F, 0x18] },
    { address := ⟨#v[0xC0, 0xFF, 0xEE, 0xC0, 0xFF, 0xEE]⟩
      kind := .random
      rssi := -71
      payload := [0x04, 0xFF, 0x4C, 0x00, 0x02] }]

/-- The list that is published of them. -/
def Report.sampleList : Text.Bytes :=
  ["[\x7b\"address\":\"00:11:22:33:44:55\",\"name\":\"Lamp\",\"rssi\":-40,",
    "\"services\":[\"180f\"],\"addr_type\":0\x7d,",
    "\x7b\"address\":\"C0:FF:EE:C0:FF:EE\",\"name\":\"\",\"rssi\":-71,\"services\":[],",
    "\"addr_type\":1,\"manufacturer_id\":76,\"manufacturer_data\":\"02\"\x7d]"].flatMap Text.utf8

/-- A cycle that hears these reports. -/
def Move.cycle (reports : List Report) : List Move :=
  .autoscan (.reply .done) :: reports.map .hear ++ List.replicate 4 (.autoscan (.reply .done))

/-- The second of two cycles. The first one hears nothing, this one two devices. -/
theorem scan_cycles_twice : ∃ later t earlier s, Run .sample (later ++ t :: earlier) s ∧
    t.Starts ∧ t.before.now = 5000 ∧ (∃ u ∈ earlier, u.Starts) ∧ t.before.Allows ∧
    (∀ u ∈ earlier, u.Starts → u.before.now + 5000 ≤ t.before.now) ∧
    outcomes (t :: later.reverse) = [.scanComplete 2] ∧
    (results .sample (t :: later.reverse)).map (·.payload) = [Report.sampleList] ∧
    Concluded (outcomes (t :: later.reverse)) (results .sample (t :: later.reverse)) := by
  obtain ⟨later, t, earlier, s, run, hp⟩ := Run.exists_cut .sample false
    (Move.bringUp ++ .autoscan .signal :: Move.cycle [] ++
      [.autoscan .signal, .tick 5000, .autoscan .timeout] ++ Move.cycle Report.samples) 7
    (fun later t earlier => t.Starts && t.before.now == 5000 && later.all (¬·.Starts) &&
      earlier.any (·.Starts) && outcomes (t :: later.reverse) == [.scanComplete 2] &&
      (results .sample (t :: later.reverse)).map (·.payload) == [Report.sampleList] &&
      later.head?.any (!·.after.autoscan.holdsRadio))
    (by decide +kernel)
  simp only [Bool.and_eq_true, beq_iff_eq, List.all_eq_true, List.any_eq_true, decide_eq_true_eq,
    Option.any_eq_true, Bool.not_eq_true'] at hp
  obtain ⟨⟨⟨⟨⟨⟨starts, now⟩, alone⟩, before⟩, complete⟩, published⟩, u, hu, ended⟩ := hp
  obtain ⟨rest, rfl⟩ := List.head?_eq_some_iff.1 hu
  have upTo : Run .sample (u :: rest ++ t :: earlier) u.after := run.of_suffix (List.suffix_refl _)
  obtain ⟨start, -, outcome⟩ := upTo.scan_cycles
  obtain ⟨-, allowed, apart⟩ := start t earlier (List.suffix_append _ _) starts
  have concluded := (outcome _ t earlier rfl starts alone).2 ended
  exact ⟨u :: rest, t, earlier, u.after, upTo, starts, now, before, allowed, apart, complete,
    published, concluded⟩

end GattGateway
