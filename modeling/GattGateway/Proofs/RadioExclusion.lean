import GattGateway.Proofs.Calls
import GattGateway.Proofs.Coherence

/-!
# Exclusive use of the radio

One scan cycle or one connect sequence holds the radio, never both. A scan goes on only while there
is no session and no other use of the radio, and the check of the radio before a scan or an attempt
to connect never refuses.
-/
namespace GattGateway

open Segment

/-- A call that belongs to a session with a peer. -/
def Call.engages : Call → Bool
  | .dial _ => true
  | .discover _ => true
  | .read _ _ => true
  | .write _ _ _ => true
  | .hangUp _ => true
  | _ => false

theorem Call.isRadioUse_of_engages {c : Call} (h : c.engages = true) : c.isRadioUse = true := by
  cases c with
  | dial peer => rfl
  | discover connection => rfl
  | read connection handle => rfl
  | write connection handle data => rfl
  | hangUp connection => rfl
  | _ => cases h

namespace Teardown

theorem Stage.Fits.engaged {g : Gateway} {stage : Stage} {c : Call} (h : stage.Fits g)
    (hc : stage.call? = some c) (he : c.engages = true) : g.peerLink ≠ .disconnected := by
  cases stage with
  | hangingUp connection => simp [h.link]
  | stopping w deadline => cases hc
  | poweringDown =>
    cases hc
    cases he

end Teardown

namespace Dial

theorem Stage.Fits.engaged {g : Gateway} {stage : Stage} {c : Call} (h : stage.Fits g)
    (hc : stage.call? = some c) (he : c.engages = true) : g.peerLink ≠ .disconnected := by
  cases stage with
  | poweringUp peer => simp [h.link]
  | poweringDown e =>
    cases hc
    cases he
  | calling peer deadline => simp [h.1.link]
  | discovering connection => simp [h.1.link]
  | closing connection e => simp [h.1.link]

end Dial

namespace Serving

/-- While a call of a session is in progress the link is in use. -/
theorem Stage.Fits.engaged {g : Gateway} {stage : Stage} {c : Call} (h : stage.Fits g)
    (hc : stage.call? = some c) (he : c.engages = true) : g.peerLink ≠ .disconnected := by
  have aside (hn : c.engages = false) : g.peerLink ≠ .disconnected := by simp [hn] at he
  cases stage with
  | clearing peer s => exact h.1.engaged hc he
  | dialling peer s => exact h.1.engaged hc he
  | unwinding e s => exact h.1.engaged hc he
  | leaving s => exact h.1.engaged hc he
  | writing connection handle data => simp [h.1.link]
  | reading uuid connection handle => simp [h.1.link]
  | receiving => cases hc
  | acquiring peer wasPaused giveUp deadline => cases hc
  | recovering peer found s => cases hc
  | subscribing peer ds name topic => cases hc; cases he
  | announcing peer characteristics message => cases hc; cases he
  | parting message => cases hc; cases he
  | answering uuid value message => cases hc; cases he
  | reporting message => cases hc; cases he

end Serving

/-! ## The check before a use of the radio -/

namespace Autoscan

theorem Stage.scans_of_call? {setup : Setup} {stage : Stage} {parameters : ScanParameters}
    (h : stage.call? setup = some (.scan parameters)) : stage.scans = true := by
  cases stage with
  | sweeping s =>
    cases s with
    | poweringDown heard => cases h
    | _ => rfl
  | _ => cases h

theorem Stage.engages_of_call? {setup : Setup} {stage : Stage} {c : Call}
    (h : stage.call? setup = some c) : c.engages = false := by
  cases stage with
  | sweeping s => cases s <;> cases h <;> rfl
  | publishing message devices =>
    cases h
    rfl
  | reporting message =>
    cases h
    rfl
  | _ => cases h

/-- The scan that the loop begins if the time for it has come. -/
def firstScan? (m : Moment) (g : Gateway) : Option (Segment Sweep.Stage Sweep.Result) :=
  if m.online && g.ready && !(g.paused || g.busy) && !isEarly m g then
    some (Sweep.begin m { g with busy := true, lastScan := some m.now, ready := false })
  else none

/-- The scan that begins or goes on in a segment of the loop. -/
def scan? (m : Moment) (g : Gateway) : Stage → Wake → Option (Segment Sweep.Stage Sweep.Result)
  | .deciding, .signal => firstScan? m g
  | .resting _, .timeout => firstScan? m g
  | .sweeping s, w => some (Sweep.resume m g s w)
  | _, _ => none

variable {m : Moment} {g : Gateway} {stage : Stage} {w : Wake}

theorem consider_of_firstScan? {s : Segment Sweep.Stage Sweep.Result}
    (h : firstScan? m g = some s) : consider m g = telling .scanStarted (sweep m s) := by
  unfold firstScan? at h
  split_ifs at h with hc
  cases h
  simp only [Bool.and_eq_true, Bool.not_eq_true', Bool.or_eq_false_iff] at hc
  obtain ⟨⟨⟨ho, hr⟩, hp, hb⟩, he⟩ := hc
  simp [consider, start, ho, hr, hp, hb, he]

/-- The loop goes on with what comes of the scan. -/
theorem resume_of_scan? {s : Segment Sweep.Stage Sweep.Result} (h : scan? m g stage w = some s) :
    resume m g stage w = sweep m s ∨ resume m g stage w = telling .scanStarted (sweep m s) := by
  cases stage with
  | deciding =>
    cases w with
    | signal => exact .inr (consider_of_firstScan? h)
    | _ => cases h
  | resting deadline =>
    cases w with
    | timeout => exact .inr (consider_of_firstScan? h)
    | _ => cases h
  | sweeping s =>
    cases h
    exact .inl rfl
  | _ => cases h

end Autoscan

namespace Serving

/-- The teardown before an attempt to connect that takes the radio. -/
def firstTeardown? (m : Moment) (g : Gateway) (peer : Peer) :
    Option (Peer × Segment Teardown.Stage Unit) :=
  if g.busy then none else some (peer, Teardown.begin m { g with busy := true })

/-- The teardown before an attempt to connect that begins or goes on in a segment of the loop. -/
def teardown? (m : Moment) (g : Gateway) :
    Stage → Wake → Option (Peer × Segment Teardown.Stage Unit)
  | .receiving, .signal =>
    match g.inbox.pop? with
    | some (request, inbox) =>
      match Command.ofMessage m.topics request.topic.text request.payload with
      | .ok (some (.connect peer)) => firstTeardown? m { g with inbox, paused := true } peer
      | _ => none
    | none => none
  | .acquiring peer _ _ _, .timeout => firstTeardown? m g peer
  | .clearing peer s, w => some (peer, Teardown.resume m g s w)
  | _, _ => none

/-- The attempt to connect that begins or goes on in a segment of the loop. -/
def attempt? (m : Moment) (g : Gateway) (stage : Stage) (w : Wake) :
    Option (Peer × Segment Dial.Stage Dial.Result) :=
  match stage with
  | .dialling peer s => some (peer, Dial.resume m g s w)
  | _ =>
    match teardown? m g stage w with
    | some (peer, s) =>
      match s.turn with
      | .finish _ => some (peer, Dial.begin m { s.gateway with ready := false } peer)
      | .wait _ => none
    | none => none

variable {m : Moment} {g : Gateway} {stage : Stage} {w : Wake} {peer : Peer}

theorem acquire_of_firstTeardown? {peer' : Peer} {wasPaused : Bool} {giveUp : Instant}
    {s : Segment Teardown.Stage Unit} (h : firstTeardown? m g peer = some (peer', s)) :
    acquire m g peer wasPaused giveUp = clear m peer' s := by
  unfold firstTeardown? at h
  split_ifs at h with hb
  cases h
  simp [acquire, hb]

theorem resume_of_teardown? {s : Segment Teardown.Stage Unit}
    (h : teardown? m g stage w = some (peer, s)) : resume m g stage w = clear m peer s := by
  cases stage with
  | receiving =>
    cases w with
    | signal =>
      simp only [teardown?] at h
      split at h
      · rename_i hpop
        split at h
        · rename_i hcommand
          simp only [resume, hpop, dispatch, hcommand, handle]
          exact acquire_of_firstTeardown? h
        · cases h
      · cases h
    | _ => cases h
  | acquiring peer' wasPaused giveUp deadline =>
    cases w with
    | timeout => exact acquire_of_firstTeardown? h
    | _ => cases h
  | clearing peer' s =>
    cases h
    rfl
  | _ => cases h

/-- The three places where such a teardown stands. -/
theorem teardown?_cases {s : Segment Teardown.Stage Unit}
    (h : teardown? m g stage w = some (peer, s)) :
    (∃ inbox, stage = .receiving ∧ g.busy = false ∧
        s = Teardown.begin m { g with inbox, paused := true, busy := true }) ∨
      (∃ wasPaused giveUp deadline, stage = .acquiring peer wasPaused giveUp deadline ∧
        g.busy = false ∧ s = Teardown.begin m { g with busy := true }) ∨
      ∃ s', stage = .clearing peer s' ∧ s = Teardown.resume m g s' w := by
  cases stage with
  | receiving =>
    cases w with
    | signal =>
      simp only [teardown?] at h
      split at h
      · split at h
        · unfold firstTeardown? at h
          split_ifs at h with hb
          cases h
          exact .inl ⟨_, rfl, by simpa using hb, rfl⟩
        · cases h
      · cases h
    | _ => cases h
  | acquiring peer' wasPaused giveUp deadline =>
    cases w with
    | timeout =>
      simp only [teardown?, firstTeardown?] at h
      split_ifs at h with hb
      cases h
      exact .inr (.inl ⟨_, _, _, rfl, by simpa using hb, rfl⟩)
    | _ => cases h
  | clearing peer' s =>
    cases h
    exact .inr (.inr ⟨s, rfl, rfl⟩)
  | _ => cases h

theorem teardown?_events {s : Segment Teardown.Stage Unit}
    (h : teardown? m g stage w = some (peer, s)) : s.events = [] := by
  obtain ⟨_, -, -, rfl⟩ | ⟨_, _, _, -, -, rfl⟩ | ⟨_, -, rfl⟩ := teardown?_cases h
  · exact Teardown.begin_events
  · exact Teardown.begin_events
  · exact Teardown.resume_events

/-- The loop goes on with what comes of the attempt. -/
theorem resume_of_attempt? {s : Segment Dial.Stage Dial.Result}
    (h : attempt? m g stage w = some (peer, s)) : resume m g stage w = dial m peer s := by
  unfold attempt? at h
  split at h
  · cases h
    rfl
  · split at h
    · rename_i before ht
      split at h
      · rename_i hturn
        cases h
        rw [resume_of_teardown? ht]
        simp [clear, andThen, hturn, teardown?_events ht]
      · cases h
    · cases h

variable {taken scans : Bool}

/-- Before an attempt the radio is held and nothing of an old session is left. -/
theorem teardown?_ends {s : Segment Teardown.Stage Unit} (h : Agrees taken scans g stage)
    (hw : w = .signal → stage.signalled g = true) (ht : teardown? m g stage w = some (peer, s)) :
    s.Ends (fun g s => Holding g ∧ s.Fits g) fun g _ => Holding g ∧ g.Free := by
  obtain ⟨inbox, rfl, hb, rfl⟩ | ⟨_, _, _, rfl, hb, rfl⟩ | ⟨s', rfl, rfl⟩ := teardown?_cases ht
  · have ha : Agrees taken scans { g with inbox, paused := true } (.acquiring peer g.paused 0 0) :=
      (h.undisturbed (.of_inbox g inbox)).acquiring
    exact ha.takes hb
  · exact h.takes hb
  · exact (h.holding rfl).teardown (Teardown.resume_ends h.fits.1 h.orderly hw)

theorem attempt?_ne_busy {s : Segment Dial.Stage Dial.Result} (h : Agrees taken scans g stage)
    (hw : w = .signal → stage.signalled g = true) (ha : attempt? m g stage w = some (peer, s)) :
    s.turn ≠ .finish (.error .busy) := by
  intro hbusy
  unfold attempt? at ha
  split at ha
  · cases ha
    exact ((Dial.resume_ends h.fits.1).of_finish hbusy).2.2 rfl
  · split at ha
    · rename_i before ht
      split at ha
      · rename_i hturn
        cases ha
        obtain ⟨hh, hf⟩ := (teardown?_ends h hw ht).of_finish hturn
        have hf' : ({ before.gateway with ready := false } : Gateway).Free :=
          ⟨hf.session, hf.link, hf.quiet⟩
        exact (Dial.begin_ends hf' hh.scanning).of_finish hbusy
      · cases ha
    · cases ha

end Serving

namespace Autoscan

variable {m : Moment} {g : Gateway} {stage : Stage} {w : Wake}

theorem firstScan?_ne_busy {s : Segment Sweep.Stage Sweep.Result} (hs : g.scanning = false)
    (hl : g.paused = false → g.peerLink = .disconnected) (h : firstScan? m g = some s) :
    s.turn ≠ .finish (.error .busy) := by
  intro hbusy
  unfold firstScan? at h
  split_ifs at h with hc
  cases h
  have hp : g.paused = false := by
    simp only [Bool.and_eq_true, Bool.not_eq_true', Bool.or_eq_false_iff] at hc
    exact hc.1.2.1
  have hu : ({ g with busy := true, lastScan := some m.now, ready := false } : Gateway).radioInUse
      = false := by
    simp [Gateway.radioInUse, hs, hl hp]
  exact (Sweep.begin_ends hu).of_finish hbusy

theorem scan?_ne_busy {s : Segment Sweep.Stage Sweep.Result} (hs : g.scanning = stage.scans)
    (hl : g.paused = false → g.peerLink = .disconnected) (h : scan? m g stage w = some s) :
    s.turn ≠ .finish (.error .busy) := by
  cases stage with
  | deciding =>
    cases w with
    | signal => exact firstScan?_ne_busy hs hl h
    | _ => cases h
  | resting deadline =>
    cases w with
    | timeout => exact firstScan?_ne_busy hs hl h
    | _ => cases h
  | sweeping s =>
    cases h
    exact fun hbusy => ((Sweep.resume_ends hs).of_finish hbusy).2.2 rfl
  | _ => cases h

end Autoscan

/-! ## Every state of a run -/

/-- How the radio is used in a state, and what comes of the checks before its next uses. -/
structure System.Exclusive (setup : Setup) (s : System) : Prop where
  busy : s.gateway.busy = true ↔ s.autoscan.holdsRadio = true ∨ s.serving.holdsRadio = true
  single : ¬(s.autoscan.holdsRadio = true ∧ s.serving.holdsRadio = true)
  apart : ∀ parameters, .scan parameters ∈ s.calls setup →
    s.gateway.session = none ∧ s.gateway.peerLink = .disconnected ∧
      ∀ c ∈ s.calls setup, c.engages = false
  scans : ∀ m w scan, s.wakes setup (.autoscan s.autoscan) w = true →
    Autoscan.scan? m s.gateway s.autoscan w = some scan → scan.turn ≠ .finish (.error .busy)
  attempts : ∀ m w peer attempt, s.wakes setup (.serving s.serving) w = true →
    Serving.attempt? m s.gateway s.serving w = some (peer, attempt) →
      attempt.turn ≠ .finish (.error .busy)

theorem Run.radio_exclusive {setup : Setup} {past : List Step} {s : System}
    (h : Run setup past s) : s.Exclusive setup where
  busy := by
    rw [h.coherent.busy, Bool.or_eq_true]
  single hboth := by
    have := (h.coherent.apart hboth.1).2
    simp [hboth.2] at this
  apart parameters hscan := by
    have hcall := ((h.mem_calls rfl).1 hscan).resolve_right Serving.Stage.call?_ne_scan
    obtain ⟨hf, -⟩ := h.coherent.apart
      (Autoscan.Stage.holdsRadio_of_scans (Autoscan.Stage.scans_of_call? hcall))
    refine ⟨hf.session, hf.link, fun c hc => ?_⟩
    by_contra hne
    have he : c.engages = true := by simpa using hne
    rcases (h.mem_calls (Call.isRadioUse_of_engages he)).1 hc with hc | hc
    · exact hne (Autoscan.Stage.engages_of_call? hc)
    · exact h.coherent.fits.engaged hc he hf.link
  scans m w scan _ hs := by
    refine Autoscan.scan?_ne_busy h.coherent.scanning (fun hp => ?_) hs
    exact h.coherent.fits.link.resolve_right (by simp [hp])
  attempts m w peer attempt hw ha :=
    Serving.attempt?_ne_busy h.coherent (System.signalled_of_wakes hw) ha

/-- The first scan of a gateway. -/
theorem radio_exclusive_in_first_scan : ∃ past s, Run .sample past s ∧
    .scan ⟨100, 30, true⟩ ∈ s.calls .sample ∧ s.Exclusive .sample := by
  have hm : (System.trace? .sample [] (.initial false)
      [.startup .signal, .startup (.reply .done), .startup (.reply .done), .startup (.reply .done),
        .startup (.reply .done), .autoscan .signal, .autoscan (.reply .done)]).any
      (fun (_, s) => .scan ⟨100, 30, true⟩ ∈ s.calls .sample) = true := by
    decide +kernel
  obtain ⟨past, s, run, hscan⟩ := Run.exists_of_any hm
  exact ⟨past, s, run, by simpa using hscan, run.radio_exclusive⟩

end GattGateway
