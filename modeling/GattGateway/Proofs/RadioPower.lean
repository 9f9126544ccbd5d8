import GattGateway.Proofs.Calls
import GattGateway.Proofs.Coherence

/-!
# Power under the radio's users

A session and an attempt to connect always have the radio switched on. A scan has it too, unless it
began while a disconnect command was switching the radio off.
-/
namespace GattGateway

open Segment

/-! ## What a disconnect spares -/

namespace Teardown

variable {m : Moment} {g : Gateway}

/-- The power is as it was, and is not being switched off. -/
def Spares (g g' : Gateway) (s : Stage) : Prop := g'.powered = g.powered ∧ s ≠ .poweringDown

theorem release_spares (hs : g.scanning = true) :
    (release g).Ends (Spares g) fun g' _ => g'.powered = g.powered := by
  simp only [release, hs]
  exact rfl

theorem hangUp_spares (hs : g.scanning = true) :
    (hangUp g).Ends (Spares g) fun g' _ => g'.powered = g.powered := by
  unfold hangUp
  split
  · exact ⟨rfl, nofun⟩
  · exact release_spares hs

theorem stopFrom_spares {first : Nat} (hs : g.scanning = true) :
    (stopFrom m g first).Ends (Spares g) fun g' _ => g'.powered = g.powered := by
  unfold stopFrom
  split
  · exact ⟨rfl, nofun⟩
  · exact hangUp_spares hs

theorem begin_spares (hs : g.scanning = true) :
    (begin m g).Ends (Spares g) fun g' _ => g'.powered = g.powered :=
  stopFrom_spares hs

/-- A teardown beside a scan does not begin to switch the radio off. -/
theorem resume_spares {stage : Stage} {w : Wake} (hs : g.scanning = true)
    (hp : stage ≠ .poweringDown) :
    (resume m g stage w).Ends (Spares g) fun g' _ => g'.powered = g.powered := by
  cases stage with
  | stopping v deadline =>
    cases w with
    | signal => exact stopFrom_spares hs
    | timeout => exact stopFrom_spares hs
    | reply r => exact ⟨rfl, hp⟩
  | hangingUp connection =>
    cases w with
    | reply r => exact release_spares hs
    | signal => exact ⟨rfl, hp⟩
    | timeout => exact ⟨rfl, hp⟩
  | poweringDown => exact absurd rfl hp

end Teardown

namespace Serving

variable {m : Moment} {g : Gateway} {stage : Stage} {w : Wake}

/-- A disconnect command switches the radio off. -/
def Stage.powersDown : Stage → Bool
  | .leaving .poweringDown => true
  | _ => false

/-- The power is as it was, and no disconnect command is switching it off. -/
def Spares (g g' : Gateway) (stage : Stage) : Prop :=
  g'.powered = g.powered ∧ stage.powersDown = false

theorem report_spares {e : Fault} :
    (report m g e).Leads fun g' _ stage => Spares g g' stage := by
  unfold report
  rw [leads_telling]
  split
  · exact ⟨rfl, rfl⟩
  · exact ⟨rfl, rfl⟩

theorem send_spares {name : TopicName} {payload : Text.Bytes} {next : Message → Stage}
    (hn : ∀ message, (next message).powersDown = false) :
    (send m g name payload next).Leads fun g' _ stage => Spares g g' stage := by
  unfold send
  split
  · exact ⟨rfl, hn _⟩
  · exact report_spares

theorem answer_spares {uuid : CanonicalUuid} {value : Text.Bytes} :
    (answer m g uuid value).Leads fun g' _ stage => Spares g g' stage :=
  send_spares fun _ => rfl

theorem leave_spares {s : Segment Teardown.Stage Unit} (silent : s.events = [])
    (h : s.Ends (Teardown.Spares g) fun g' _ => g'.powered = g.powered) :
    (leave m s).Leads fun g' _ stage => Spares g g' stage := by
  refine h.leads silent (fun g' s hs => ⟨hs.1, ?_⟩) fun g' _ hp => ?_
  · cases s with
    | poweringDown => exact absurd rfl hs.2
    | _ => rfl
  · have hsend : (send m { g' with valueTopics := false, paused := false } .disconnected []
        .parting).Leads fun g'' _ stage => Spares g' g'' stage := send_spares fun _ => rfl
    exact hsend.imp fun _ _ _ hl => ⟨hl.1.trans hp, hl.2⟩

theorem acquire_spares {peer : Peer} {wasPaused : Bool} {giveUp : Instant} (hb : g.busy = true) :
    (acquire m g peer wasPaused giveUp).Leads fun g' _ stage => Spares g g' stage := by
  simp only [acquire, hb, Bool.not_true, Bool.false_eq_true, if_false]
  split_ifs
  · exact report_spares.imp fun _ _ _ h => h
  · exact ⟨rfl, rfl⟩

theorem handle_spares {command : Command} (hb : g.busy = true) (hs : g.scanning = true) :
    (handle m g command).Leads fun g' _ stage => Spares g g' stage := by
  cases command with
  | connect peer =>
    have ha : (acquire m { g with paused := true } peer g.paused (m.now + m.timing.busyWait)).Leads
        fun g' _ stage => Spares { g with paused := true } g' stage := acquire_spares hb
    exact ha.imp fun _ _ _ h => h
  | disconnect => exact leave_spares Teardown.begin_events (Teardown.begin_spares hs)
  | write uuid data =>
    simp only [handle]
    split
    · exact ⟨rfl, rfl⟩
    · exact ⟨rfl, rfl⟩
  | read uuid =>
    simp only [handle]
    split
    · exact ⟨rfl, rfl⟩
    · exact answer_spares

theorem dispatch_spares {r : Request} (hb : g.busy = true) (hs : g.scanning = true) :
    (dispatch m g r).Leads fun g' _ stage => Spares g g' stage := by
  unfold dispatch
  split
  · exact ⟨rfl, rfl⟩
  · exact handle_spares hb hs
  · exact report_spares

/-- Beside a scan the loop leaves the power alone, unless it has been switching it off before. -/
theorem resume_spares (hb : g.busy = true) (hs : g.scanning = true)
    (hh : stage.holdsRadio = false) (hp : stage.powersDown = false) :
    (resume m g stage w).Leads fun g' _ stage' => Spares g g' stage' := by
  have waits : Spares g g stage := ⟨rfl, hp⟩
  cases stage with
  | receiving =>
    cases w with
    | signal =>
      simp only [resume]
      split
      · rename_i inbox _
        have hd {r : Request} : (dispatch m { g with inbox } r).Leads fun g' _ stage =>
            Spares { g with inbox } g' stage := dispatch_spares hb hs
        exact hd.imp fun _ _ _ h => h
      · exact waits
    | reply r => exact waits
    | timeout => exact waits
  | acquiring peer wasPaused giveUp deadline =>
    cases w with
    | timeout => exact acquire_spares hb
    | signal => exact waits
    | reply r => exact waits
  | leaving s =>
    refine leave_spares Teardown.resume_events (Teardown.resume_spares hs ?_)
    rintro rfl
    cases hp
  | parting message | writing connection handle data | reading uuid connection handle
  | answering uuid value message | reporting message =>
    exact resume_single rfl waits (fun _ => ⟨rfl, rfl⟩) (fun _ => report_spares)
      fun _ _ => answer_spares
  | _ => cases hh

end Serving

/-! ## The start of a scan -/

namespace Sweep

def Stage.listens : Stage → Bool
  | .listening _ _ => true
  | _ => false

variable {m : Moment} {g : Gateway}

theorem begin_powers :
    (begin m g).Ends (fun g' s => s.listens = true → g'.powered = true) fun _ _ => True := by
  unfold begin
  dsimp only
  split_ifs with hu hp
  · trivial
  · exact fun _ => hp
  · intro hl
    cases hl

theorem resume_powers {s : Stage} {w : Wake} (h : s.listens = true → g.powered = true) :
    (resume m g s w).Ends (fun g' s => s.listens = true → g'.powered = true) fun _ _ => True := by
  have close_powers {heard : Except RadioFault Collector} :
      (close g heard).Ends (fun g' s => s.listens = true → g'.powered = true) fun _ _ => True := by
    unfold close
    dsimp only
    split_ifs
    · intro hl
      cases hl
    · trivial
  cases w with
  | signal => cases s <;> exact h
  | timeout =>
    cases s with
    | listening deadline heard =>
      intro hl
      cases hl
    | _ => exact h
  | reply r =>
    cases s with
    | poweringUp =>
      simp only [resume]
      split
      · exact fun _ => rfl
      · exact close_powers
    | listening deadline heard =>
      intro hl
      cases hl
    | stopping heard => exact close_powers
    | poweringDown heard =>
      simp only [resume]
      split
      · trivial
      · trivial

end Sweep

namespace Autoscan

/-- A scan is in progress. -/
def Stage.listens : Stage → Bool
  | .sweeping s => s.listens
  | _ => false

variable {m : Moment} {g : Gateway} {stage : Stage} {w : Wake}

theorem Stage.scans_of_listens (h : stage.listens = true) : stage.scans = true := by
  cases stage with
  | sweeping s =>
    cases s with
    | listening deadline heard => rfl
    | _ => cases h
  | _ => cases h

theorem Stage.call?_of_listens {setup : Setup} (h : stage.listens = true) :
    stage.call? setup = some (.scan setup.timing.scan.parameters) := by
  cases stage with
  | sweeping s =>
    cases s with
    | listening deadline heard => rfl
    | _ => cases h
  | _ => cases h

theorem Stage.listens_of_call? {setup : Setup} {parameters : ScanParameters}
    (h : stage.call? setup = some (.scan parameters)) : stage.listens = true := by
  cases stage with
  | sweeping s =>
    cases s with
    | listening deadline heard => rfl
    | _ => cases h
  | _ => cases h

theorem report_deaf {e : Fault} : (report m g e).Leads fun _ _ stage => stage.listens = false := by
  unfold report
  dsimp only
  rw [leads_telling]
  split
  · exact rfl
  · exact rfl

theorem publish_deaf {found : Sweep.Result} :
    (publish m g found).Leads fun _ _ stage => stage.listens = false := by
  cases found with
  | error e => exact report_deaf
  | ok ds =>
    simp only [publish]
    split
    · exact rfl
    · exact report_deaf

theorem recover_deaf {found : Sweep.Result} {s : Segment Recovery.Stage Recovery.Outcome}
    (silent : s.events = []) :
    (recover m found s).Leads fun _ _ stage => stage.listens = false :=
  s.ends_trivial.leads silent (fun _ _ _ => rfl) fun _ _ _ => publish_deaf

theorem sweep_powers {s : Segment Sweep.Stage Sweep.Result} (silent : s.events = [])
    (h : s.Ends (fun g' s => s.listens = true → g'.powered = true) fun _ _ => True) :
    (sweep m s).Leads fun g' _ stage => stage.listens = true → g'.powered = true :=
  h.leads silent (fun _ _ hs => hs) fun _ _ _ =>
    (recover_deaf Recovery.poll_events).imp fun _ _ _ hd hl => by simp [hd] at hl

theorem consider_powers :
    (consider m g).Leads fun g' _ stage => stage.listens = true → g'.powered = true := by
  unfold consider
  split_ifs
  · intro hl
    cases hl
  · intro hl
    cases hl
  · intro hl
    cases hl
  · unfold start
    rw [leads_telling]
    exact sweep_powers Sweep.begin_events Sweep.begin_powers

/-- A scan is in progress only where the radio has been switched on before. -/
theorem resume_powers (h : stage.listens = true → g.powered = true) :
    (resume m g stage w).Leads fun g' _ stage' => stage'.listens = true → g'.powered = true := by
  have deaf {s : Step} (hs : s.Leads fun _ _ stage => stage.listens = false) :
      s.Leads fun g' _ stage => stage.listens = true → g'.powered = true :=
    hs.imp fun _ _ _ hd hl => by simp [hd] at hl
  cases stage with
  | deciding =>
    cases w with
    | signal => exact consider_powers
    | _ =>
      intro hl
      cases hl
  | resting deadline =>
    cases w with
    | timeout => exact consider_powers
    | _ =>
      intro hl
      cases hl
  | sweeping s => exact sweep_powers Sweep.resume_events (Sweep.resume_powers h)
  | recovering found s => exact deaf (recover_deaf Recovery.resume_events)
  | publishing message devices =>
    cases w with
    | reply r =>
      simp only [resume]
      split
      · intro hl
        cases hl
      · exact deaf report_deaf
    | _ =>
      intro hl
      cases hl
  | reporting message =>
    cases w <;> intro hl <;> cases hl

end Autoscan

/-! ## Every state of a run -/

/-- A scan or an attempt to connect is in progress, or a session is stored. -/
def System.UsesRadio (setup : Setup) (s : System) : Prop :=
  (∃ parameters, .scan parameters ∈ s.calls setup) ∨ (∃ peer, .dial peer ∈ s.calls setup) ∨
    s.gateway.session.isSome = true

/-- Whoever uses the radio finds it switched on, and nobody is switching it off. -/
def System.Powered (setup : Setup) (s : System) : Prop :=
  s.UsesRadio setup → s.gateway.powered = true ∧ .powerOff ∉ s.calls setup

/-- A scan begins while a disconnect command is switching the radio off. -/
structure Step.Collides (t : Step) : Prop where
  idle : t.before.autoscan.listens = false
  listens : t.after.autoscan.listens = true
  powersDown : t.after.serving.powersDown = true

/-- A scan in progress has the radio switched on, and no disconnect command switches it off. -/
def System.Watched (s : System) : Prop :=
  s.autoscan.listens = true → s.gateway.powered = true ∧ s.serving.powersDown = false

variable {setup : Setup} {past : List Step} {s s' : System} {m : Move} {told : List Event}

theorem System.Coherent.watched (h : s.Coherent) (hw : s.Watched)
    (hm : System.Moved setup s m s' told) (hn : ¬Step.Collides ⟨s, m, told, s'⟩) : s'.Watched := by
  intro hl'
  rcases hm.loop_or_beside with ⟨w, rfl⟩ | ⟨w, rfl⟩ | hb
  · have hserving := (h.autoscan_kept hm).1
    constructor
    · cases hm with
      | autoscan up woken ran =>
        subst ran
        exact Autoscan.resume_powers (fun hl => (hw hl).1) hl'
    · cases hl : s.autoscan.listens with
      | true =>
        rw [hserving]
        exact (hw hl).2
      | false =>
        by_contra hp
        exact hn ⟨hl, hl', by simpa using hp⟩
  · cases hm with
    | serving up woken ran =>
      subst ran
      have hl : s.autoscan.listens = true := by simpa using hl'
      have hscans := Autoscan.Stage.scans_of_listens hl
      have hh := Autoscan.Stage.holdsRadio_of_scans hscans
      have hb : s.gateway.busy = true := by rw [h.busy, hh, Bool.true_or]
      obtain ⟨hp, hd⟩ := Serving.resume_spares (w := w)
        (m := (s.answered s.serving.call? w).moment setup) hb (h.scanning.trans hscans)
        (h.apart hh).2 (hw hl).2
      exact ⟨hp.trans (hw hl).1, hd⟩
  · have hl : s.autoscan.listens = true :=
      Autoscan.Stage.listens_of_call? ((hb.call setup).symm.trans
        (Autoscan.Stage.call?_of_listens hl'))
    rw [hb.serving, hb.gateway.powered]
    exact hw hl

theorem Run.watched (h : Run setup past s) (hn : ∀ t ∈ past, ¬t.Collides) : s.Watched := by
  induction h with
  | start online => exact nofun
  | step run moved ih =>
    exact run.coherent.watched (ih fun t ht => hn t (List.mem_cons_of_mem _ ht))
      (System.moved_of_move? moved) (hn _ List.mem_cons_self)

/-! ## Who switches the radio off -/

theorem Serving.Stage.call?_of_powersDown {stage : Stage} (h : stage.powersDown = true) :
    stage.call? = some .powerOff := by
  cases stage with
  | leaving s =>
    cases s with
    | poweringDown => rfl
    | _ => cases h
  | _ => cases h

theorem Serving.Stage.powersDown_of_powerOff {stage : Stage} (hh : stage.holdsRadio = false)
    (hc : stage.call? = some .powerOff) : stage.powersDown = true := by
  cases stage with
  | leaving s =>
    cases s with
    | poweringDown => rfl
    | _ => cases hc
  | clearing peer s => cases hh
  | dialling peer s => cases hh
  | unwinding e s => cases hh
  | _ => cases hc

theorem Autoscan.Stage.holdsRadio_of_powerOff {stage : Stage}
    (h : stage.call? setup = some .powerOff) : stage.holdsRadio = true := by
  cases stage with
  | sweeping s => rfl
  | _ => cases h

/-- The loop that serves switches the radio off only where nothing of a session is left. -/
theorem Serving.Stage.Fits.free_of_powerOff {g : Gateway} {stage : Stage} (h : stage.Fits g)
    (hc : stage.call? = some .powerOff) : g.Free := by
  have teardown {s : Teardown.Stage} (hs : s.Fits g) (hc : s.call? = some .powerOff) : g.Free := by
    cases s with
    | poweringDown => exact hs
    | _ => cases hc
  cases stage with
  | clearing peer s => exact teardown h.1 hc
  | dialling peer s =>
    cases s with
    | poweringDown e => exact h.1.1
    | _ => cases hc
  | unwinding e s => exact teardown h.1 hc
  | leaving s => exact teardown h.1 hc
  | _ => cases hc

/-- A stored session has the radio switched on. -/
theorem Serving.Stage.Fits.powered {g : Gateway} {stage : Stage} (h : stage.Fits g)
    (hs : g.session.isSome = true) : g.powered = true := by
  have none (hn : g.session = none) : g.powered = true := by simp [hn] at hs
  have settled (hg : g.Settled) : g.powered = true := by
    rcases hg with hf | hb
    · exact none hf.session
    · exact hb.powered
  have teardown {s : Teardown.Stage} (ht : s.Fits g) : g.powered = true := by
    cases s with
    | stopping w deadline => exact settled ht.1
    | hangingUp connection => exact none ht.session
    | poweringDown => exact none ht.session
  cases stage with
  | receiving => exact settled h.1
  | acquiring peer wasPaused giveUp deadline => exact settled h.1
  | clearing peer s => exact teardown h.1
  | dialling peer s =>
    cases s with
    | poweringUp peer => exact none h.1.session
    | poweringDown e => exact none h.1.1.session
    | calling peer deadline => exact h.1.2
    | discovering connection => exact h.1.2
    | closing connection e => exact h.1.2
  | recovering peer found s =>
    cases found with
    | ok ds => exact h.1.powered
    | error e => exact none h.1.1.session
  | subscribing peer ds name topic => exact h.1.powered
  | announcing peer characteristics message => exact h.1.powered
  | unwinding e s => exact teardown h.1
  | leaving s => exact teardown h.1
  | parting message => exact settled h.1
  | writing connection handle data => exact h.1.powered
  | reading uuid connection handle => exact h.1.powered
  | answering uuid value message => exact settled h.1
  | reporting message => exact settled h.1

theorem Serving.Stage.Fits.powered_of_dial {g : Gateway} {stage : Stage} {peer : Peer}
    (h : stage.Fits g) (hc : stage.call? = some (.dial peer)) :
    stage.holdsRadio = true ∧ g.powered = true := by
  have teardown {s : Teardown.Stage} (hc : s.call? = some (.dial peer)) : False := by
    cases s <;> cases hc
  cases stage with
  | dialling peer s =>
    cases s with
    | calling peer deadline => exact ⟨rfl, h.1.2⟩
    | _ => cases hc
  | clearing peer s => exact (teardown hc).elim
  | unwinding e s => exact (teardown hc).elim
  | leaving s => exact (teardown hc).elim
  | _ => cases hc

theorem Run.powered_of_session (h : Run setup past s) (hs : s.gateway.session.isSome = true) :
    s.gateway.powered = true ∧ .powerOff ∉ s.calls setup := by
  refine ⟨h.coherent.fits.powered hs, fun hc => ?_⟩
  have hf : s.gateway.Free := by
    rcases (h.mem_calls rfl).1 hc with hc | hc
    · exact (h.coherent.apart (Autoscan.Stage.holdsRadio_of_powerOff hc)).1
    · exact h.coherent.fits.free_of_powerOff hc
  simp [hf.session] at hs

theorem Run.powered_of_dial {peer : Peer} (h : Run setup past s)
    (hs : .dial peer ∈ s.calls setup) :
    s.gateway.powered = true ∧ .powerOff ∉ s.calls setup := by
  have hdial := ((h.mem_calls rfl).1 hs).resolve_left Autoscan.Stage.call?_ne_dial
  obtain ⟨hh, hp⟩ := h.coherent.fits.powered_of_dial hdial
  refine ⟨hp, fun hc => ?_⟩
  rcases (h.mem_calls rfl).1 hc with hc | hc
  · have := (h.coherent.apart (Autoscan.Stage.holdsRadio_of_powerOff hc)).2
    simp [hh] at this
  · rw [hdial] at hc
    cases hc

theorem Run.powered_of_scan {parameters : ScanParameters} (h : Run setup past s) (hw : s.Watched)
    (hs : .scan parameters ∈ s.calls setup) :
    s.gateway.powered = true ∧ .powerOff ∉ s.calls setup := by
  have hscan := ((h.mem_calls rfl).1 hs).resolve_right Serving.Stage.call?_ne_scan
  have hl := Autoscan.Stage.listens_of_call? hscan
  obtain ⟨hp, hd⟩ := hw hl
  refine ⟨hp, fun hc => ?_⟩
  rcases (h.mem_calls rfl).1 hc with hc | hc
  · rw [hscan] at hc
    cases hc
  · have hh := Autoscan.Stage.holdsRadio_of_scans (Autoscan.Stage.scans_of_listens hl)
    have hrest := (h.coherent.apart hh).2
    have := Serving.Stage.powersDown_of_powerOff hrest hc
    simp [hd] at this

/-- The radio is never switched off under its user exactly if no scan begins while a disconnect
command is switching it off. -/
theorem Run.powered_iff (h : Run setup past s) :
    (∀ t ∈ Run.states past s, t.Powered setup) ↔ ∀ t ∈ past, ¬t.Collides := by
  constructor
  · intro hp t ht hc
    obtain ⟨earlier, run, -⟩ := h.of_mem_states (h.after_mem_states ht)
    have hscan : .scan setup.timing.scan.parameters ∈ t.after.calls setup :=
      (run.mem_calls rfl).2 (.inl (Autoscan.Stage.call?_of_listens hc.listens))
    have hoff : .powerOff ∈ t.after.calls setup :=
      (run.mem_calls rfl).2 (.inr (Serving.Stage.call?_of_powersDown hc.powersDown))
    exact (hp _ (h.after_mem_states ht) (.inl ⟨_, hscan⟩)).2 hoff
  · intro hn t ht
    obtain ⟨earlier, run, hsuffix⟩ := h.of_mem_states ht
    have hw : t.Watched := run.watched fun u hu => hn u (hsuffix.subset hu)
    rintro (⟨parameters, hs⟩ | ⟨peer, hs⟩ | hs)
    · exact run.powered_of_scan hw hs
    · exact run.powered_of_dial hs
    · exact run.powered_of_session hs

/-- A disconnect command that comes in while a scan cycle is switching the radio off, and whose own
switching off takes until the next scan is under way. -/
def collision : List Move :=
  [.startup .signal, .startup (.reply .done), .startup (.reply .done), .startup (.reply .done),
    .startup (.reply .done), .autoscan .signal, .autoscan (.reply .done), .tick 8500,
    .autoscan .timeout, .autoscan (.reply .done), .message "ble/gateway/disconnect" [],
    .serving .signal, .autoscan (.reply .done), .autoscan (.reply .done), .autoscan .signal,
    .autoscan (.reply .done), .serving (.reply .done)]

theorem collision_unpowered : ∃ past s, Run .sample past s ∧
    .scan ⟨100, 30, true⟩ ∈ s.calls .sample ∧ s.gateway.powered = false := by
  have hm : (System.trace? .sample [] (.initial false) collision).any
      (fun (_, s) => .scan ⟨100, 30, true⟩ ∈ s.calls .sample && !s.gateway.powered) = true := by
    decide +kernel
  obtain ⟨past, s, run, hs⟩ := Run.exists_of_any hm
  exact ⟨past, s, run, by simpa using hs⟩

theorem not_always_powered : ¬∀ past s, Run .sample past s → s.Powered .sample := by
  intro h
  obtain ⟨past, s, run, hscan, hoff⟩ := collision_unpowered
  have := (h past s run (.inl ⟨_, hscan⟩)).1
  simp [hoff] at this

theorem collision_collides : ∃ past s, Run .sample past s ∧ ∃ t ∈ past, t.Collides := by
  obtain ⟨past, s, run, hscan, hoff⟩ := collision_unpowered
  refine ⟨past, s, run, ?_⟩
  by_contra hn
  have hp := run.powered_iff.2 (fun t ht hc => hn ⟨t, ht, hc⟩) s List.mem_cons_self
  have := (hp (.inl ⟨_, hscan⟩)).1
  simp [hoff] at this

end GattGateway
