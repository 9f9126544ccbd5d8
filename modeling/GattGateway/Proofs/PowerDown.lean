import GattGateway.Proofs.Connections

/-!
# The radio is switched off again

A scan, an attempt to connect and a disconnect each switch the radio off on every way to their end,
unless somebody else goes on using it. The radio that is on is therefore in use, or the last attempt
to switch it off has failed.
-/
namespace GattGateway

open Segment

/-- How an attempt to switch the radio off went, if the wait for a call ends with its answer. -/
def Wake.switchedOff? (w : Wake) (call? : Option Call) : Option (Except RadioFault Unit) :=
  match call?, w with
  | some .powerOff, .reply r => some r.radio
  | _, _ => none

/-- The radio is on only for a session or for a scan. -/
def Gateway.Warranted (g : Gateway) : Prop :=
  g.powered = true → g.session.isSome = true ∨ g.scanning = true

theorem Gateway.Warranted.of_off {g : Gateway} (h : g.powered = false) : g.Warranted := by
  intro hp
  simp [h] at hp

theorem Gateway.Warranted.recovered {m : Moment} {g g' : Gateway} (h : g.Warranted)
    (hk : Recovery.Kept m g g') : g'.Warranted := by
  rw [hk.rest]
  exact h

variable {m : Moment} {g : Gateway} {w : Wake}

/-! ## Disconnecting -/

namespace Teardown

theorem release_warranted : (release g).Ends (fun _ _ => True) fun g' _ => g'.Warranted := by
  unfold release
  dsimp only
  split_ifs with h
  · trivial
  · intro hp
    have hp : g.powered = true := hp
    have hs : g.scanning = true := by simpa [hp] using h
    exact .inr hs

theorem hangUp_warranted : (hangUp g).Ends (fun _ _ => True) fun g' _ => g'.Warranted := by
  unfold hangUp
  split
  · trivial
  · exact release_warranted

theorem stopFrom_warranted {first : Nat} :
    (stopFrom m g first).Ends (fun _ _ => True) fun g' _ => g'.Warranted := by
  unfold stopFrom
  split
  · trivial
  · exact hangUp_warranted

theorem begin_warranted : (begin m g).Ends (fun _ _ => True) fun g' _ => g'.Warranted :=
  stopFrom_warranted

/-- A teardown that ends has switched the radio off, unless a scan uses it. -/
theorem resume_warranted {s : Stage} (hw : ∀ e, w.switchedOff? s.call? ≠ some (.error e)) :
    (resume m g s w).Ends (fun _ _ => True) fun g' _ => g'.Warranted := by
  unfold resume
  split
  · exact stopFrom_warranted
  · exact stopFrom_warranted
  · exact release_warranted
  · split
    · exact .of_off rfl
    · rename_i e he
      exact absurd (congrArg some he) (hw e)
  · trivial

end Teardown

/-! ## Connecting -/

namespace Dial

theorem fail_warranted {fault : Fault} :
    (fail g fault).Ends (fun _ _ => True) fun g' _ => g'.Warranted := by
  unfold fail
  dsimp only
  split_ifs with h
  · trivial
  · have off : g.powered = false := by simpa using h
    exact .of_off off

/-- An attempt that is refused changes nothing. -/
theorem begin_warranted {peer : Peer} (h : g.Warranted) :
    (begin m g peer).Ends (fun _ _ => True) fun g' _ => g'.Warranted := by
  refine begin_bond.imp (fun _ _ _ => trivial) ?_
  rintro g' found ⟨rfl, -⟩
  exact h

/-- An attempt that ends has stored a session or switched the radio off. -/
theorem resume_warranted {s : Stage} (hw : ∀ e, w.switchedOff? s.call? ≠ some (.error e)) :
    (resume m g s w).Ends (fun _ _ => True) fun g' _ => g'.Warranted := by
  unfold resume
  split
  · split
    · trivial
    · exact fail_warranted
  · split
    · trivial
    · exact fail_warranted
  · exact fail_warranted
  · split
    · exact fun _ => .inl rfl
    · trivial
  · exact fail_warranted
  · split
    · exact .of_off rfl
    · rename_i e he
      exact absurd (congrArg some he) (hw e)
  · trivial

end Dial

namespace Serving

/-- A session is being opened. -/
def Stage.dials : Stage → Bool
  | .dialling _ _ => true
  | _ => false

/-- A session is being closed. -/
def Stage.tearsDown : Stage → Bool
  | .clearing _ _ => true
  | .unwinding _ _ => true
  | .leaving _ => true
  | _ => false

/-- The loop opens or closes a session, or leaves the radio on only where there is reason to. -/
def Accounts (g : Gateway) (stage : Stage) : Prop :=
  stage.dials = true ∨ stage.tearsDown = true ∨ g.Warranted

variable {stage : Stage}

theorem report_accounts {fault : Fault} (h : g.Warranted) :
    (report m g fault).Leads fun g' _ stage => Accounts g' stage := by
  unfold report
  rw [leads_telling]
  split
  · exact .inr (.inr h)
  · exact .inr (.inr h)

theorem send_accounts {name : TopicName} {payload : Text.Bytes} {next : Message → Stage}
    (h : g.Warranted) : (send m g name payload next).Leads fun g' _ stage => Accounts g' stage := by
  unfold send
  split
  · exact .inr (.inr h)
  · exact report_accounts h

theorem unwind_accounts {fault : Fault} {s : Segment Teardown.Stage Unit} (silent : s.events = [])
    (h : s.Ends (fun _ _ => True) fun g' _ => g'.Warranted) :
    (unwind m fault s).Leads fun g' _ stage => Accounts g' stage :=
  h.leads silent (fun _ _ _ => .inr (.inl rfl)) fun g' _ hg =>
    report_accounts (g := { g' with paused := false, busy := false }) hg

theorem abandon_accounts {fault : Fault} :
    (abandon m g fault).Leads fun g' _ stage => Accounts g' stage :=
  unwind_accounts Teardown.begin_events Teardown.begin_warranted

theorem announce_accounts {peer : Peer} {ds : List Descriptor} (h : g.Warranted) :
    (announce m g peer ds).Leads fun g' _ stage => Accounts g' stage := by
  have forwarded : (g.forwardAll ds).Warranted := by
    rw [(g.forwardAll_slots ds).1]
    exact h
  unfold announce
  dsimp only
  split
  · exact .inr (.inr forwarded)
  · exact abandon_accounts

theorem subscribeTo_accounts {peer : Peer} {ds : List Descriptor} {name : TopicName}
    (h : g.Warranted) :
    (subscribeTo m g peer ds name).Leads fun g' _ stage => Accounts g' stage := by
  unfold subscribeTo
  split
  · exact .inr (.inr h)
  · exact abandon_accounts

theorem settle_accounts {peer : Peer} {found : Dial.Result}
    {s : Segment Recovery.Stage Recovery.Outcome} (silent : s.events = [])
    (h : s.Ends (fun g' _ => g'.Warranted) fun g' _ => g'.Warranted) :
    (settle m peer found s).Leads fun g' _ stage => Accounts g' stage := by
  refine h.leads silent (fun _ _ hg => .inr (.inr hg)) fun g' outcome hg => ?_
  cases found with
  | error fault => exact abandon_accounts
  | ok ds =>
    dsimp only
    split_ifs
    · exact abandon_accounts
    · exact announce_accounts hg
    · exact subscribeTo_accounts hg

theorem dial_accounts {peer : Peer} {s : Segment Dial.Stage Dial.Result} (silent : s.events = [])
    (h : s.Ends (fun _ _ => True) fun g' _ => g'.Warranted) :
    (dial m peer s).Leads fun g' _ stage => Accounts g' stage :=
  h.leads silent (fun _ _ _ => .inl rfl) fun _ _ hg =>
    settle_accounts Recovery.poll_events (Recovery.begin_ends.imp (fun _ _ hk => hg.recovered hk)
      fun _ _ hk => hg.recovered hk)

theorem clear_accounts {peer : Peer} {s : Segment Teardown.Stage Unit} (silent : s.events = [])
    (h : s.Ends (fun _ _ => True) fun g' _ => g'.Warranted) :
    (clear m peer s).Leads fun g' _ stage => Accounts g' stage :=
  h.leads silent (fun _ _ _ => .inr (.inl rfl)) fun g' _ hg =>
    dial_accounts Dial.begin_events (Dial.begin_warranted (g := { g' with ready := false }) hg)

theorem acquire_accounts {peer : Peer} {wasPaused : Bool} {giveUp : Instant} (h : g.Warranted) :
    (acquire m g peer wasPaused giveUp).Leads fun g' _ stage => Accounts g' stage := by
  unfold acquire
  split_ifs
  · exact clear_accounts Teardown.begin_events Teardown.begin_warranted
  · exact report_accounts (g := { g with paused := wasPaused }) h
  · exact .inr (.inr h)

theorem leave_accounts {s : Segment Teardown.Stage Unit} (silent : s.events = [])
    (h : s.Ends (fun _ _ => True) fun g' _ => g'.Warranted) :
    (leave m s).Leads fun g' _ stage => Accounts g' stage :=
  h.leads silent (fun _ _ _ => .inr (.inl rfl)) fun g' _ hg =>
    send_accounts (g := { g' with valueTopics := false, paused := false }) hg

theorem dispatch_accounts {r : Request} (h : g.Warranted) :
    (dispatch m g r).Leads fun g' _ stage => Accounts g' stage := by
  unfold dispatch
  split
  · exact .inr (.inr h)
  · rename_i command hcommand
    cases command with
    | connect peer => exact acquire_accounts (g := { g with paused := true }) h
    | disconnect => exact leave_accounts Teardown.begin_events Teardown.begin_warranted
    | write uuid data =>
      simp only [handle]
      split
      · exact .inr (.inr h)
      · exact .inr (.inr h)
    | read uuid =>
      simp only [handle]
      split
      · exact .inr (.inr h)
      · exact send_accounts h
  · exact report_accounts h

/-- Whatever the loop does, it does not leave the radio on without a reason, unless the radio fails
to switch off. -/
theorem resume_accounts (h : Accounts g stage)
    (hw : ∀ e, w.switchedOff? stage.call? ≠ some (.error e)) :
    (resume m g stage w).Leads fun g' _ stage' => Accounts g' stage' := by
  -- Where no session is being opened or closed there is reason for the power before.
  have rested (hd : stage.dials = false) (ht : stage.tearsDown = false) : g.Warranted := by
    simpa [Accounts, hd, ht] using h
  cases stage with
  | receiving =>
    cases w with
    | signal =>
      simp only [resume]
      split
      · exact dispatch_accounts (rested rfl rfl)
      · exact h
    | reply r => exact h
    | timeout => exact h
  | acquiring peer wasPaused giveUp deadline =>
    cases w with
    | timeout => exact acquire_accounts (rested rfl rfl)
    | signal => exact h
    | reply r => exact h
  | clearing peer s => exact clear_accounts Teardown.resume_events (Teardown.resume_warranted hw)
  | dialling peer s => exact dial_accounts Dial.resume_events (Dial.resume_warranted hw)
  | recovering peer found s =>
    have hg := rested rfl rfl
    exact settle_accounts Recovery.resume_events (Recovery.resume_ends.imp
      (fun _ _ hk => hg.recovered hk) fun _ _ hk => hg.recovered hk)
  | subscribing peer ds name topic =>
    cases w with
    | reply r =>
      simp only [resume]
      split
      · split_ifs
        · exact subscribeTo_accounts (rested rfl rfl)
        · exact announce_accounts (g := { g with valueTopics := true }) (rested rfl rfl)
      · exact abandon_accounts
    | signal => exact h
    | timeout => exact h
  | announcing peer characteristics message =>
    cases w with
    | reply r =>
      simp only [resume]
      split
      · exact .inr (.inr (rested rfl rfl))
      · exact abandon_accounts
    | signal => exact h
    | timeout => exact h
  | unwinding fault s => exact unwind_accounts Teardown.resume_events (Teardown.resume_warranted hw)
  | leaving s => exact leave_accounts Teardown.resume_events (Teardown.resume_warranted hw)
  | parting message | writing connection handle data | reading uuid connection handle
  | answering uuid value message | reporting message =>
    have hg := rested rfl rfl
    exact resume_single rfl h (fun _ => .inr (.inr hg)) (fun _ => report_accounts hg)
      fun _ _ => send_accounts hg

end Serving

/-! ## Scanning -/

namespace Sweep

theorem close_off {heard : Except RadioFault Collector} :
    (close g heard).Ends (fun _ _ => True) fun g' _ => g'.powered = false := by
  unfold close
  dsimp only
  split_ifs with h
  · trivial
  · simpa using h

/-- A scan that is refused changes nothing. -/
theorem begin_off : (begin m g).Ends (fun _ _ => True) fun g' _ => g' = g := by
  unfold begin
  dsimp only
  split_ifs
  · rfl
  · trivial
  · trivial

/-- A scan that ends has switched the radio off. -/
theorem resume_off {setup : Setup} {s : Stage}
    (hw : ∀ e, w.switchedOff? (s.call? setup) ≠ some (.error e)) :
    (resume m g s w).Ends (fun _ _ => True) fun g' _ => g'.powered = false := by
  unfold resume
  split
  · split
    · trivial
    · exact close_off
  · trivial
  · trivial
  · exact close_off
  · split
    · exact rfl
    · rename_i e he
      exact absurd (congrArg some he) (hw e)
  · trivial

end Sweep

namespace Autoscan

/-- A scan is in progress, from the moment at which it takes the radio until that has been switched
off. -/
def Stage.sweeps : Stage → Bool
  | .sweeping _ => true
  | _ => false

/-- The loop scans, or leaves the radio on only where there is some other reason to. -/
def Accounts (reason : Prop) (g : Gateway) (stage : Stage) : Prop :=
  stage.sweeps = true ∨ (g.powered = true → reason)

/-- A loop that scans asks the radio for something. -/
theorem Stage.sweeps_iff {setup : Setup} {stage : Stage} :
    stage.sweeps = true ↔ ∃ c, stage.call? setup = some c ∧ c.isRadioUse = true := by
  constructor
  · intro hs
    cases stage with
    | sweeping s => cases s <;> exact ⟨_, rfl, rfl⟩
    | _ => cases hs
  · rintro ⟨c, hc, hr⟩
    cases stage with
    | sweeping s => rfl
    | publishing message devices =>
      cases hc
      cases hr
    | reporting message =>
      cases hc
      cases hr
    | _ => cases hc

theorem Stage.sweeps_of_scans {stage : Stage} (h : stage.scans = true) : stage.sweeps = true := by
  cases stage with
  | sweeping s => rfl
  | _ => cases h

variable {reason : Prop} {stage : Stage}

theorem report_accounts {fault : Fault} (h : g.powered = true → reason) :
    (report m g fault).Leads fun g' _ stage => Accounts reason g' stage := by
  unfold report
  dsimp only
  rw [leads_telling]
  split
  · exact .inr h
  · exact .inr h

theorem publish_accounts {found : Sweep.Result} (h : g.powered = true → reason) :
    (publish m g found).Leads fun g' _ stage => Accounts reason g' stage := by
  cases found with
  | error fault => exact report_accounts h
  | ok ds =>
    simp only [publish]
    split
    · exact .inr h
    · exact report_accounts h

theorem recover_accounts {found : Sweep.Result} {s : Segment Recovery.Stage Recovery.Outcome}
    (silent : s.events = []) (h : g.powered = true → reason)
    (hs : s.Ends (fun g' _ => Recovery.Kept m g g') fun g' _ => Recovery.Kept m g g') :
    (recover m found s).Leads fun g' _ stage => Accounts reason g' stage := by
  have kept {g' : Gateway} (hk : Recovery.Kept m g g') : g'.powered = true → reason := by
    rw [hk.rest]
    exact h
  exact hs.leads silent (fun _ _ hk => .inr (kept hk)) fun _ _ hk => publish_accounts (kept hk)

theorem sweep_accounts {s : Segment Sweep.Stage Sweep.Result} (silent : s.events = [])
    (h : s.Ends (fun _ _ => True) fun g' _ => g'.powered = true → reason) :
    (sweep m s).Leads fun g' _ stage => Accounts reason g' stage :=
  h.leads silent (fun _ _ _ => .inl rfl) fun _ _ hg =>
    recover_accounts Recovery.poll_events hg Recovery.begin_ends

theorem consider_accounts (h : g.powered = true → reason) :
    (consider m g).Leads fun g' _ stage => Accounts reason g' stage := by
  unfold consider
  split_ifs
  · exact .inr h
  · exact .inr h
  · exact .inr h
  · unfold start
    rw [leads_telling]
    refine sweep_accounts Sweep.begin_events (Sweep.begin_off.imp (fun _ _ _ => trivial) ?_)
    rintro g' found rfl
    exact h

/-- Whatever the loop does, it does not leave the radio on by itself, unless the radio fails to
switch off. -/
theorem resume_accounts {setup : Setup} (h : Accounts reason g stage)
    (hw : ∀ e, w.switchedOff? (stage.call? setup) ≠ some (.error e)) :
    (resume m g stage w).Leads fun g' _ stage' => Accounts reason g' stage' := by
  have rested (hs : stage.sweeps = false) : g.powered = true → reason := by
    simpa [Accounts, hs] using h
  unfold resume
  split
  · exact consider_accounts (rested rfl)
  · exact consider_accounts (rested rfl)
  · refine sweep_accounts Sweep.resume_events ((Sweep.resume_off hw).imp (fun _ _ _ => trivial) ?_)
    intro g' found off hp
    simp [off] at hp
  · exact recover_accounts Recovery.resume_events (rested rfl) Recovery.resume_ends
  · split
    · exact .inr (rested rfl)
    · exact report_accounts (rested rfl)
  · exact .inr (rested rfl)
  · exact h

end Autoscan

/-! ## Every state of a run -/

/-- A scan, an attempt to connect or a disconnect is in progress, or a session is stored. -/
def System.Occupied (s : System) : Prop :=
  s.autoscan.sweeps = true ∨ s.serving.dials = true ∨ s.gateway.session.isSome = true ∨
    s.serving.tearsDown = true

instance : DecidablePred System.Occupied := fun _ => inferInstanceAs (Decidable (_ ∨ _))

/-- How the attempt to switch the radio off went that ends in a step. -/
def Step.switchedOff? (setup : Setup) (t : Step) : Option (Except RadioFault Unit) :=
  t.move.wake?.bind (·.switchedOff? ((t.move.strand? t.before).bind (·.call? setup)))

variable {setup : Setup} {past : List Step} {s s' : System} {move : Move} {told : List Event}

theorem powerOff_of_switchedOff? {call? : Option Call} {r : Except RadioFault Unit}
    (h : w.switchedOff? call? = some r) : call? = some .powerOff := by
  unfold Wake.switchedOff? at h
  split at h
  · rfl
  · cases h

/-- Who switches the radio off has it in use. -/
theorem Serving.Stage.engages_of_powerOff {stage : Stage} (h : stage.call? = some .powerOff) :
    stage.dials = true ∨ stage.tearsDown = true := by
  cases stage with
  | dialling peer s => exact .inl rfl
  | clearing peer s => exact .inr rfl
  | unwinding fault s => exact .inr rfl
  | leaving s => exact .inr rfl
  | _ => cases h

/-- The radio is switched off by one of the two loops. -/
theorem System.Publishes.occupied (h : s.Publishes)
    (hc : (move.strand? s).bind (·.call? setup) = some .powerOff) : s.Occupied := by
  rcases h.loop_of_isRadioUse hc rfl with ⟨w, rfl⟩ | ⟨w, rfl⟩
  · exact .inl (Autoscan.Stage.sweeps_iff.2 ⟨_, hc, rfl⟩)
  · rcases Serving.Stage.engages_of_powerOff hc with hd | ht
    · exact .inr (.inl hd)
    · exact .inr (.inr (.inr ht))

/-- Unless the radio fails to switch off in a step, it is not left on in it. -/
theorem System.Coherent.occupied (h : s.Coherent) (h' : s'.Coherent)
    (hp : s.gateway.powered = true → s.Occupied) (hm : Moved setup s move s' told)
    (hw : ∀ e, Step.switchedOff? setup ⟨s, move, told, s'⟩ ≠ some (.error e)) :
    s'.gateway.powered = true → s'.Occupied := by
  rcases hm.loop_or_beside with ⟨w, rfl⟩ | ⟨w, rfl⟩ | hb
  · obtain ⟨serving, hk⟩ := h.autoscan_kept hm
    obtain ⟨session, -⟩ := hk.idles
    have occupied : Autoscan.Accounts (s.serving.dials = true ∨ s.gateway.session.isSome = true ∨
        s.serving.tearsDown = true) s.gateway s.autoscan := by
      by_cases hs : s.autoscan.sweeps = true
      · exact .inl hs
      · exact .inr fun on => (hp on).resolve_left hs
    have accounts := Autoscan.resume_accounts (m := s.moment setup) occupied hw
    intro on
    unfold Occupied
    rw [serving, session]
    cases hm with
    | autoscan up woken ran =>
      subst ran
      rcases accounts with hs | hs
      · exact .inl hs
      · exact .inr (hs on)
  · by_cases hs : s.autoscan.sweeps = true
    · intro _
      left
      cases hm with
      | serving up woken ran => simpa using hs
    · have occupied : Serving.Accounts s.gateway s.serving := by
        by_cases hd : s.serving.dials = true
        · exact .inl hd
        · by_cases ht : s.serving.tearsDown = true
          · exact .inr (.inl ht)
          · refine .inr (.inr fun on => .inl ?_)
            simpa [Occupied, hs, hd, ht] using hp on
      have accounts := Serving.resume_accounts
        (m := (s.answered s.serving.call? w).moment setup) occupied hw
      intro on
      cases hm with
      | serving up woken ran =>
        subst ran
        rcases accounts with hd | ht | hg
        · exact .inr (.inl hd)
        · exact .inr (.inr (.inr ht))
        · rcases hg on with hs | hs
          · exact .inr (.inr (.inl hs))
          · exact .inl (Autoscan.Stage.sweeps_of_scans (h'.scanning.symm.trans hs))
  · have sweeps (hs : s.autoscan.sweeps = true) : s'.autoscan.sweeps = true := by
      obtain ⟨c, hc, hr⟩ := (@Autoscan.Stage.sweeps_iff setup s.autoscan).1 hs
      exact Autoscan.Stage.sweeps_iff.2 ⟨c, (hb.call setup).trans hc, hr⟩
    intro on
    unfold Occupied
    rw [hb.serving, hb.gateway.session]
    exact (hp (hb.gateway.powered.symm.trans on)).imp_left sweeps

/-- The attempt to switch the radio off that ended last has failed. -/
def LeftOn (setup : Setup) (past : List Step) : Prop :=
  ∃ e, past.findSome? (·.switchedOff? setup) = some (.error e)

/-- The radio that is on is in use, or could not be switched off. It is off while nothing is in
progress, no session is stored and no attempt to switch it off has failed. -/
theorem Run.powered_accounted (h : Run setup past s) :
    (s.gateway.powered = true → s.Occupied ∨ LeftOn setup past) ∧
    (¬s.Occupied → (∀ t ∈ past, ∀ e, t.switchedOff? setup ≠ some (.error e)) →
      s.gateway.powered = false) := by
  have accounted : s.gateway.powered = true → s.Occupied ∨ LeftOn setup past := by
    induction h with
    | start online => nofun
    | @step past s s' move told run moved ih =>
      have hm := System.moved_of_move? moved
      intro on
      cases ht : Step.switchedOff? setup ⟨s, move, told, s'⟩ with
      | none =>
        by_cases hl : LeftOn setup past
        · obtain ⟨e, he⟩ := hl
          exact .inr ⟨e, by rw [List.findSome?_cons, ht, he]⟩
        · exact .inl (run.coherent.occupied (run.step moved).coherent
            (fun on => (ih on).resolve_right hl) hm (by simp [ht]) on)
      | some r =>
        cases r with
        | error e => exact .inr ⟨e, by rw [List.findSome?_cons, ht]⟩
        | ok _ =>
          obtain ⟨w, -, hc⟩ := Option.bind_eq_some_iff.1 ht
          have occupied := run.publishes.occupied (powerOff_of_switchedOff? hc)
          exact .inl (run.coherent.occupied (run.step moved).coherent (fun _ => occupied) hm
            (by simp [ht]) on)
  refine ⟨accounted, fun hidle hoff => ?_⟩
  by_contra on
  rcases accounted (by simpa using on) with ho | ⟨e, he⟩
  · exact hidle ho
  · obtain ⟨t, ht, hte⟩ := List.exists_of_findSome?_eq_some he
    exact hoff t ht e hte

/-- A scan after which the radio is switched off with this reply. -/
def Move.scanOnce (r : Reply) : List Move :=
  bringUp ++ [.autoscan .signal, .autoscan (.reply .done), .autoscan (.reply .done),
    .autoscan (.reply .done), .autoscan (.reply r)]

/-- After one scan the radio does not switch off, and after another it does. -/
theorem powered_accounted_after_scans :
    (∃ past s, Run .sample past s ∧ s.gateway.powered = true ∧ ¬s.Occupied ∧
      LeftOn .sample past) ∧
    ∃ past s, Run .sample past s ∧ s.gateway.lastScan.isSome = true ∧ ¬s.Occupied ∧
      s.gateway.powered = false := by
  constructor
  · have hm : (System.trace? .sample [] (.initial false)
        (Move.scanOnce (.radioFault .activation))).any
        (fun (_, s) => s.gateway.powered && !decide s.Occupied) = true := by
      decide +kernel
    obtain ⟨past, s, run, hs⟩ := Run.exists_of_any hm
    obtain ⟨on, idle⟩ : s.gateway.powered = true ∧ ¬s.Occupied := by simpa using hs
    exact ⟨past, s, run, on, idle, (run.powered_accounted.1 on).resolve_left idle⟩
  · have hm : (System.trace? .sample [] (.initial false) (Move.scanOnce .done)).any
        (fun (past, s) => s.gateway.lastScan.isSome && !decide s.Occupied &&
          past.all fun t => (t.switchedOff? .sample).all (·.toBool)) = true := by
      decide +kernel
    obtain ⟨past, s, run, hs⟩ := Run.exists_of_any hm
    obtain ⟨⟨scanned, idle⟩, off⟩ : (s.gateway.lastScan.isSome = true ∧ ¬s.Occupied) ∧
        ∀ t ∈ past, (t.switchedOff? .sample).all (·.toBool) = true := by simpa using hs
    refine ⟨past, s, run, scanned, idle, run.powered_accounted.2 idle fun t ht e he => ?_⟩
    have := off t ht
    simp [he, Except.toBool] at this

end GattGateway
