import GattGateway.Proofs.Engagement
import GattGateway.Proofs.RadioExclusion
import GattGateway.Proofs.RadioPower

/-!
# Connections to peers

The radio returns connections and closes them. Whatever fails on the way, every connection that it
has returned is passed to it once to be closed, in the order in which they came, and before it is
asked to dial, to scan or to switch off. Between two commands the only open connection is that of
the session.
-/
namespace GattGateway

open Segment

/-- The connection that is returned when the wait for a call ends. -/
def Wake.obtained? (w : Wake) (call? : Option Call) : Option Connection :=
  match call?, w with
  | some (.dial _), .reply r => r.dialled.toOption
  | _, _ => none

/-- The connection that a call closes. -/
def hungUp? (call? : Option Call) : Option Connection :=
  match call? with
  | some (.hangUp c) => some c
  | _ => none

/-! ## What is under way -/

def Engagement.call? : Engagement → Option Call
  | .opening s => s.call?
  | .closing s => s.call?
  | .settling => none

/-- The connection of the session. -/
def Gateway.connection? (g : Gateway) : Option Connection := g.session.map (·.connection)

/-- The open connection: that of the session, or the one whose characteristics are discovered. -/
def Gateway.held (g : Gateway) : Option Engagement → Option Connection
  | some (.opening (.discovering c)) => some c
  | _ => g.connection?

theorem Gateway.connection?_eq_none {g : Gateway} (h : g.session = none) :
    g.connection? = none := by
  rw [connection?, h]
  rfl

/-- Each of the connections is either held or about to be closed. -/
def Disposes (cs : List Connection) (g : Gateway) (e : Option Engagement) : Prop :=
  cs = (g.held e).toList ++ (hungUp? (e.bind (·.call?))).toList

section

variable {m : Moment} {w : Wake} {g g' : Gateway} {e e' : Option Engagement}

theorem Disposes.of_held {cs : List Connection} (h : cs = (g.held e).toList)
    (hc : hungUp? (e.bind (·.call?)) = none) : Disposes cs g e := by
  rw [Disposes, hc, h]
  exact (List.append_nil _).symm

theorem Disposes.of_hungUp {c : Connection} (h : g.held e = none)
    (hc : hungUp? (e.bind (·.call?)) = some c) : Disposes [c] g e := by
  rw [Disposes, hc, h]
  rfl

theorem Disposes.of_none (hs : g.session = none) (he : g.held e = g.connection?)
    (hc : hungUp? (e.bind (·.call?)) = none) : Disposes [] g e :=
  .of_held (by rw [he, Gateway.connection?_eq_none hs]; rfl) hc

theorem Resting.obtained? (h : Resting e) : w.obtained? (e.bind (·.call?)) = none := by
  rcases h with rfl | rfl <;> rfl

theorem Resting.hungUp? (h : Resting e) : hungUp? (e.bind (·.call?)) = none := by
  rcases h with rfl | rfl <;> rfl

theorem Resting.held_eq (h : Resting e) : g.held e = g.connection? := by
  rcases h with rfl | rfl <;> rfl

/-- A strand that rests holds the connection of the session. -/
theorem Resting.disposes (h : Resting e) {cs : List Connection}
    (hs : cs = g.connection?.toList) : Disposes cs g e :=
  .of_held (by rw [h.held_eq, hs]) h.hungUp?

/-- A teardown that has closed the connection, or had none to close. -/
theorem Teardown.disposes_of_last {next : Option Stage}
    (last : next = some .poweringDown ∨ next = none) (rests : Resting e) :
    Disposes g.connection?.toList g ((next.map .closing).or e) := by
  rcases last with rfl | rfl
  · exact .of_held rfl rfl
  · exact rests.disposes rfl

theorem Teardown.Stops.disposes {first : Nat} {next : Option Stage} (h : Stops g first g' next)
    (rests : Resting e) :
    Disposes g.connection?.toList g' ((next.map .closing).or e) := by
  cases h with
  | stops forwarding before => exact .of_held rfl rfl
  | hangsUp session quiet =>
    rw [Gateway.connection?, session]
    exact .of_hungUp rfl rfl
  | releases session last =>
    exact disposes_of_last (g := { g with peerLink := .disconnected }) last rests

theorem Woken.reply (h : Woken false none w) : ∃ r, w = .reply r := by
  cases w with
  | signal => cases h.signal rfl
  | reply r => exact ⟨r, rfl⟩
  | timeout => cases (h.timeout rfl).2

theorem Teardown.resume_disposes {s : Stage} (woken : Woken (s.signalled g) s.deadline? w) :
    Disposes g.connection?.toList (resume m g s w).gateway
      ((resume m g s w).engagement? .closing (some .settling)) := by
  have settles : Resting (some .settling) := .inr rfl
  have resumes : Resumes g s w (resume m g s w).gateway (resume m g s w).turn.stage? :=
    resume_resumes
  generalize resume m g s w = segment at resumes ⊢
  rw [Segment.engagement?]
  generalize segment.gateway = g', segment.turn.stage? = next at resumes ⊢
  cases resumes with
  | waits unanswered =>
    cases s with
    | stopping v deadline => exact .of_held rfl rfl
    | poweringDown => exact .of_held rfl rfl
    | hangingUp connection =>
      obtain ⟨r, rfl⟩ := woken.reply
      exact absurd rfl (unanswered connection r rfl)
  | stopped rest => exact rest.disposes settles
  | late rest => exact rest.disposes settles
  | hungUp last =>
    exact disposes_of_last (g := { g with peerLink := .disconnected }) last settles
  | off powered => exact settles.disposes rfl

theorem Dial.fail_disposes {fault : Fault} (hs : g.session = none) :
    (fail g fault).Ends (fun g' s => Disposes [] g' (some (.opening s)))
      fun g' _ => Disposes [] g' (some .settling) := by
  unfold fail
  dsimp only
  split_ifs
  · exact .of_none hs rfl rfl
  · exact .of_none hs rfl rfl

theorem Dial.begin_disposes {peer : Peer} (rests : Resting e) :
    Disposes g.connection?.toList (begin m g peer).gateway
      ((begin m g peer).engagement? .opening e) := by
  unfold begin
  dsimp only
  split_ifs
  · exact rests.disposes rfl
  · exact .of_held rfl rfl
  · exact .of_held rfl rfl

/-- An attempt holds the connection that it obtains until the session does, or closes it. -/
theorem Dial.resume_disposes {s : Stage} {cs : List Connection} (hs : g.session = none)
    (woken : Woken false s.deadline? w)
    (hc : cs = (w.obtained? s.call?).toList ++ (g.held (some (.opening s))).toList) :
    (resume m g s w).Ends (fun g' s' => Disposes cs g' (some (.opening s')))
      fun g' _ => Disposes cs g' (some .settling) := by
  have nothing := Gateway.connection?_eq_none hs
  have free : [] = g.connection?.toList := by rw [nothing]; rfl
  cases s with
  | poweringUp peer =>
    obtain ⟨r, rfl⟩ := woken.reply
    obtain rfl : cs = [] := hc.trans free.symm
    simp only [resume]
    split
    · exact .of_none hs rfl rfl
    · exact fail_disposes hs
  | calling peer deadline =>
    cases w with
    | signal => cases woken.signal rfl
    | timeout =>
      obtain rfl : cs = [] := hc.trans free.symm
      exact fail_disposes hs
    | reply r =>
      simp only [resume, Wake.obtained?, Stage.call?] at hc ⊢
      cases hr : r.dialled with
      | ok c =>
        obtain rfl : cs = [c] := by
          rw [hc, hr]
          exact congrArg _ free.symm
        exact .of_held rfl rfl
      | error fault =>
        obtain rfl : cs = [] := by
          rw [hc, hr]
          exact free.symm
        exact fail_disposes hs
  | discovering c =>
    obtain ⟨r, rfl⟩ := woken.reply
    obtain rfl : cs = [c] := hc
    simp only [resume]
    split
    · exact .of_held rfl rfl
    · exact .of_hungUp nothing rfl
  | closing c fault =>
    obtain ⟨r, rfl⟩ := woken.reply
    obtain rfl : cs = [] := hc.trans free.symm
    exact fail_disposes hs
  | poweringDown fault =>
    obtain ⟨r, rfl⟩ := woken.reply
    obtain rfl : cs = [] := hc.trans free.symm
    simp only [resume]
    split
    · exact .of_none hs rfl rfl
    · exact .of_none hs rfl rfl

/-- The connections that a strand has to account for when it is woken: the one that it obtains then
and the one that is held. -/
def accounts (w : Wake) (g : Gateway) (e : Option Engagement) : List Connection :=
  (w.obtained? (e.bind (·.call?))).toList ++ (g.held e).toList

theorem Resting.accounts (h : Resting e) :
    accounts w g e = g.connection?.toList := by
  rw [GattGateway.accounts, h.obtained?, h.held_eq]
  rfl

theorem Teardown.accounts {s : Stage} :
    accounts w g (some (.closing s)) = g.connection?.toList := by
  cases s <;> rfl

/-- Whatever a strand does, no connection is lost and none is closed twice. -/
theorem Acts.disposes (h : Acts m w g e g' e')
    (hs : ∀ s, e = some (.opening s) → g.session = none) : Disposes (accounts w g e) g' e' := by
  induction h with
  | aside rests ha =>
    rw [rests.accounts, Gateway.connection?, ← ha.session]
    exact rests.disposes rfl
  | opens peer rests =>
    rw [rests.accounts]
    exact Dial.begin_disposes rests
  | opensOn s woken => exact (Dial.resume_disposes (hs s rfl) woken rfl).engagement?
  | closes rests =>
    rw [rests.accounts]
    exact Teardown.stopFrom_stops.disposes rests
  | closesOn s woken =>
    rw [Teardown.accounts]
    exact Teardown.resume_disposes woken
  | @forwards g g' uuid forwarded =>
    obtain ⟨worker, sub, -, rfl⟩ := Gateway.forward?_eq_some forwarded
    exact .of_held rfl rfl
  | retires => exact .of_held rfl rfl
  | @seq g₀ g₁ g₂ e₀ e₁ e₂ first rests rest ih₁ ih₂ =>
    have carried : accounts w g₀ e₀ = accounts w g₁ e₁ := by
      rw [ih₁ hs, rests.hungUp?, rests.held_eq, rests.accounts]
      exact List.append_nil _
    rw [carried]
    apply ih₂
    rintro s rfl
    obtain ⟨⟨⟩⟩ | ⟨⟨⟩⟩ := rests

theorem Reaches.disposes (h : Reaches m w g e g' e')
    (hs : ∀ s, e = some (.opening s) → g.session = none) : Disposes (accounts w g e) g' e' := by
  rcases h with h | ⟨rfl, h⟩
  · exact h.disposes hs
  · exact h.disposes hs

end

/-! ## What the radio is asked for -/

/-- The strand that a move resumes, as it stands in some state. -/
def Move.strand? (s : System) : Move → Option Strand
  | .startup _ => s.startup.map .startup
  | .autoscan _ => some (.autoscan s.autoscan)
  | .serving _ => some (.serving s.serving)
  | .worker i _ => some (.worker i .broker (s.workers i))
  | .greeting i _ => s.greetings[i]?.map fun stage => .errand 0 (.greeting stage)
  | _ => none

def Move.wake? : Move → Option Wake
  | .startup w => some w
  | .autoscan w => some w
  | .serving w => some w
  | .worker _ w => some w
  | .greeting _ w => some w
  | _ => none

namespace Step

variable (setup : Setup) (t : Step)

/-- The connection that the radio returns in a step. -/
def obtained? : Option Connection :=
  t.move.wake?.bind (·.obtained? ((t.move.strand? t.before).bind (·.call? setup)))

/-- The connection that the radio is asked to close in a step, by the call with which the strand
goes on that the step resumes. -/
def hungUp? : Option Connection :=
  GattGateway.hungUp? ((t.move.strand? t.after).bind (·.call? setup))

end Step

/-- The connections that the radio has returned, the latest first. -/
def obtained (setup : Setup) (past : List Step) : List Connection :=
  past.filterMap (·.obtained? setup)

/-- The connections that the radio has been asked to close, the latest first. -/
def hungUp (setup : Setup) (past : List Step) : List Connection :=
  past.filterMap (·.hungUp? setup)

/-- A use of the radio that allows no connection beside it. -/
def Call.isLone : Call → Bool
  | .dial _ => true
  | .scan _ => true
  | .powerOff => true
  | _ => false

variable {setup : Setup} {past : List Step} {s s' : System} {m : Move} {w : Wake} {c : Call}
  {told : List Event}

theorem obtained_cons (t : Step) :
    obtained setup (t :: past) = (t.obtained? setup).toList ++ obtained setup past := by
  cases h : t.obtained? setup <;> simp [obtained, h]

theorem hungUp_cons (t : Step) :
    hungUp setup (t :: past) = (t.hungUp? setup).toList ++ hungUp setup past := by
  cases h : t.hungUp? setup <;> simp [hungUp, h]

theorem Serving.Stage.obtained?_engagement (stage : Stage) :
    w.obtained? (stage.engagement?.bind (·.call?)) = w.obtained? stage.call? := by
  cases stage <;> rfl

theorem Serving.Stage.hungUp?_engagement (stage : Stage) :
    GattGateway.hungUp? (stage.engagement?.bind (·.call?)) = GattGateway.hungUp? stage.call? := by
  cases stage <;> rfl

theorem dial_of_obtained? {call? : Option Call} {c : Connection} (h : w.obtained? call? = some c) :
    ∃ peer, call? = some (.dial peer) := by
  unfold Wake.obtained? at h
  split at h
  · exact ⟨_, rfl⟩
  · cases h

theorem hangUp_of_hungUp? {call? : Option Call} {c : Connection} (h : hungUp? call? = some c) :
    call? = some (.hangUp c) := by
  unfold hungUp? at h
  split at h
  · cases h
    rfl
  · cases h

/-- Only the two loops use the radio. -/
theorem System.Publishes.loop_of_isRadioUse (h : s.Publishes)
    (hc : (m.strand? s).bind (·.call? setup) = some c) (hr : c.isRadioUse = true) :
    (∃ w, m = .autoscan w) ∨ ∃ w, m = .serving w := by
  have aside (hn : c.isRadioUse = false) : (∃ w, m = .autoscan w) ∨ ∃ w, m = .serving w := by
    rw [hr] at hn
    cases hn
  cases m with
  | autoscan w => exact .inl ⟨w, rfl⟩
  | serving w => exact .inr ⟨w, rfl⟩
  | worker i w => exact aside ((h i).isRadioUse hc)
  | startup w =>
    obtain ⟨strand, hs, hc⟩ := Option.bind_eq_some_iff.1 hc
    obtain ⟨stage, -, rfl⟩ := Option.map_eq_some_iff.1 hs
    exact aside (Startup.isRadioUse hc)
  | greeting i w =>
    obtain ⟨strand, hs, hc⟩ := Option.bind_eq_some_iff.1 hc
    obtain ⟨stage, -, rfl⟩ := Option.map_eq_some_iff.1 hs
    exact aside (Greeting.isRadioUse hc)
  | _ => cases hc

/-- Only the serving loop makes calls that belong to a session. -/
theorem System.Publishes.serving_of_engages (h : s.Publishes)
    (hc : (m.strand? s).bind (·.call? setup) = some c) (he : c.engages = true) :
    ∃ w, m = .serving w := by
  rcases h.loop_of_isRadioUse hc (Call.isRadioUse_of_engages he) with ⟨w, rfl⟩ | hs
  · rw [Autoscan.Stage.engages_of_call? hc] at he
    cases he
  · exact hs

theorem Serving.Stage.Fits.opening {g : Gateway} {stage : Stage} (h : stage.Fits g)
    {d : Dial.Stage} (he : stage.engagement? = some (.opening d)) : g.session = none := by
  cases stage with
  | dialling peer d => exact h.1.session
  | _ => cases he

/-- What a step obtains and what was held is held after it, or is hung up in it. -/
theorem System.Coherent.disposes (h : s.Coherent) (hp : s.Publishes) (hp' : s'.Publishes)
    (hm : Moved setup s m s' told) :
    (Step.obtained? setup ⟨s, m, told, s'⟩).toList ++
        (s.gateway.held s.serving.engagement?).toList =
      (s'.gateway.held s'.serving.engagement?).toList ++
        (Step.hungUp? setup ⟨s, m, told, s'⟩).toList := by
  by_cases hs : ∃ w, m = .serving w
  · obtain ⟨w, rfl⟩ := hs
    cases hm with
    | serving up woken ran =>
      subst ran
      have reaches := Serving.resume_reaches
        (m := (s.answered s.serving.call? w).moment setup) (woken_of_wakes woken)
      have disposes := Reaches.disposes reaches fun d hd => h.fits.opening hd
      rw [accounts, Serving.Stage.obtained?_engagement, Disposes,
        Serving.Stage.hungUp?_engagement] at disposes
      exact disposes
  · obtain ⟨same, session, -⟩ := (h.serving_or_idles hm).resolve_left hs
    have obtains : Step.obtained? setup ⟨s, m, told, s'⟩ = none := by
      by_contra hn
      obtain ⟨c, hc⟩ := Option.ne_none_iff_exists'.1 hn
      obtain ⟨w, hw, hc⟩ := Option.bind_eq_some_iff.1 hc
      obtain ⟨peer, hc⟩ := dial_of_obtained? hc
      exact hs (hp.serving_of_engages hc rfl)
    have hangsUp : Step.hungUp? setup ⟨s, m, told, s'⟩ = none := by
      by_contra hn
      obtain ⟨c, hc⟩ := Option.ne_none_iff_exists'.1 hn
      exact hs (hp'.serving_of_engages (hangUp_of_hungUp? hc) rfl)
    have held : s'.gateway.held s'.serving.engagement? = s.gateway.held s.serving.engagement? := by
      simp only [same, Gateway.held, Gateway.connection?, session]
    rw [obtains, hangsUp, held]
    exact (List.append_nil _).symm

/-- Of the connections obtained all have been hung up but the one that is held. -/
theorem Run.obtained_eq (h : Run setup past s) :
    obtained setup past =
      (s.gateway.held s.serving.engagement?).toList ++ hungUp setup past := by
  induction h with
  | start online => rfl
  | step run moved ih =>
    have disposes := run.coherent.disposes run.publishes (run.step moved).publishes
      (System.moved_of_move? moved)
    rw [obtained_cons, hungUp_cons, ih, ← List.append_assoc, disposes, List.append_assoc]

/-! ## Uses of the radio without a connection -/

theorem Call.isRadioUse_of_isLone (h : c.isLone = true) : c.isRadioUse = true := by
  cases c with
  | dial peer => rfl
  | scan parameters => rfl
  | powerOff => rfl
  | _ => cases h

namespace Serving

variable {g : Gateway} {stage : Stage}

theorem Stage.engagement?_of_dial {peer : Peer} (h : stage.call? = some (.dial peer)) :
    ∃ d, stage.engagement? = some (.opening d) := by
  have teardown {s : Teardown.Stage} (hc : s.call? = some (.dial peer)) : False := by
    cases s <;> cases hc
  cases stage with
  | dialling peer d => exact ⟨d, rfl⟩
  | clearing peer s => exact (teardown h).elim
  | unwinding e s => exact (teardown h).elim
  | leaving s => exact (teardown h).elim
  | _ => cases h

theorem Stage.Fits.session_of_lone (h : stage.Fits g) (hc : stage.call? = some c)
    (lone : c.isLone = true) : g.session = none := by
  cases c with
  | dial peer =>
    obtain ⟨d, hd⟩ := Stage.engagement?_of_dial hc
    exact h.opening hd
  | powerOff => exact (h.free_of_powerOff hc).session
  | scan parameters => exact absurd hc Stage.call?_ne_scan
  | _ => cases lone

/-- Without a session a connection is held only while its characteristics are discovered. -/
theorem Stage.held_eq_none (hs : g.session = none)
    (hd : ∀ peer c, stage ≠ .dialling peer (.discovering c)) :
    g.held stage.engagement? = none := by
  have free := Gateway.connection?_eq_none hs
  cases stage with
  | dialling peer d =>
    cases d with
    | discovering c => exact absurd rfl (hd peer c)
    | _ => exact free
  | _ => exact free

/-- With a session its connection is the one that is held. -/
theorem Stage.Fits.held_eq (h : stage.Fits g) {session : Session}
    (hs : g.session = some session) : g.held stage.engagement? = some session.connection := by
  have bound : g.connection? = some session.connection := by
    rw [Gateway.connection?, hs]
    rfl
  cases stage with
  | dialling peer d =>
    rw [h.1.session] at hs
    cases hs
  | _ => exact bound

end Serving

theorem Run.held_of_lone (h : Run setup past s) (hc : c ∈ s.calls setup)
    (lone : c.isLone = true) : s.gateway.held s.serving.engagement? = none := by
  rcases (h.mem_calls (Call.isRadioUse_of_isLone lone)).1 hc with hc | hc
  · have holds : s.autoscan.holdsRadio = true := by
      cases c with
      | dial peer => exact absurd hc Autoscan.Stage.call?_ne_dial
      | scan parameters =>
        exact Autoscan.Stage.holdsRadio_of_scans (Autoscan.Stage.scans_of_call? hc)
      | powerOff => exact Autoscan.Stage.holdsRadio_of_powerOff hc
      | _ => cases lone
    obtain ⟨free, rests⟩ := h.coherent.apart holds
    refine Serving.Stage.held_eq_none free.session fun peer c hs => ?_
    rw [hs] at rests
    cases rests
  · refine Serving.Stage.held_eq_none (h.coherent.fits.session_of_lone hc lone) fun peer d hs => ?_
    rw [hs] at hc
    cases hc
    cases lone

/-- Connections are hung up in the order in which they came, each once, and at most one is open at
any time: between two commands that of the session, and none while the radio dials, scans or is
switched off. -/
theorem Run.connections_closed_once (h : Run setup past s) :
    hungUp setup past <:+ obtained setup past ∧
    (obtained setup past).length ≤ (hungUp setup past).length + 1 ∧
    ((obtained setup past).Nodup → (hungUp setup past).Nodup) ∧
    (∀ c ∈ s.calls setup, c.isLone = true → obtained setup past = hungUp setup past) ∧
    (∀ session, s.gateway.session = some session →
      obtained setup past = session.connection :: hungUp setup past) ∧
    (s.serving = .receiving → s.gateway.session = none →
      obtained setup past = hungUp setup past) := by
  have law := h.obtained_eq
  have closed : hungUp setup past <:+ obtained setup past := ⟨_, law.symm⟩
  refine ⟨closed, ?_, fun distinct => distinct.sublist closed.sublist, ?_, ?_, ?_⟩
  · rw [law, List.length_append, Nat.add_comm]
    exact Nat.add_le_add_left Option.length_toList_le _
  · intro c hc lone
    rw [law, h.held_of_lone hc lone]
    rfl
  · intro session hs
    rw [law, h.coherent.fits.held_eq hs]
    rfl
  · intro waiting hs
    have nothing := Serving.Stage.held_eq_none hs fun peer c (hd : s.serving = _) => by
      rw [waiting] at hd
      cases hd
    rw [law, nothing]
    rfl

/-! ## A connect command that fails and one that does not -/

/-- The characteristics of the first connection cannot be discovered. A second connect command opens
a session, and a disconnect command closes it. -/
def secondAttempt : List Move :=
  Move.bringUp ++
    [.connectSample, .serving .signal, .serving (.reply .done), .serving (.reply (.connection 1)),
    .serving (.reply (.radioFault .discovery)), .serving (.reply .done), .serving (.reply .done),
    .serving (.reply .done), .connectSample, .serving .signal, .serving (.reply .done),
    .serving (.reply (.connection 2)), .serving (.reply (.characteristics [])),
    .serving (.reply .done), .serving (.reply .done), .serving (.reply .done),
    .message "ble/gateway/disconnect" [], .serving .signal, .serving (.reply .done)]

theorem secondAttempt_closes : ∃ past s, Run .sample past s ∧ .powerOff ∈ s.calls .sample ∧
    obtained .sample past = [2, 1] ∧ hungUp .sample past = [2, 1] := by
  have hm : (System.trace? .sample [] (.initial false) secondAttempt).any
      (fun (past, s) => .powerOff ∈ s.calls .sample && obtained .sample past == [2, 1]) = true := by
    decide +kernel
  obtain ⟨past, s, run, hs⟩ := Run.exists_of_any hm
  simp only [Bool.and_eq_true, decide_eq_true_eq, beq_iff_eq] at hs
  obtain ⟨off, ho⟩ := hs
  obtain ⟨-, -, -, lone, -⟩ := run.connections_closed_once
  exact ⟨past, s, run, off, ho, (lone .powerOff off rfl).symm.trans ho⟩

end GattGateway
