import GattGateway.Proofs.Serving

/-!
# How a connect command ends

A connect command that cannot get the radio leaves the bond and the pause as it found them. One that
has got the radio either binds the gateway or leaves it free and not paused. No other command begins
to wait for the radio.
-/
namespace GattGateway.Serving

open Segment

/-- How a connect command goes on in one segment of the loop, given the gateway that it found and
whether it has got the radio before. -/
inductive Connects (found : Gateway) : Bool → List Event → Gateway → Stage → Prop
  | waits {g : Gateway} {peer : Peer} {giveUp deadline : Instant}
      (session : g.session = found.session) (link : g.peerLink = found.peerLink) :
      Connects found false [] g (.acquiring peer found.paused giveUp deadline)
  | holds {held : Bool} {g : Gateway} {stage : Stage} (holds : stage.holdsRadio = true) :
      Connects found held [] g stage
  | refused {g : Gateway} {stage : Stage} (ended : stage.connects = false)
      (session : g.session = found.session) (link : g.peerLink = found.peerLink)
      (paused : g.paused = found.paused) :
      Connects found false [.error Fault.busy.message] g stage
  | connected {g : Gateway} {a : Address} {characteristics : Nat} (bound : g.Bound)
      (paused : g.paused = true) :
      Connects found true [.connected a characteristics] g .receiving
  | failed {g : Gateway} {stage : Stage} {e : Fault} (ended : stage.connects = false)
      (reason : e ≠ .busy) (free : g.Free) (unpaused : g.paused = false) :
      Connects found true [.error e.message] g stage

variable {taken scans : Bool} {m : Moment} {g found : Gateway} {stage : Stage} {w : Wake}

theorem Proceeds.connects {told : List Event} (h : Proceeds g told stage) :
    Connects found true told g stage := by
  cases h with
  | waits agrees holds => exact .holds holds
  | connected agrees bound => exact .connected bound (agrees.fits.2.trans bound.session)
  | failed agrees rests free unpaused reason => exact .failed rests reason free unpaused

/-- A command that waits for the radio has changed nothing but the pause. -/
structure Waits (found g : Gateway) (wasPaused : Bool) : Prop where
  session : g.session = found.session
  link : g.peerLink = found.peerLink
  paused : wasPaused = found.paused

theorem Connects.waits_of_acquiring {held : Bool} {told : List Event} {peer : Peer}
    {wasPaused : Bool} {giveUp deadline : Instant}
    (h : Connects found held told g (.acquiring peer wasPaused giveUp deadline)) :
    Waits found g wasPaused := by
  cases h with
  | waits session link => exact ⟨session, link, rfl⟩
  | holds holds => cases holds
  | refused ended _ _ _ => cases ended
  | failed ended _ _ _ => cases ended

theorem acquire_connects {peer : Peer} {wasPaused : Bool} {giveUp deadline : Instant}
    (h : Agrees taken scans g (.acquiring peer wasPaused giveUp deadline))
    (hw : Waits found g wasPaused) :
    (acquire m g peer wasPaused giveUp).Leads fun g' told stage =>
      Connects found false told g' stage := by
  refine (acquire_leads h).imp fun g' told stage hl => ?_
  obtain ⟨-, ⟨hs, rfl⟩ | ⟨rfl, rfl, rfl⟩ | ⟨hs, rfl, rfl⟩⟩ := hl
  · exact .holds hs
  · rw [hw.paused]
    exact .waits hw.session hw.link
  · exact .refused hs hw.session hw.link hw.paused

/-- Every wait of a connect command leads on with it or to its end. -/
theorem resume_connects (h : Agrees taken scans g stage) (hs : stage.connects = true)
    (hw : w = .signal → stage.signalled g = true)
    (hfound : ∀ peer wasPaused giveUp deadline, stage = .acquiring peer wasPaused giveUp deadline →
      Waits found g wasPaused) :
    (resume m g stage w).Leads fun g' told stage' =>
      Connects found stage.holdsRadio told g' stage' := by
  cases hheld : stage.holdsRadio with
  | true => exact (resume_proceeds h hheld hw).imp fun _ _ _ hp => hp.connects
  | false =>
    cases stage with
    | acquiring peer wasPaused giveUp deadline =>
      have hf := hfound peer wasPaused giveUp deadline rfl
      have hwait : Connects found false [] g (.acquiring peer wasPaused giveUp deadline) := by
        rw [hf.paused]
        exact .waits hf.session hf.link
      cases w with
      | timeout => exact acquire_connects h hf
      | signal => exact hwait
      | reply r => exact hwait
    | _ => simp_all [Stage.connects, Stage.holdsRadio]

/-! ## Other commands -/

theorem report_rests {e : Fault} : (report m g e).Leads fun g' told stage =>
    stage.connects = false ∧ g' = g ∧ told = [.error e.message] := by
  unfold report
  rw [leads_telling]
  split
  · exact ⟨rfl, rfl, rfl⟩
  · exact ⟨rfl, rfl, rfl⟩

theorem send_rests {name : TopicName} {payload : Text.Bytes} {next : Message → Stage}
    (hn : ∀ message, (next message).connects = false) :
    (send m g name payload next).Leads fun _ _ stage => stage.connects = false := by
  unfold send
  split
  · exact hn _
  · exact report_rests.imp fun _ _ _ h => h.1

theorem answer_rests {uuid : CanonicalUuid} {value : Text.Bytes} :
    (answer m g uuid value).Leads fun _ _ stage => stage.connects = false :=
  send_rests fun _ => rfl

theorem leave_rests {s : Segment Teardown.Stage Unit} (hs : s.events = []) :
    (leave m s).Leads fun _ _ stage => stage.connects = false :=
  s.ends_trivial.leads hs (fun _ _ _ => rfl) fun _ _ _ => send_rests fun _ => rfl

/-- What is not a connect command does not become one. -/
theorem resume_rests (hs : stage.connects = false) (hr : w = .signal → stage ≠ .receiving) :
    (resume m g stage w).Leads fun _ _ stage' => stage'.connects = false := by
  cases stage with
  | receiving =>
    cases w with
    | signal => exact absurd rfl (hr rfl)
    | reply r => exact rfl
    | timeout => exact rfl
  | leaving s => exact leave_rests Teardown.resume_events
  | parting message | writing connection handle data | reading uuid connection handle
  | answering uuid value message | reporting message =>
    exact resume_single rfl rfl (fun _ => rfl) (fun _ => report_rests.imp fun _ _ _ h => h.1)
      fun _ _ => answer_rests
  | _ => cases hs

/-! ## Taking a command up -/

theorem dispatch_connects {r : Request} {peer : Peer} (h : Agrees taken scans g .receiving)
    (hc : Command.ofMessage m.topics r.topic.text r.payload = .ok (some (.connect peer))) :
    (dispatch m g r).Leads fun g' told stage => Connects g false told g' stage := by
  have ha : Agrees taken scans { g with paused := true }
      (.acquiring peer g.paused (m.now + m.timing.busyWait) 0) := h.acquiring
  simp only [dispatch, hc, handle]
  exact acquire_connects ha ⟨rfl, rfl, rfl⟩

/-- What is found in the inbox makes no difference. -/
theorem Connects.of_inbox {inbox : Inbox} {held : Bool} {told : List Event}
    (h : Connects { found with inbox } held told g stage) : Connects found held told g stage := by
  cases h with
  | waits session link => exact .waits session link
  | holds holds => exact .holds holds
  | refused ended session link paused => exact .refused ended session link paused
  | connected bound paused => exact .connected bound paused
  | failed ended reason free unpaused => exact .failed ended reason free unpaused

/-- A rejected command changes nothing. -/
theorem dispatch_rejects {r : Request} {e : Fault}
    (hc : Command.ofMessage m.topics r.topic.text r.payload = .error e) :
    (dispatch m g r).Leads fun g' told stage =>
      stage.connects = false ∧ g' = g ∧ told = [.error e.message] := by
  simp only [dispatch, hc]
  exact report_rests

/-- A message that is no connect command does not begin to connect. -/
theorem dispatch_rests {r : Request}
    (hc : ∀ peer, Command.ofMessage m.topics r.topic.text r.payload ≠ .ok (some (.connect peer))) :
    (dispatch m g r).Leads fun _ _ stage => stage.connects = false := by
  unfold dispatch
  split
  · exact rfl
  · rename_i command hcommand
    cases command with
    | connect peer => exact absurd hcommand (hc peer)
    | disconnect => exact leave_rests Teardown.begin_events
    | write uuid data =>
      simp only [handle]
      split
      · exact rfl
      · exact rfl
    | read uuid =>
      simp only [handle]
      split
      · exact rfl
      · exact answer_rests
  · exact report_rests.imp fun _ _ _ h => h.1

/-! ## Every segment -/

/-- What the loop makes of the message that it takes up, if it takes one up. -/
def taken? (topics : Topics) (g : Gateway) :
    Stage → Wake → Option (Except Fault (Option Command))
  | .receiving, .signal =>
    g.inbox.pop?.map fun (request, _) =>
      Command.ofMessage topics request.topic.text request.payload
  | _, _ => none

/-- How a segment of the loop treats connect commands, given the gateway as it was when the command
at hand was taken up. -/
structure Handles (topics : Topics) (found g : Gateway) (stage : Stage) (w : Wake)
    (told : List Event) (g' : Gateway) (stage' : Stage) : Prop where
  /-- A connect command goes on or comes to its end. -/
  goesOn : stage.connects = true → Connects found stage.holdsRadio told g' stage'
  takesUp : ∀ peer, taken? topics g stage w = some (.ok (some (.connect peer))) →
    Connects g false told g' stage'
  rejects : ∀ e, taken? topics g stage w = some (.error e) →
    stage'.connects = false ∧ told = [.error e.message] ∧ ∃ inbox, g' = { g with inbox }
  /-- Nothing else becomes a connect command. -/
  rests : stage.connects = false →
    (∀ peer, taken? topics g stage w ≠ some (.ok (some (.connect peer)))) → stage'.connects = false

theorem taken?_eq_some {topics : Topics} {command : Except Fault (Option Command)}
    (h : taken? topics g stage w = some command) :
    ∃ request inbox, stage = .receiving ∧ w = .signal ∧ g.inbox.pop? = some (request, inbox) ∧
      Command.ofMessage topics request.topic.text request.payload = command := by
  unfold taken? at h
  split at h
  · obtain ⟨⟨request, inbox⟩, hpop, hc⟩ := Option.map_eq_some_iff.1 h
    exact ⟨request, inbox, rfl, rfl, hpop, hc⟩
  · cases h

theorem resume_handles (h : Agrees taken scans g stage)
    (hw : w = .signal → stage.signalled g = true)
    (hfound : ∀ peer wasPaused giveUp deadline, stage = .acquiring peer wasPaused giveUp deadline →
      Waits found g wasPaused) :
    (resume m g stage w).Leads fun g' told stage' =>
      Handles m.topics found g stage w told g' stage' := by
  refine ⟨fun hc => resume_connects h hc hw hfound, fun peer ht => ?_, fun e ht => ?_,
    fun hc hn => ?_⟩
  · obtain ⟨request, inbox, rfl, rfl, hpop, hcommand⟩ := taken?_eq_some ht
    simp only [resume, hpop]
    exact (dispatch_connects (h.undisturbed (.of_inbox _ inbox)) hcommand).imp
      fun _ _ _ hl => hl.of_inbox
  · obtain ⟨request, inbox, rfl, rfl, hpop, hcommand⟩ := taken?_eq_some ht
    simp only [resume, hpop]
    obtain ⟨hrest, hg, htold⟩ := dispatch_rejects hcommand
    exact ⟨hrest, htold, inbox, hg⟩
  · by_cases hr : w = .signal → stage ≠ .receiving
    · exact resume_rests hc hr
    · obtain ⟨rfl, rfl⟩ : w = .signal ∧ stage = .receiving := by simpa using hr
      cases hpop : g.inbox.pop? with
      | none =>
        simp only [resume, hpop]
        exact hc
      | some taken =>
        simp only [resume, hpop]
        exact dispatch_rests fun peer hcommand => hn peer (by simp [taken?, hpop, hcommand])

end GattGateway.Serving
