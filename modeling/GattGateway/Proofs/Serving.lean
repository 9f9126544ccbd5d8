import GattGateway.Gateway.Serving
import GattGateway.Proofs.Dial
import GattGateway.Proofs.Recovery
import GattGateway.Proofs.Teardown

/-!
# How the serving loop keeps its promises

Between two commands the gateway is settled, and scanning is paused exactly while it is bound. A
connect sequence holds the radio from the moment it has got it until it has either bound the gateway
or left it free.
-/
namespace GattGateway.Serving

open Segment

/-- A connect sequence holds the radio. -/
def Stage.holdsRadio : Stage → Bool
  | .clearing _ _ => true
  | .dialling _ _ => true
  | .recovering _ _ _ => true
  | .subscribing _ _ _ _ => true
  | .announcing _ _ _ => true
  | .unwinding _ _ => true
  | _ => false

/-- A connect command is being handled. -/
def Stage.connects : Stage → Bool
  | .acquiring _ _ _ _ => true
  | stage => stage.holdsRadio

theorem Stage.connects_of_holdsRadio {stage : Stage} (h : stage.holdsRadio = true) :
    stage.connects = true := by
  cases stage <;> first | rfl | cases h

/-- One call is awaited, outside of a connect or disconnect sequence. -/
def Stage.isSingle : Stage → Bool
  | .parting _ => true
  | .writing _ _ _ => true
  | .reading _ _ _ => true
  | .answering _ _ _ => true
  | .reporting _ => true
  | _ => false

/-- What holds of the bond and the pause while the loop waits. -/
def Stage.Fits (g : Gateway) : Stage → Prop
  | .acquiring _ wasPaused _ _ => g.Settled ∧ g.paused = true ∧ wasPaused = g.session.isSome
  | .clearing _ s => s.Fits g ∧ g.paused = true
  | .dialling _ s => s.Fits g ∧ g.paused = true
  | .recovering _ found _ => found.Fits g ∧ g.paused = true
  | .subscribing _ _ _ _ => g.Bound ∧ g.paused = true
  | .announcing _ _ _ => g.Bound ∧ g.paused = true
  | .unwinding e s => s.Fits g ∧ g.paused = true ∧ e ≠ .busy
  | .leaving s => s.Fits g ∧ (g.peerLink = .disconnected ∨ g.paused = true)
  | .writing _ _ _ => g.Bound ∧ g.paused = true
  | .reading _ _ _ => g.Bound ∧ g.paused = true
  | _ => g.Settled ∧ g.paused = g.session.isSome

/-- The gateway agrees with the stage of the loop, where a scan cycle may have taken the radio and
may scan. -/
structure Agrees (taken scans : Bool) (g : Gateway) (stage : Stage) : Prop where
  fits : stage.Fits g
  busy : g.busy = (taken || stage.holdsRadio)
  apart : taken = true → g.Free ∧ stage.holdsRadio = false
  scanning : g.scanning = scans
  scans : scans = true → taken = true
  orderly : g.Orderly

theorem Stage.Fits.calmer {g g' : Gateway} {stage : Stage} (h : stage.Fits g) (hg : g.Calmer g')
    (hp : g'.paused = g.paused) : stage.Fits g' := by
  have rest (h : g.Settled ∧ g.paused = g.session.isSome) :
      g'.Settled ∧ g'.paused = g'.session.isSome := by
    rw [hp, hg.session]
    exact ⟨h.1.calmer hg, h.2⟩
  have bound (h : g.Bound ∧ g.paused = true) : g'.Bound ∧ g'.paused = true :=
    ⟨h.1.calmer hg, hp.trans h.2⟩
  cases stage with
  | receiving => exact rest h
  | acquiring peer wasPaused giveUp deadline =>
    exact ⟨h.1.calmer hg, hp.trans h.2.1, by rw [hg.session]; exact h.2.2⟩
  | clearing peer s => exact ⟨h.1.calmer hg, hp.trans h.2⟩
  | dialling peer s => exact ⟨h.1.calmer hg, hp.trans h.2⟩
  | recovering peer found s => exact ⟨h.1.calmer hg, hp.trans h.2⟩
  | subscribing peer ds name topic => exact bound h
  | announcing peer characteristics message => exact bound h
  | unwinding e s => exact ⟨h.1.calmer hg, hp.trans h.2.1, h.2.2⟩
  | leaving s => exact ⟨h.1.calmer hg, h.2.imp hg.link.trans hp.trans⟩
  | parting message => exact rest h
  | writing connection handle data => exact bound h
  | reading uuid connection handle => exact bound h
  | answering uuid value message => exact rest h
  | reporting message => exact rest h

/-- The link is in use only while scanning is paused. -/
theorem Stage.Fits.link {g : Gateway} {stage : Stage} (h : stage.Fits g) :
    g.peerLink = .disconnected ∨ g.paused = true := by
  have rest (h : g.Settled ∧ g.paused = g.session.isSome) :
      g.peerLink = .disconnected ∨ g.paused = true := by
    rcases h.1 with hf | hb
    · exact .inl hf.link
    · exact .inr (h.2.trans hb.session)
  cases stage with
  | receiving => exact rest h
  | acquiring peer wasPaused giveUp deadline => exact .inr h.2.1
  | clearing peer s => exact .inr h.2
  | dialling peer s => exact .inr h.2
  | recovering peer found s => exact .inr h.2
  | subscribing peer ds name topic => exact .inr h.2
  | announcing peer characteristics message => exact .inr h.2
  | unwinding e s => exact .inr h.2.1
  | leaving s => exact h.2
  | parting message => exact rest h
  | writing connection handle data => exact .inr h.2
  | reading uuid connection handle => exact .inr h.2
  | answering uuid value message => exact rest h
  | reporting message => exact rest h

variable {taken scans : Bool} {m : Moment} {g g' : Gateway} {stage stage' : Stage}

/-- A connect sequence holds the radio. -/
structure Holding (g : Gateway) : Prop where
  busy : g.busy = true
  paused : g.paused = true
  scanning : g.scanning = false
  orderly : g.Orderly

theorem Agrees.untaken (h : Agrees taken scans g stage) (hs : stage.holdsRadio = true) :
    taken = false := by
  cases taken with
  | false => rfl
  | true => simp [(h.apart rfl).2] at hs

theorem Agrees.untaken_of_idle (h : Agrees taken scans g stage) (hb : g.busy = false) :
    taken = false := by
  have := h.busy
  rw [hb] at this
  simp only [Bool.false_eq, Bool.or_eq_false_iff] at this
  exact this.1

/-- Nothing scans unless a scan cycle has taken the radio. -/
theorem Agrees.still (h : Agrees taken scans g stage) (ht : taken = false) : scans = false := by
  cases scans with
  | false => rfl
  | true => simp [h.scans rfl] at ht

theorem Stage.Fits.paused (h : stage.Fits g) (hs : stage.holdsRadio = true) :
    g.paused = true := by
  cases stage with
  | clearing peer s => exact h.2
  | dialling peer s => exact h.2
  | recovering peer found s => exact h.2
  | subscribing peer ds name topic => exact h.2
  | announcing peer characteristics message => exact h.2
  | unwinding e s => exact h.2.1
  | _ => cases hs

theorem Agrees.holding (h : Agrees taken scans g stage) (hs : stage.holdsRadio = true) :
    Holding g where
  busy := by rw [h.busy, hs, Bool.or_true]
  paused := h.fits.paused hs
  scanning := by rw [h.scanning, h.still (h.untaken hs)]
  orderly := h.orderly

theorem Holding.agrees (h : Holding g) (hf : stage.Fits g) (hs : stage.holdsRadio = true) :
    Agrees false false g stage :=
  ⟨hf, by rw [h.busy, hs]; rfl, nofun, h.scanning, nofun, h.orderly⟩

theorem Holding.kept (h : Holding g) (hk : g.Kept g') : Holding g' :=
  ⟨hk.busy.trans h.busy, hk.paused.trans h.paused, hk.scanning.trans h.scanning,
    hk.orderly h.orderly⟩

/-- A teardown within a connect sequence. -/
theorem Holding.teardown {s : Segment Teardown.Stage Unit} (h : Holding g)
    (hs : s.Ends (fun g' s => Teardown.Kept g g' ∧ s.Fits g')
      fun g' _ => Teardown.Kept g g' ∧ g'.Free) :
    s.Ends (fun g s => Holding g ∧ s.Fits g) fun g _ => Holding g ∧ g.Free :=
  hs.imp (fun _ _ h' => ⟨h.kept h'.1.toKept, h'.2⟩) fun _ _ h' => ⟨h.kept h'.1.toKept, h'.2⟩

theorem Agrees.undisturbed (h : Agrees taken scans g stage) (hg : g.Undisturbed g') :
    Agrees taken scans g' stage where
  fits := h.fits.calmer hg.toCalmer hg.paused
  busy := hg.busy.trans h.busy
  apart ht := ⟨(h.apart ht).1.calmer hg.toCalmer, (h.apart ht).2⟩
  scanning := hg.scanning.trans h.scanning
  scans := h.scans
  orderly := hg.toCalmer.orderly h.orderly

/-- Outside a connect sequence the bond is settled, so that it is free if the link is not in use. -/
theorem Stage.Fits.free (h : stage.Fits g) (hs : stage.holdsRadio = false)
    (hl : g.peerLink = .disconnected) : g.Free := by
  have bound (hb : g.Bound) : g.Free := hb.settled.free hl
  cases stage with
  | receiving => exact h.1.free hl
  | acquiring peer wasPaused giveUp deadline => exact h.1.free hl
  | leaving s => exact h.1.free hl
  | parting message => exact h.1.free hl
  | writing connection handle data => exact bound h.1
  | reading uuid connection handle => exact bound h.1
  | answering uuid value message => exact h.1.free hl
  | reporting message => exact h.1.free hl
  | _ => cases hs

/-- Stages of rest are all alike. -/
theorem Agrees.rest (h : Agrees taken scans g .receiving) (hf : stage.Fits g)
    (hs : stage.holdsRadio = false) : Agrees taken scans g stage :=
  ⟨hf, by rw [h.busy, hs]; rfl, fun ht => ⟨(h.apart ht).1, hs⟩, h.scanning, h.scans, h.orderly⟩

/-! ## Reports and answers -/

theorem report_leads {e : Fault} (h : Agrees taken scans g .receiving) :
    (report m g e).Leads fun g' told stage =>
      Agrees taken scans g' stage ∧ stage.connects = false ∧ g' = g ∧
        told = [.error e.message] := by
  unfold report
  rw [leads_telling]
  split
  · exact ⟨h.rest h.fits rfl, rfl, rfl, rfl⟩
  · exact ⟨h, rfl, rfl, rfl⟩

theorem send_leads {name : TopicName} {payload : Text.Bytes} {next : Message → Stage}
    (h : Agrees taken scans g .receiving) (hn : ∀ message, Agrees taken scans g (next message)) :
    (send m g name payload next).Leads fun g' _ stage => Agrees taken scans g' stage := by
  unfold send
  split
  · exact hn _
  · exact (report_leads h).imp fun _ _ _ h => h.1

theorem answer_leads {uuid : CanonicalUuid} {value : Text.Bytes}
    (h : Agrees taken scans g .receiving) :
    (answer m g uuid value).Leads fun g' _ stage => Agrees taken scans g' stage :=
  send_leads h fun _ => h.rest h.fits rfl

/-! ## Connecting -/

/-- How a connect sequence goes on: it waits further, it has bound the gateway, or it has failed and
left the gateway free. -/
inductive Proceeds (g : Gateway) : List Event → Stage → Prop
  | waits {stage : Stage} (agrees : Agrees false false g stage) (holds : stage.holdsRadio = true) :
      Proceeds g [] stage
  | connected {a : Address} {characteristics : Nat} (agrees : Agrees false false g .receiving)
      (bound : g.Bound) : Proceeds g [.connected a characteristics] .receiving
  | failed {stage : Stage} {e : Fault} (agrees : Agrees false false g stage)
      (rests : stage.connects = false) (free : g.Free) (unpaused : g.paused = false)
      (reason : e ≠ .busy) : Proceeds g [.error e.message] stage

theorem Proceeds.agrees {told : List Event} (h : Proceeds g told stage) :
    Agrees false false g stage := by
  cases h with
  | waits agrees _ => exact agrees
  | connected agrees _ => exact agrees
  | failed agrees _ _ _ _ => exact agrees

theorem Holding.waits (h : Holding g) (hf : stage.Fits g) (hs : stage.holdsRadio = true) :
    Proceeds g [] stage :=
  .waits (h.agrees hf hs) hs

theorem unwind_leads {e : Fault} {s : Segment Teardown.Stage Unit} (hs : s.events = [])
    (he : e ≠ .busy)
    (h : s.Ends (fun g s => Holding g ∧ s.Fits g) fun g _ => Holding g ∧ g.Free) :
    (unwind m e s).Leads Proceeds := by
  refine h.leads hs (fun g s hg => hg.1.waits ⟨hg.2, hg.1.paused, he⟩ rfl) fun g _ hg => ?_
  obtain ⟨hh, hf⟩ := hg
  have hf' : ({ g with paused := false, busy := false } : Gateway).Free :=
    ⟨hf.session, hf.link, hf.quiet⟩
  have hr : Agrees false false { g with paused := false, busy := false } .receiving :=
    ⟨⟨hf'.settled, by simp [hf.session]⟩, rfl, fun ht => (nomatch ht),
      hh.scanning, nofun, hh.orderly⟩
  refine (report_leads hr).imp fun g' told stage hl => ?_
  obtain ⟨ha, hrest, rfl, rfl⟩ := hl
  exact .failed ha hrest hf' rfl he

theorem abandon_leads {e : Fault} (h : Holding g) (hg : g.Settled) (he : e ≠ .busy) :
    (abandon m g e).Leads Proceeds :=
  unwind_leads Teardown.begin_events he (h.teardown (Teardown.begin_ends hg))

theorem topic_ne_busy {t : Topics} {name : TopicName} {e : Fault} (h : t.topic name = .error e) :
    e ≠ .busy := by
  unfold Topics.topic at h
  split at h
  · cases h
  · cases h
    simp

theorem connectedMessage_ne_busy {ds : List Descriptor} {e : Fault}
    (h : connectedMessage m ds = .error e) : e ≠ .busy := by
  unfold connectedMessage encode at h
  split at h
  · simp only [bind, Except.bind] at h
    split at h
    · rename_i he
      cases h
      exact topic_ne_busy he
    · cases h
  · cases h
    simp

theorem announce_leads {peer : Peer} {ds : List Descriptor} (h : Holding g) (hb : g.Bound) :
    (announce m g peer ds).Leads Proceeds := by
  have hh := h.kept (g.forwardAll_kept ds)
  have hb' := hb.forwardAll ds
  unfold announce
  dsimp only
  split
  · exact hh.waits ⟨hb', hh.paused⟩ rfl
  · rename_i he
    exact abandon_leads hh hb'.settled (connectedMessage_ne_busy he)

theorem subscribeTo_leads {peer : Peer} {ds : List Descriptor} {name : TopicName} (h : Holding g)
    (hb : g.Bound) : (subscribeTo m g peer ds name).Leads Proceeds := by
  unfold subscribeTo
  split
  · exact h.waits ⟨hb, h.paused⟩ rfl
  · rename_i he
    exact abandon_leads h hb.settled (topic_ne_busy he)

theorem settle_leads {peer : Peer} {found : Dial.Result}
    {s : Segment Recovery.Stage Recovery.Outcome} (hs : s.events = [])
    (h : s.Ends (fun g _ => Holding g ∧ found.Fits g) fun g _ => Holding g ∧ found.Fits g) :
    (settle m peer found s).Leads Proceeds := by
  refine h.leads hs (fun g s hg => hg.1.waits ⟨hg.2, hg.1.paused⟩ rfl) fun g outcome hg => ?_
  obtain ⟨hh, hf⟩ := hg
  cases found with
  | error e => exact abandon_leads hh hf.1.settled hf.2
  | ok ds =>
    dsimp only
    split_ifs
    · exact abandon_leads hh hf.settled (by simp)
    · exact announce_leads hh hf
    · exact subscribeTo_leads hh hf

/-- A recovery leaves the bond and the pause as they are. -/
theorem recovered {found : Dial.Result} (h : Holding g) (hf : found.Fits g)
    (hk : Recovery.Kept m g g') : Holding g' ∧ found.Fits g' := by
  have hc : g.Calmer { g with ready := g'.ready } := ⟨rfl, rfl, rfl, fun _ hw => ⟨hw, rfl⟩⟩
  rw [hk.rest]
  exact ⟨⟨h.busy, h.paused, h.scanning, h.orderly⟩, hf.calmer hc⟩

theorem dial_leads {peer : Peer} {s : Segment Dial.Stage Dial.Result} (hs : s.events = [])
    (h : s.Ends (fun g s => Holding g ∧ s.Fits g) fun g found => Holding g ∧ found.Fits g) :
    (dial m peer s).Leads Proceeds := by
  refine h.leads hs (fun g s hg => hg.1.waits ⟨hg.2, hg.1.paused⟩ rfl) fun g found hg => ?_
  exact settle_leads Recovery.poll_events
    (Recovery.begin_ends.imp (fun _ _ hk => recovered hg.1 hg.2 hk)
      fun _ _ hk => recovered hg.1 hg.2 hk)

/-- A sequence that has got the radio gets an attempt under way, and tells nothing until then. -/
theorem clear_leads {peer : Peer} {s : Segment Teardown.Stage Unit} (hs : s.events = [])
    (h : s.Ends (fun g s => Holding g ∧ s.Fits g) fun g _ => Holding g ∧ g.Free) :
    (clear m peer s).Leads fun g told stage =>
      Agrees false false g stage ∧ stage.holdsRadio = true ∧ told = [] := by
  refine h.leads hs (fun g s hg => ⟨hg.1.agrees ⟨hg.2, hg.1.paused⟩ rfl, rfl, rfl⟩)
    fun g _ hg => ?_
  obtain ⟨hh, hf⟩ := hg
  have hh' : Holding { g with ready := false } := ⟨hh.busy, hh.paused, hh.scanning, hh.orderly⟩
  have hf' : ({ g with ready := false } : Gateway).Free := ⟨hf.session, hf.link, hf.quiet⟩
  refine (Dial.begin_ends hf' hh'.scanning).leads Dial.begin_events (fun g' s hk => ?_)
    fun _ _ hn => hn.elim
  have hk' := hh'.kept hk.1
  exact ⟨hk'.agrees ⟨hk.2, hk'.paused⟩ rfl, rfl, rfl⟩

/-- A command that begins to wait for the radio. -/
theorem Agrees.acquiring {peer : Peer} {giveUp deadline : Instant}
    (h : Agrees taken scans g .receiving) :
    Agrees taken scans { g with paused := true } (.acquiring peer g.paused giveUp deadline) where
  fits := ⟨h.fits.1.calmer (.of_slots_eq rfl rfl rfl rfl), rfl, h.fits.2⟩
  busy := h.busy
  apart ht := ⟨(h.apart ht).1.calmer (.of_slots_eq rfl rfl rfl rfl), rfl⟩
  scanning := h.scanning
  scans := h.scans
  orderly := h.orderly

/-- A command that takes the radio where nobody holds it. -/
theorem Agrees.takes {peer : Peer} {wasPaused : Bool} {giveUp deadline : Instant}
    (h : Agrees taken scans g (.acquiring peer wasPaused giveUp deadline)) (hb : g.busy = false) :
    (Teardown.begin m { g with busy := true }).Ends (fun g s => Holding g ∧ s.Fits g)
      fun g _ => Holding g ∧ g.Free := by
  obtain ⟨hs, hp, -⟩ := h.fits
  have ht := h.untaken_of_idle hb
  have hh : Holding { g with busy := true } :=
    ⟨rfl, hp, h.scanning.trans (h.still ht), h.orderly⟩
  exact hh.teardown (Teardown.begin_ends (hs.calmer (.of_slots_eq rfl rfl rfl rfl)))

/-- What becomes of a command that waits for the radio: it gets the radio, waits on, or gives up
and leaves everything as it was. -/
theorem acquire_leads {peer : Peer} {wasPaused : Bool} {giveUp deadline : Instant}
    (h : Agrees taken scans g (.acquiring peer wasPaused giveUp deadline)) :
    (acquire m g peer wasPaused giveUp).Leads fun g' told stage =>
      Agrees taken scans g' stage ∧
        (stage.holdsRadio = true ∧ told = [] ∨
          stage = .acquiring peer wasPaused giveUp (m.now + m.timing.busyPoll) ∧ told = [] ∧
            g' = g ∨
          stage.connects = false ∧ g' = { g with paused := wasPaused } ∧
            told = [.error Fault.busy.message]) := by
  obtain ⟨hs, hp, hw⟩ := h.fits
  unfold acquire
  split_ifs with hb hd
  · have hb : g.busy = false := by simpa using hb
    have ht := h.untaken_of_idle hb
    have hscans := h.still ht
    subst taken scans
    exact (clear_leads Teardown.begin_events (h.takes hb)).imp fun _ _ _ hl => ⟨hl.1, .inl hl.2⟩
  · have hr : Agrees taken scans { g with paused := wasPaused } .receiving := by
      refine ⟨⟨hs.calmer (.of_slots_eq rfl rfl rfl rfl), hw⟩, h.busy, fun ht => ⟨?_, rfl⟩,
        h.scanning, h.scans, h.orderly⟩
      exact (h.apart ht).1.calmer (.of_slots_eq rfl rfl rfl rfl)
    exact (report_leads hr).imp fun _ _ _ hl => ⟨hl.1, .inr (.inr hl.2)⟩
  · exact ⟨⟨h.fits, h.busy, h.apart, h.scanning, h.scans, h.orderly⟩, .inr (.inl ⟨rfl, rfl, rfl⟩)⟩

/-! ## Dispatch -/

theorem leave_leads {s : Segment Teardown.Stage Unit} (hs : s.events = [])
    (h : s.Ends (fun g s => Agrees taken scans g (.leaving s))
      fun g _ => Agrees taken scans g (.leaving .poweringDown)) :
    (leave m s).Leads fun g _ stage => Agrees taken scans g stage := by
  refine h.leads hs (fun g s hg => hg) fun g _ hg => ?_
  have hf : ({ g with valueTopics := false, paused := false } : Gateway).Free :=
    hg.fits.1.calmer (.of_slots_eq rfl rfl rfl rfl)
  have hr : Agrees taken scans { g with valueTopics := false, paused := false } .receiving :=
    ⟨⟨hf.settled, by simp [hg.fits.1.session]⟩, hg.busy, fun _ => ⟨hf, rfl⟩, hg.scanning, hg.scans,
      hg.orderly⟩
  exact send_leads hr fun _ => hr.rest hr.fits rfl

/-- A teardown outside a connect sequence. -/
theorem Agrees.leaving {s : Teardown.Stage} (h : Agrees taken scans g stage)
    (hs : stage.holdsRadio = false) (hk : Teardown.Kept g g') (hf : s.Fits g') :
    Agrees taken scans g' (.leaving s) where
  fits := ⟨hf, h.fits.link.imp hk.link hk.paused.trans⟩
  busy := by rw [hk.busy, h.busy, hs]; rfl
  apart ht := ⟨hf.free (hk.link (h.apart ht).1.link), rfl⟩
  scanning := hk.scanning.trans h.scanning
  scans := h.scans
  orderly := hk.orderly h.orderly

theorem handle_leads {command : Command} (h : Agrees taken scans g .receiving) :
    (handle m g command).Leads fun g' _ stage => Agrees taken scans g' stage := by
  obtain ⟨hs, hp⟩ := h.fits
  have bound {connection : Connection} {e : TableEntry} {uuid : CanonicalUuid}
      (hl : g.lookup? uuid = some (connection, e)) : g.Bound ∧ g.paused = true := by
    have hsome : g.session.isSome = true := by
      cases hg : g.session with
      | some s => rfl
      | none => simp [Gateway.lookup?, hg] at hl
    rcases hs with hf | hb
    · simp [hf.session] at hsome
    · exact ⟨hb, hp.trans hsome⟩
  cases command with
  | connect peer =>
    have ha : Agrees taken scans { g with paused := true }
        (.acquiring peer g.paused (m.now + m.timing.busyWait) 0) := h.acquiring
    exact (acquire_leads ha).imp fun _ _ _ hl => hl.1
  | disconnect =>
    exact leave_leads Teardown.begin_events ((Teardown.begin_ends hs).imp
      (fun _ _ h' => h.leaving rfl h'.1 h'.2) fun _ _ h' => h.leaving rfl h'.1 h'.2)
  | write uuid data =>
    simp only [handle]
    split
    · rename_i hl
      exact h.rest (bound hl) rfl
    · exact h
  | read uuid =>
    simp only [handle]
    split
    · rename_i hl
      exact h.rest (bound hl) rfl
    · exact answer_leads h

/-- After a single call the gateway is settled, as it is while a command is awaited. -/
theorem Agrees.rested (h : Agrees taken scans g stage) (hs : stage.holdsRadio = false)
    (hc : stage.isSingle = true) : Agrees taken scans g .receiving := by
  refine ⟨?_, by rw [h.busy, hs]; rfl, fun ht => ⟨(h.apart ht).1, rfl⟩, h.scanning, h.scans,
    h.orderly⟩
  have hf := h.fits
  cases stage with
  | writing connection handle data => exact ⟨hf.1.settled, hf.2.trans hf.1.session.symm⟩
  | reading uuid connection handle => exact ⟨hf.1.settled, hf.2.trans hf.1.session.symm⟩
  | parting message | answering uuid value message | reporting message => exact hf
  | _ => cases hc

theorem dispatch_leads {r : Request} (h : Agrees taken scans g .receiving) :
    (dispatch m g r).Leads fun g' _ stage => Agrees taken scans g' stage := by
  unfold dispatch
  split
  · exact h
  · exact handle_leads h
  · exact (report_leads h).imp fun _ _ _ hl => hl.1

/-! ## Resuming -/

/-- A single call leaves the gateway as it is, with the answer to a read or with a report still to
be sent. -/
theorem resume_single {P : Gateway → List Event → Stage → Prop} {w : Wake}
    (hs : stage.isSingle = true) (waits : P g [] stage) (rests : ∀ told, P g told .receiving)
    (reports : ∀ e, (report m g e).Leads P)
    (answers : ∀ uuid value, (answer m g uuid value).Leads P) :
    (resume m g stage w).Leads P := by
  cases w with
  | signal => cases stage <;> first | exact waits | cases hs
  | timeout => cases stage <;> first | exact waits | cases hs
  | reply r =>
    cases stage with
    | parting message =>
      simp only [resume]
      split
      · exact rests _
      · exact reports _
    | writing connection handle data =>
      simp only [resume]
      split
      · exact rests _
      · exact reports _
    | reading uuid connection handle =>
      simp only [resume]
      split
      · exact answers _ _
      · exact reports _
    | answering uuid value message =>
      simp only [resume]
      split
      · exact rests _
      · exact reports _
    | reporting message => exact rests _
    | _ => cases hs

/-- Every wait of a connect sequence leads on with it, to a bound gateway or to a free one. -/
theorem resume_proceeds {w : Wake} (h : Agrees taken scans g stage) (hs : stage.holdsRadio = true)
    (hw : w = .signal → stage.signalled g = true) : (resume m g stage w).Leads Proceeds := by
  have hh := h.holding hs
  have hf := h.fits
  cases stage with
  | clearing peer s =>
    refine (clear_leads Teardown.resume_events
      (hh.teardown (Teardown.resume_ends hf.1 h.orderly hw))).imp fun g' told stage hl => ?_
    obtain ⟨ha, hs', rfl⟩ := hl
    exact .waits ha hs'
  | dialling peer s =>
    exact dial_leads Dial.resume_events ((Dial.resume_ends hf.1).imp
      (fun _ _ h' => ⟨hh.kept h'.1, h'.2⟩) fun _ _ h' => ⟨hh.kept h'.1, h'.2⟩)
  | recovering peer found s =>
    exact settle_leads Recovery.resume_events (Recovery.resume_ends.imp
      (fun _ _ hk => recovered hh hf.1 hk) fun _ _ hk => recovered hh hf.1 hk)
  | subscribing peer ds name topic =>
    have hwait : Proceeds g [] (.subscribing peer ds name topic) := hh.waits hf rfl
    cases w with
    | reply r =>
      simp only [resume]
      split
      · split_ifs
        · exact subscribeTo_leads hh hf.1
        · exact announce_leads ⟨hh.busy, hh.paused, hh.scanning, hh.orderly⟩
            ⟨hf.1.session, hf.1.link, hf.1.powered⟩
      · exact abandon_leads hh hf.1.settled (by simp)
    | signal => exact hwait
    | timeout => exact hwait
  | announcing peer characteristics message =>
    have hwait : Proceeds g [] (.announcing peer characteristics message) := hh.waits hf rfl
    cases w with
    | reply r =>
      simp only [resume]
      split
      · have hb : ({ g with busy := false } : Gateway).Bound :=
          ⟨hf.1.session, hf.1.link, hf.1.powered⟩
        exact .connected ⟨⟨hb.settled, hh.paused.trans hb.session.symm⟩, rfl,
          nofun, hh.scanning, nofun, hh.orderly⟩ hb
      · exact abandon_leads hh hf.1.settled (by simp)
    | signal => exact hwait
    | timeout => exact hwait
  | unwinding e s =>
    exact unwind_leads Teardown.resume_events hf.2.2
      (hh.teardown (Teardown.resume_ends hf.1 h.orderly hw))
  | _ => cases hs

/-- Whatever the loop waits for, the gateway agrees with where it goes on. -/
theorem resume_leads {w : Wake} (h : Agrees taken scans g stage)
    (hw : w = .signal → stage.signalled g = true) :
    (resume m g stage w).Leads fun g' _ stage' => Agrees taken scans g' stage' := by
  cases hs : stage.holdsRadio with
  | true =>
    have ht := h.untaken hs
    have hscans := h.still ht
    subst taken scans
    exact (resume_proceeds h hs hw).imp fun _ _ _ hp => hp.agrees
  | false =>
    have hf := h.fits
    have single (hc : stage.isSingle = true) :
        (resume m g stage w).Leads fun g' _ stage' => Agrees taken scans g' stage' := by
      have hr := h.rested hs hc
      exact resume_single hc h (fun _ => hr) (fun _ => (report_leads hr).imp fun _ _ _ hl => hl.1)
        fun _ _ => answer_leads hr
    cases stage with
    | receiving =>
      cases w with
      | signal =>
        simp only [resume]
        split
        · rename_i inbox _
          exact dispatch_leads (h.undisturbed (.of_inbox g inbox))
        · exact h
      | reply r => exact h
      | timeout => exact h
    | acquiring peer wasPaused giveUp deadline =>
      cases w with
      | timeout => exact (acquire_leads h).imp fun _ _ _ hl => hl.1
      | signal => exact h
      | reply r => exact h
    | leaving s =>
      refine leave_leads Teardown.resume_events ((Teardown.resume_ends hf.1 h.orderly hw).imp
        (fun _ _ h' => h.leaving rfl h'.1 h'.2) fun _ _ h' => h.leaving rfl h'.1 h'.2)
    | parting message | writing connection handle data | reading uuid connection handle
    | answering uuid value message | reporting message => exact single rfl
    | _ => cases hs

end GattGateway.Serving
