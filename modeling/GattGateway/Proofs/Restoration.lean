import GattGateway.Proofs.Handling
import GattGateway.Proofs.PowerDown
import GattGateway.Proofs.Readiness

/-!
# Readiness comes back

The two loops turn the readiness off before they use the radio. On a link that stays up they turn it
on again in the first poll after every use, however that has ended, so that a gateway that has come
up ready is ready whenever nobody holds the radio.
-/
namespace GattGateway

open Segment

variable {m : Moment} {g g' : Gateway} {w : Wake}

/-- A routine that has finished and has told nothing, inside a longer one. -/
theorem Segment.andThen_of_result {σ ρ τ π : Type} {s : Segment σ ρ} {lift : σ → τ}
    {next : Gateway → ρ → Segment τ π} {result : ρ} (silent : s.events = [])
    (ended : s.turn.result? = some result) : s.andThen lift next = next s.gateway result := by
  rcases s with ⟨g, turn, events⟩
  cases silent
  cases turn with
  | wait stage => cases ended
  | finish found =>
    cases ended
    rfl

/-! ## Recoveries -/

/-- A recovery polls the link, and the link is up. -/
structure Moment.Survives (m : Moment) : Prop where
  polls : 0 < m.timing.recoveryPolls
  online : m.online = true

/-- The first poll finds that the link has been kept. -/
theorem Recovery.begin_kept (h : m.Survives) (hr : g.ready = false) :
    begin m g = .finish { g with ready := true } .kept := by
  obtain ⟨n, hn⟩ := Nat.exists_eq_succ_of_ne_zero (Nat.pos_iff_ne_zero.1 h.polls)
  simp [begin, hn, poll, h.online, hr]

theorem Recovery.begin_readies (h : m.Survives) (hr : g.ready = false) :
    (begin m g).Ends (fun _ _ => False) fun g' _ => g'.ready = true := by
  rw [begin_kept h hr]
  exact rfl

/-! ## One segment of a loop -/

/-- The readiness is as it was, and the loop neither uses the radio nor recovers. -/
structure Untouched (g g' : Gateway) (uses recovers : Bool) : Prop where
  ready : g'.ready = g.ready
  rests : uses = false
  settled : recovers = false

/-- The readiness is off exactly while the loop uses the radio, and no recovery waits for another
poll. -/
structure Restored (g : Gateway) (uses recovers : Bool) : Prop where
  ready : g.ready = !uses
  settled : recovers = false

theorem Untouched.restored {uses recovers : Bool} (h : Untouched g g' uses recovers)
    (hr : g.ready = true) : Restored g' uses recovers :=
  ⟨by rw [h.ready, hr, h.rests]; rfl, h.settled⟩

theorem Untouched.since {g₀ : Gateway} {uses recovers : Bool} (h : Untouched g g' uses recovers)
    (hr : g.ready = g₀.ready) : Untouched g₀ g' uses recovers :=
  ⟨h.ready.trans hr, h.rests, h.settled⟩

/-- A loop that does not use the radio leaves the readiness alone, or it gets hold of the radio, or
has it, and minds the readiness. -/
def Minds (held : Prop) (uses : Bool) (g g' : Gateway) (uses' recovers' : Bool) : Prop :=
  uses = false ∧ Untouched g g' uses' recovers' ∨ held ∧ Restored g' uses' recovers'

theorem Minds.since {g₀ : Gateway} {held held' : Prop} {uses uses' recovers' : Bool}
    (h : Minds held uses g g' uses' recovers') (hr : g.ready = g₀.ready) (hh : held → held') :
    Minds held' uses g₀ g' uses' recovers' :=
  h.imp (fun h => ⟨h.1, h.2.since hr⟩) fun h => ⟨hh h.1, h.2⟩

namespace Sweep

theorem close_flags {heard : Except RadioFault Collector} :
    (close g heard).Ends (fun g' _ => g.SameFlags g') fun g' _ => g.SameFlags g' := by
  unfold close
  dsimp only
  split_ifs
  · exact ⟨rfl, rfl⟩
  · exact ⟨rfl, rfl⟩

theorem begin_flags : (begin m g).Ends (fun g' _ => g.SameFlags g') fun g' _ => g.SameFlags g' := by
  unfold begin
  dsimp only
  split_ifs
  · exact ⟨rfl, rfl⟩
  · exact ⟨rfl, rfl⟩
  · exact ⟨rfl, rfl⟩

theorem resume_flags {stage : Stage} :
    (resume m g stage w).Ends (fun g' _ => g.SameFlags g') fun g' _ => g.SameFlags g' := by
  unfold resume
  split
  · split
    · exact ⟨rfl, rfl⟩
    · exact close_flags
  · exact ⟨rfl, rfl⟩
  · exact ⟨rfl, rfl⟩
  · exact close_flags
  · split
    · exact ⟨rfl, rfl⟩
    · exact ⟨rfl, rfl⟩
  · exact ⟨rfl, rfl⟩

end Sweep

namespace Autoscan

def Stage.recovers : Stage → Bool
  | .recovering _ _ => true
  | _ => false

variable {stage : Stage}

theorem holdsRadio_of_sweeps (h : stage.sweeps = true) : stage.holdsRadio = true := by
  cases stage with
  | sweeping s => rfl
  | _ => cases h

theorem report_untouched {e : Fault} :
    (report m g e).Leads fun g' _ stage => Untouched g g' stage.sweeps stage.recovers := by
  unfold report
  dsimp only
  rw [leads_telling]
  split
  · exact ⟨rfl, rfl, rfl⟩
  · exact ⟨rfl, rfl, rfl⟩

theorem publish_untouched {found : Sweep.Result} :
    (publish m g found).Leads fun g' _ stage => Untouched g g' stage.sweeps stage.recovers := by
  cases found with
  | error e => exact report_untouched
  | ok ds =>
    simp only [publish]
    split
    · exact ⟨rfl, rfl, rfl⟩
    · exact report_untouched

theorem recover_restores {found : Sweep.Result} (hm : m.Survives) (hr : g.ready = false) :
    (recover m found (Recovery.begin m g)).Leads fun g' _ stage =>
      Restored g' stage.sweeps stage.recovers :=
  (Recovery.begin_readies hm hr).leads Recovery.poll_events (fun _ _ h => h.elim)
    fun _ _ on => publish_untouched.imp fun _ _ _ h => h.restored on

theorem sweep_restores {s : Segment Sweep.Stage Sweep.Result} (hm : m.Survives)
    (silent : s.events = []) (hr : g.ready = false)
    (h : s.Ends (fun g' _ => g.SameFlags g') fun g' _ => g.SameFlags g') :
    (sweep m s).Leads fun g' _ stage => Restored g' stage.sweeps stage.recovers :=
  h.leads silent (fun _ _ hs => ⟨hs.1.trans hr, rfl⟩)
    fun _ _ hs => recover_restores hm (hs.1.trans hr)

theorem consider_minds (hm : m.Survives) :
    (consider m g).Leads fun g' _ stage =>
      Minds (g.busy = false) false g g' stage.sweeps stage.recovers := by
  unfold consider
  split_ifs with hr hp he
  · exact .inl ⟨rfl, rfl, rfl, rfl⟩
  · exact .inl ⟨rfl, rfl, rfl, rfl⟩
  · exact .inl ⟨rfl, rfl, rfl, rfl⟩
  · obtain ⟨-, free⟩ : g.paused = false ∧ g.busy = false := by simpa using hp
    unfold start
    rw [leads_telling]
    exact (sweep_restores hm Sweep.begin_events rfl Sweep.begin_flags).imp
      fun _ _ _ h => .inr ⟨free, h⟩

/-- Every segment of the loop that scans minds the readiness. -/
theorem resume_minds (hm : m.Survives) (settled : stage.recovers = false)
    (hr : stage.sweeps = true → g.ready = false) :
    (resume m g stage w).Leads fun g' _ stage' =>
      Minds (stage.holdsRadio = true ∨ g.busy = false) stage.sweeps g g' stage'.sweeps
        stage'.recovers := by
  have considers : stage.sweeps = false → (consider m g).Leads fun g' _ stage' =>
      Minds (stage.holdsRadio = true ∨ g.busy = false) stage.sweeps g g' stage'.sweeps
        stage'.recovers := by
    intro hs
    rw [hs]
    exact (consider_minds hm).imp fun _ _ _ h => h.since rfl .inr
  unfold resume
  split
  · exact considers rfl
  · exact considers rfl
  · exact (sweep_restores hm Sweep.resume_events (hr rfl) Sweep.resume_flags).imp
      fun _ _ _ h => .inr ⟨.inl rfl, h⟩
  · cases settled
  · split
    · exact .inl ⟨rfl, rfl, rfl, rfl⟩
    · exact report_untouched.imp fun _ _ _ h => .inl ⟨rfl, h⟩
  · exact .inl ⟨rfl, rfl, rfl, rfl⟩
  · cases hs : stage.sweeps with
    | false => exact .inl ⟨rfl, rfl, hs, settled⟩
    | true =>
      have waits : Restored g stage.sweeps stage.recovers := ⟨by rw [hr hs, hs]; rfl, settled⟩
      exact .inr ⟨.inl (holdsRadio_of_sweeps hs), waits⟩

/-- The recovery that begins or goes on in a segment of the loop. -/
def recovery? (m : Moment) (g : Gateway) (stage : Stage) (w : Wake) :
    Option (Segment Recovery.Stage Recovery.Outcome) :=
  match stage with
  | .recovering _ s => some (Recovery.resume m g s w)
  | stage =>
    (scan? m g stage w).bind fun s => s.turn.result?.map fun _ => Recovery.begin m s.gateway

/-- A scan begins with the readiness turned off, or it goes on. -/
theorem scan?_cases {s : Segment Sweep.Stage Sweep.Result} (h : scan? m g stage w = some s) :
    (∃ g₀ : Gateway, g₀.ready = false ∧ s = Sweep.begin m g₀) ∨
      ∃ before, stage = .sweeping before ∧ s = Sweep.resume m g before w := by
  have first (h : firstScan? m g = some s) :
      ∃ g₀ : Gateway, g₀.ready = false ∧ s = Sweep.begin m g₀ := by
    unfold firstScan? at h
    split_ifs at h
    cases h
    exact ⟨_, rfl, rfl⟩
  cases stage with
  | deciding =>
    cases w with
    | signal => exact .inl (first h)
    | _ => cases h
  | resting deadline =>
    cases w with
    | timeout => exact .inl (first h)
    | _ => cases h
  | sweeping before =>
    cases h
    exact .inr ⟨before, rfl, rfl⟩
  | _ => cases h

theorem scan?_events {s : Segment Sweep.Stage Sweep.Result} (h : scan? m g stage w = some s) :
    s.events = [] := by
  obtain ⟨g₀, -, rfl⟩ | ⟨before, -, rfl⟩ := scan?_cases h
  · exact Sweep.begin_events
  · exact Sweep.resume_events

theorem scan?_unready {s : Segment Sweep.Stage Sweep.Result}
    (hr : stage.sweeps = true → g.ready = false) (h : scan? m g stage w = some s) :
    s.gateway.ready = false := by
  obtain ⟨g₀, off, rfl⟩ | ⟨before, rfl, rfl⟩ := scan?_cases h
  · exact Sweep.begin_flags.gateway.1.trans off
  · exact Sweep.resume_flags.gateway.1.trans (hr rfl)

/-- The loop goes on with what comes of the recovery. -/
theorem resume_of_recovery? {r : Segment Recovery.Stage Recovery.Outcome}
    (h : recovery? m g stage w = some r) : ∃ found, resume m g stage w = recover m found r ∨
      resume m g stage w = telling .scanStarted (recover m found r) := by
  unfold recovery? at h
  split at h
  · rename_i found s
    cases h
    exact ⟨found, .inl rfl⟩
  · obtain ⟨s, scans, h⟩ := Option.bind_eq_some_iff.1 h
    obtain ⟨found, ended, rfl⟩ := Option.map_eq_some_iff.1 h
    have goes : sweep m s = recover m found (Recovery.begin m s.gateway) :=
      andThen_of_result (scan?_events scans) ended
    exact ⟨found, goes ▸ resume_of_scan? scans⟩

theorem recovery?_kept {r : Segment Recovery.Stage Recovery.Outcome} (hm : m.Survives)
    (settled : stage.recovers = false) (hr : stage.sweeps = true → g.ready = false)
    (h : recovery? m g stage w = some r) : r.turn = .finish .kept := by
  unfold recovery? at h
  split at h
  · cases settled
  · obtain ⟨s, scans, h⟩ := Option.bind_eq_some_iff.1 h
    obtain ⟨found, ended, rfl⟩ := Option.map_eq_some_iff.1 h
    rw [Recovery.begin_kept hm (scan?_unready hr scans)]
    rfl

end Autoscan

namespace Serving

/-- A connect sequence waits for the broker link. -/
def Stage.recovers : Stage → Bool
  | .recovering _ _ _ => true
  | _ => false

variable {stage : Stage} {peer : Peer}

theorem holdsRadio_of_dials (h : stage.dials = true) : stage.holdsRadio = true := by
  cases stage with
  | dialling peer s => rfl
  | _ => cases h

theorem report_untouched {e : Fault} :
    (report m g e).Leads fun g' _ stage => Untouched g g' stage.dials stage.recovers := by
  unfold report
  rw [leads_telling]
  split
  · exact ⟨rfl, rfl, rfl⟩
  · exact ⟨rfl, rfl, rfl⟩

theorem send_untouched {name : TopicName} {payload : Text.Bytes} {next : Message → Stage}
    (hn : ∀ message, (next message).dials = false ∧ (next message).recovers = false) :
    (send m g name payload next).Leads fun g' _ stage =>
      Untouched g g' stage.dials stage.recovers := by
  unfold send
  split
  · exact ⟨rfl, (hn _).1, (hn _).2⟩
  · exact report_untouched

theorem answer_untouched {uuid : CanonicalUuid} {value : Text.Bytes} :
    (answer m g uuid value).Leads fun g' _ stage => Untouched g g' stage.dials stage.recovers :=
  send_untouched fun _ => ⟨rfl, rfl⟩

theorem unwind_untouched {e : Fault} {s : Segment Teardown.Stage Unit} (silent : s.events = [])
    (h : s.Ends (fun g' _ => g.SameFlags g') fun g' _ => g.SameFlags g') :
    (unwind m e s).Leads fun g' _ stage => Untouched g g' stage.dials stage.recovers :=
  h.leads silent (fun _ _ hs => ⟨hs.1, rfl, rfl⟩) fun g₁ _ hs =>
    (report_untouched (g := { g₁ with paused := false, busy := false })).imp
      fun _ _ _ h => h.since hs.1

theorem abandon_untouched {e : Fault} :
    (abandon m g e).Leads fun g' _ stage => Untouched g g' stage.dials stage.recovers :=
  unwind_untouched Teardown.begin_events Teardown.begin_flags

theorem announce_untouched {ds : List Descriptor} :
    (announce m g peer ds).Leads fun g' _ stage => Untouched g g' stage.dials stage.recovers := by
  have same : (g.forwardAll ds).ready = g.ready := (g.forwardAll_kept ds).sameFlags.1
  unfold announce
  dsimp only
  split
  · exact ⟨same, rfl, rfl⟩
  · exact abandon_untouched.imp fun _ _ _ h => h.since same

theorem subscribeTo_untouched {ds : List Descriptor} {name : TopicName} :
    (subscribeTo m g peer ds name).Leads fun g' _ stage =>
      Untouched g g' stage.dials stage.recovers := by
  unfold subscribeTo
  split
  · exact ⟨rfl, rfl, rfl⟩
  · exact abandon_untouched

theorem settle_restores {found : Dial.Result} (hm : m.Survives) (hr : g.ready = false) :
    (settle m peer found (Recovery.begin m g)).Leads fun g' _ stage =>
      Restored g' stage.dials stage.recovers := by
  refine (Recovery.begin_readies hm hr).leads Recovery.poll_events (fun _ _ h => h.elim)
    fun g₁ outcome on => ?_
  cases found with
  | error e => exact abandon_untouched.imp fun _ _ _ h => h.restored on
  | ok ds =>
    dsimp only
    split_ifs
    · exact abandon_untouched.imp fun _ _ _ h => h.restored on
    · exact announce_untouched.imp fun _ _ _ h => h.restored on
    · exact subscribeTo_untouched.imp fun _ _ _ h => h.restored on

theorem dial_restores {s : Segment Dial.Stage Dial.Result} (hm : m.Survives)
    (silent : s.events = []) (hr : g.ready = false)
    (h : s.Ends (fun g' _ => g.SameFlags g') fun g' _ => g.SameFlags g') :
    (dial m peer s).Leads fun g' _ stage => Restored g' stage.dials stage.recovers :=
  h.leads silent (fun _ _ hs => ⟨hs.1.trans hr, rfl⟩)
    fun _ _ hs => settle_restores hm (hs.1.trans hr)

theorem clear_minds {held : Prop} {s : Segment Teardown.Stage Unit} (hm : m.Survives)
    (silent : s.events = []) (hh : held)
    (h : s.Ends (fun g' _ => g.SameFlags g') fun g' _ => g.SameFlags g') :
    (clear m peer s).Leads fun g' _ stage =>
      Minds held false g g' stage.dials stage.recovers := by
  refine h.leads silent (fun _ _ hs => .inl ⟨rfl, hs.1, rfl, rfl⟩) fun g₁ _ _ => ?_
  have dialled : (dial m peer (Dial.begin m { g₁ with ready := false } peer)).Leads
      fun g' _ stage => Restored g' stage.dials stage.recovers :=
    dial_restores hm Dial.begin_events rfl Dial.begin_flags
  exact dialled.imp fun _ _ _ h => .inr ⟨hh, h⟩

theorem acquire_minds {wasPaused : Bool} {giveUp : Instant} (hm : m.Survives) :
    (acquire m g peer wasPaused giveUp).Leads fun g' _ stage =>
      Minds (g.busy = false) false g g' stage.dials stage.recovers := by
  unfold acquire
  split_ifs with hb
  · have free : g.busy = false := by simpa using hb
    exact clear_minds hm Teardown.begin_events free Teardown.begin_flags
  · exact report_untouched.imp fun _ _ _ h => .inl ⟨rfl, h.since rfl⟩
  · exact .inl ⟨rfl, rfl, rfl, rfl⟩

theorem leave_untouched {s : Segment Teardown.Stage Unit} (silent : s.events = [])
    (h : s.Ends (fun g' _ => g.SameFlags g') fun g' _ => g.SameFlags g') :
    (leave m s).Leads fun g' _ stage => Untouched g g' stage.dials stage.recovers := by
  refine h.leads silent (fun _ _ hs => ⟨hs.1, rfl, rfl⟩) fun g₁ _ hs => ?_
  exact (send_untouched fun _ => ⟨rfl, rfl⟩).imp fun _ _ _ h => h.since hs.1

theorem dispatch_minds {r : Request} (hm : m.Survives) :
    (dispatch m g r).Leads fun g' _ stage =>
      Minds (g.busy = false) false g g' stage.dials stage.recovers := by
  have untouched {s : Step}
      (hs : s.Leads fun g' _ stage => Untouched g g' stage.dials stage.recovers) :
      s.Leads fun g' _ stage => Minds (g.busy = false) false g g' stage.dials stage.recovers :=
    hs.imp fun _ _ _ h => .inl ⟨rfl, h⟩
  unfold dispatch
  split
  · exact untouched ⟨rfl, rfl, rfl⟩
  · rename_i command hcommand
    cases command with
    | connect peer => exact (acquire_minds hm).imp fun _ _ _ h => h.since rfl id
    | disconnect => exact untouched (leave_untouched Teardown.begin_events Teardown.begin_flags)
    | write uuid data =>
      simp only [handle]
      split
      · exact untouched ⟨rfl, rfl, rfl⟩
      · exact untouched ⟨rfl, rfl, rfl⟩
    | read uuid =>
      simp only [handle]
      split
      · exact untouched ⟨rfl, rfl, rfl⟩
      · exact untouched answer_untouched
  · exact untouched report_untouched

/-- Every segment of the loop that serves minds the readiness. -/
theorem resume_minds (hm : m.Survives) (settled : stage.recovers = false)
    (hr : stage.dials = true → g.ready = false) :
    (resume m g stage w).Leads fun g' _ stage' =>
      Minds (stage.holdsRadio = true ∨ g.busy = false) stage.dials g g' stage'.dials
        stage'.recovers := by
  have waits (hd : stage.dials = false) :
      Minds (stage.holdsRadio = true ∨ g.busy = false) stage.dials g g stage.dials stage.recovers :=
    .inl ⟨hd, rfl, hd, settled⟩
  have untouched {s : Step} (hd : stage.dials = false)
      (hs : s.Leads fun g' _ stage' => Untouched g g' stage'.dials stage'.recovers) :
      s.Leads fun g' _ stage' => Minds (stage.holdsRadio = true ∨ g.busy = false) stage.dials g g'
        stage'.dials stage'.recovers :=
    hs.imp fun _ _ _ h => .inl ⟨hd, h⟩
  cases stage with
  | receiving =>
    cases w with
    | signal =>
      simp only [resume]
      split
      · exact (dispatch_minds hm).imp fun _ _ _ h => h.since rfl .inr
      · exact waits rfl
    | reply r => exact waits rfl
    | timeout => exact waits rfl
  | acquiring peer wasPaused giveUp deadline =>
    cases w with
    | timeout => exact (acquire_minds hm).imp fun _ _ _ h => h.since rfl .inr
    | signal => exact waits rfl
    | reply r => exact waits rfl
  | clearing peer s =>
    exact clear_minds hm Teardown.resume_events (.inl rfl) Teardown.resume_flags
  | dialling peer s =>
    exact (dial_restores hm Dial.resume_events (hr rfl) Dial.resume_flags).imp
      fun _ _ _ h => .inr ⟨.inl rfl, h⟩
  | recovering peer found s => cases settled
  | subscribing peer ds name topic =>
    cases w with
    | reply r =>
      simp only [resume]
      split
      · split_ifs
        · exact untouched rfl subscribeTo_untouched
        · exact untouched rfl (announce_untouched.imp fun _ _ _ h => h.since rfl)
      · exact untouched rfl abandon_untouched
    | signal => exact waits rfl
    | timeout => exact waits rfl
  | announcing peer characteristics message =>
    cases w with
    | reply r =>
      simp only [resume]
      split
      · exact untouched rfl ⟨rfl, rfl, rfl⟩
      · exact untouched rfl abandon_untouched
    | signal => exact waits rfl
    | timeout => exact waits rfl
  | unwinding e s =>
    exact untouched rfl (unwind_untouched Teardown.resume_events Teardown.resume_flags)
  | leaving s => exact untouched rfl (leave_untouched Teardown.resume_events Teardown.resume_flags)
  | parting message | writing connection handle data | reading uuid connection handle
  | answering uuid value message | reporting message =>
    exact resume_single rfl (waits rfl) (fun _ => .inl ⟨rfl, rfl, rfl, rfl⟩)
      (fun _ => untouched rfl report_untouched) fun _ _ => untouched rfl answer_untouched

/-- The recovery that begins or goes on in a segment of the loop. -/
def recovery? (m : Moment) (g : Gateway) (stage : Stage) (w : Wake) :
    Option (Segment Recovery.Stage Recovery.Outcome) :=
  match stage with
  | .recovering _ _ s => some (Recovery.resume m g s w)
  | stage =>
    (attempt? m g stage w).bind fun (_, s) =>
      s.turn.result?.map fun _ => Recovery.begin m s.gateway

/-- An attempt to connect begins with the readiness turned off, or it goes on. -/
theorem attempt?_cases {s : Segment Dial.Stage Dial.Result}
    (h : attempt? m g stage w = some (peer, s)) :
    (∃ g₀ : Gateway, g₀.ready = false ∧ s = Dial.begin m g₀ peer) ∨
      ∃ before, stage = .dialling peer before ∧ s = Dial.resume m g before w := by
  unfold attempt? at h
  split at h
  · cases h
    exact .inr ⟨_, rfl, rfl⟩
  · split at h
    · split at h
      · cases h
        exact .inl ⟨_, rfl, rfl⟩
      · cases h
    · cases h

theorem attempt?_events {s : Segment Dial.Stage Dial.Result}
    (h : attempt? m g stage w = some (peer, s)) : s.events = [] := by
  obtain ⟨g₀, -, rfl⟩ | ⟨before, -, rfl⟩ := attempt?_cases h
  · exact Dial.begin_events
  · exact Dial.resume_events

theorem attempt?_unready {s : Segment Dial.Stage Dial.Result}
    (hr : stage.dials = true → g.ready = false) (h : attempt? m g stage w = some (peer, s)) :
    s.gateway.ready = false := by
  obtain ⟨g₀, off, rfl⟩ | ⟨before, rfl, rfl⟩ := attempt?_cases h
  · exact Dial.begin_flags.gateway.1.trans off
  · exact Dial.resume_flags.gateway.1.trans (hr rfl)

/-- The loop goes on with what comes of the recovery. -/
theorem resume_of_recovery? {r : Segment Recovery.Stage Recovery.Outcome}
    (h : recovery? m g stage w = some r) :
    ∃ peer found, resume m g stage w = settle m peer found r := by
  unfold recovery? at h
  split at h
  · rename_i peer found s
    cases h
    exact ⟨peer, found, rfl⟩
  · obtain ⟨⟨peer, s⟩, attempts, h⟩ := Option.bind_eq_some_iff.1 h
    obtain ⟨found, ended, rfl⟩ := Option.map_eq_some_iff.1 h
    have goes : dial m peer s = settle m peer found (Recovery.begin m s.gateway) :=
      andThen_of_result (attempt?_events attempts) ended
    exact ⟨peer, found, (resume_of_attempt? attempts).trans goes⟩

theorem recovery?_kept {r : Segment Recovery.Stage Recovery.Outcome} (hm : m.Survives)
    (settled : stage.recovers = false) (hr : stage.dials = true → g.ready = false)
    (h : recovery? m g stage w = some r) : r.turn = .finish .kept := by
  unfold recovery? at h
  split at h
  · cases settled
  · obtain ⟨⟨peer, s⟩, attempts, h⟩ := Option.bind_eq_some_iff.1 h
    obtain ⟨found, ended, rfl⟩ := Option.map_eq_some_iff.1 h
    rw [Recovery.begin_kept hm (attempt?_unready hr attempts)]
    rfl

end Serving

/-! ## Handshakes -/

/-- The broker refuses what it has been asked for. -/
def Wake.refuses : Wake → Bool
  | .reply (.linkFault _) => true
  | _ => false

theorem Wake.refuses_of_link {r : Reply} {e : LinkFault} (h : r.link = .error e) :
    (Wake.reply r).refuses = true := by
  cases r with
  | linkFault e => rfl
  | _ => cases h

namespace Greeting

/-- A handshake that has not yet turned the readiness on. -/
def Stage.subscribes : Stage → Bool
  | .subscribing _ _ => true
  | .announcing _ => false

/-- How a handshake goes on. -/
inductive Goes (g : Gateway) (stage : Stage) (w : Wake) : Segment Stage Result → Prop
  | subscribes {name : TopicName} {topic : Topic} (before : stage.subscribes = true) :
      Goes g stage w (.wait g (.subscribing name topic))
  | announces {message : Message} (before : stage.subscribes = true) :
      Goes g stage w (.wait { g with ready := true } (.announcing message))
  | waits (before : stage.subscribes = false) : Goes g stage w (.wait g stage)
  | ends (before : stage.subscribes = false) : Goes g stage w (.finish g (.ok ()))
  | fails {e : Fault} (refused : w.refuses = true) : Goes g stage w (.finish g (.error e))

variable {stage : Stage}

theorem subscribeTo_goes {name : TopicName} (before : stage.subscribes = true) :
    Goes g stage w (subscribeTo m g name) := by
  simp only [subscribeTo, m.topics.topic_eq]
  exact .subscribes before

theorem announce_goes (before : stage.subscribes = true) : Goes g stage w (announce m g) := by
  simp only [announce, m.topics.topic_eq]
  exact .announces before

theorem resume_goes : Goes g stage w (resume m g stage w) := by
  cases stage with
  | subscribing name topic =>
    cases w with
    | reply r =>
      simp only [resume]
      split
      · cases name with
        | connect => exact subscribeTo_goes rfl
        | disconnect =>
          simp only [proceed]
          split_ifs
          · exact subscribeTo_goes rfl
          · exact announce_goes rfl
        | writeFilter => exact subscribeTo_goes rfl
        | _ => exact announce_goes rfl
      · exact .fails (Wake.refuses_of_link ‹_›)
    | signal => exact .subscribes rfl
    | timeout => exact .subscribes rfl
  | announcing message =>
    cases w with
    | reply r =>
      simp only [resume]
      split
      · exact .ends rfl
      · exact .fails (Wake.refuses_of_link ‹_›)
    | signal => exact .waits rfl
    | timeout => exact .waits rfl

end Greeting

namespace Startup

/-- The handshake of the startup has turned the readiness on. -/
def Stage.announces : Stage → Bool
  | .greeting s => !s.subscribes
  | _ => false

/-- The startup comes to its last call by turning the readiness on, and then leaves it alone. -/
theorem resume_announces {stage : Stage} :
    (resume m g stage w).Ends
      (fun g' next => next.announces = true →
        g'.ready = true ∨ stage.announces = true ∧ g'.ready = g.ready)
      fun g' _ => stage.announces = true ∧ g'.ready = g.ready := by
  have before {next : Stage} {g' : Gateway} (h : next.announces = false) :
      next.announces = true → g'.ready = true ∨ stage.announces = true ∧ g'.ready = g.ready :=
    fun announces => absurd announces (by simp [h])
  cases stage with
  | starting => cases w <;> exact before rfl
  | resting deadline => cases w <;> exact before rfl
  | joining =>
    cases w with
    | reply r =>
      simp only [resume]
      split
      · obtain ⟨topic, -, begins⟩ := Greeting.begin_eq m g
        rw [begins]
        exact before rfl
      · exact before rfl
    | signal => exact before rfl
    | timeout => exact before rfl
  | greeting s =>
    have goes : Greeting.Goes g s w (Greeting.resume m g s w) := Greeting.resume_goes
    simp only [resume]
    generalize Greeting.resume m g s w = segment at goes ⊢
    cases goes with
    | subscribes _ => exact before rfl
    | announces _ => exact fun _ => .inl rfl
    | waits _ => exact fun h => .inr ⟨h, rfl⟩
    | ends announcing => exact ⟨by simp [Stage.announces, announcing], rfl⟩
    | fails _ => exact before rfl

end Startup

/-! ## Every state of a run -/

/-- A handshake beside the loops fails while the startup announces the gateway, and has not turned
the readiness on again. -/
def Step.spoils (t : Step) : Bool :=
  match t.move with
  | .greeting i w => t.before.startup.any (·.announces) && w.refuses &&
      t.before.greetings[i]?.any (·.subscribes)
  | _ => false

/-- The readiness is on, or a handshake beside the loops is about to turn it on. -/
def System.Lit (s : System) : Prop :=
  s.gateway.ready = true ∨ ∃ stage ∈ s.greetings, stage.subscribes = true

/-- What is known of the readiness while the gateway comes up and when it is up. -/
structure System.Minded (s : System) : Prop where
  rests : s.startup.isSome = true → s.autoscan.sweeps = false ∧ s.serving.dials = false
  lit : s.startup.any (·.announces) = true → s.Lit
  settled : s.autoscan.recovers = false ∧ s.serving.recovers = false
  ready : s.startup = none → s.gateway.ready = !(s.autoscan.sweeps || s.serving.dials)

/-- Once the gateway is up its link is up, and no handshake runs. -/
def System.Calm (s : System) : Prop := s.startup = none → s.online = true ∧ s.greetings = []

instance : DecidablePred System.Calm := fun _ => inferInstanceAs (Decidable (_ → _))

/-- After the startup the link stays up and no handshake runs. -/
def Steady (past : List Step) (s : System) : Prop := ∀ t ∈ Run.states past s, t.Calm

instance (past : List Step) (s : System) : Decidable (Steady past s) :=
  inferInstanceAs (Decidable (∀ t ∈ Run.states past s, t.Calm))

variable {setup : Setup} {past earlier : List Step} {s s' t : System} {move : Move}
  {told : List Event}

theorem Run.states_subset (ht : t ∈ Run.states past s) (hs : earlier <:+ past) :
    Run.states earlier t ⊆ Run.states past s := by
  intro u hu
  rcases List.mem_cons.1 hu with rfl | hu
  · exact ht
  · obtain ⟨v, hv, rfl⟩ := List.mem_map.1 hu
    exact List.mem_cons_of_mem _ (List.mem_map_of_mem (hs.subset hv))

namespace System

theorem minded_initial (online : Bool) : (initial online).Minded where
  rests _ := ⟨rfl, rfl⟩
  lit := nofun
  settled := ⟨rfl, rfl⟩
  ready := nofun

/-- What changes neither the readiness nor the strands that have to do with it. -/
theorem Minded.frame (h : s.Minded) (hstartup : s'.startup = s.startup)
    (ha : s'.autoscan.sweeps = s.autoscan.sweeps) (hr : s'.autoscan.recovers = s.autoscan.recovers)
    (hserving : s'.serving = s.serving) (hg : s'.greetings = s.greetings)
    (hready : s'.gateway.ready = s.gateway.ready) : s'.Minded where
  rests := by
    rw [hstartup, ha, hserving]
    exact h.rests
  lit := by
    rw [hstartup, Lit, hready, hg]
    exact h.lit
  settled := by
    rw [hr, hserving]
    exact h.settled
  ready := by
    rw [hstartup, hready, ha, hserving]
    exact h.ready

/-! ## Moves -/

/-- The handshake of the startup goes on. -/
theorem Minded.startup {stage : Startup.Stage} {w : Wake} {s₁ : System}
    {segment : Segment Startup.Stage Unit} (h : s.Minded) (present : s.startup = some stage)
    (hs₁ : s.answered stage.call? w = s₁)
    (ran : Startup.resume (s₁.moment setup) s.gateway stage w = segment)
    (calm : { s₁ with gateway := segment.gateway, startup := segment.turn.stage? }.Calm) :
    { s₁ with gateway := segment.gateway, startup := segment.turn.stage? }.Minded := by
  have rests := h.rests (by rw [present]; rfl)
  have settled := h.settled
  have lit (before : stage.announces = true) : s.Lit := h.lit (by simpa [present] using before)
  have announces : segment.Ends
      (fun g' next => next.announces = true →
        g'.ready = true ∨ stage.announces = true ∧ g'.ready = s.gateway.ready)
      fun g' _ => stage.announces = true ∧ g'.ready = s.gateway.ready :=
    ran ▸ Startup.resume_announces
  subst hs₁
  rcases segment with ⟨g', turn, events⟩
  cases turn with
  | wait next =>
    refine ⟨fun _ => by simpa using rests, fun after => ?_, by simpa using settled, nofun⟩
    rcases announces after with on | ⟨before, same⟩
    · exact .inl on
    · exact (lit before).imp same.trans (by simp)
  | finish result =>
    obtain ⟨before, same⟩ := announces
    refine ⟨nofun, nofun, by simpa using settled, fun up => ?_⟩
    have alone : s.greetings = [] := by simpa using (calm up).2
    have on : s.gateway.ready = true := (lit before).resolve_right (by simp [alone])
    simpa [rests] using same.trans on

/-- Another handshake than the one that goes on is still there. -/
theorem mem_greetings_of_ne {l : List Greeting.Stage} {i : Nat} {stage other : Greeting.Stage}
    {next? : Option Greeting.Stage} (present : l[i]? = some stage) (ho : other ∈ l)
    (ne : other ≠ stage) :
    other ∈ match next? with
      | some next => l.set i next
      | none => l.eraseIdx i := by
  obtain ⟨j, hj⟩ := List.mem_iff_getElem?.1 ho
  have apart : i ≠ j := by
    rintro rfl
    exact ne (Option.some.inj (hj.symm.trans present))
  cases next? with
  | some next => exact List.mem_of_getElem? ((List.getElem?_set_ne apart).trans hj)
  | none => exact List.mem_eraseIdx_iff_getElem?.2 ⟨j, apart.symm, hj⟩

/-- A handshake beside the startup goes on, and has not failed before its time. -/
theorem Lit.greeting {i : Nat} {stage : Greeting.Stage} {w : Wake} {s₁ : System}
    {segment : Segment Greeting.Stage Greeting.Result} (h : s.Lit)
    (present : s.greetings[i]? = some stage)
    (unspoilt : stage.subscribes = true → w.refuses = false)
    (goes : Greeting.Goes s.gateway stage w segment) :
    { s₁ with
      gateway := segment.gateway
      greetings := match segment.turn.stage? with
        | some next => s.greetings.set i next
        | none => s.greetings.eraseIdx i }.Lit := by
  have bound : i < s.greetings.length := (List.getElem?_eq_some_iff.1 present).1
  have others (before : stage.subscribes = false)
      (ho : ∃ other ∈ s.greetings, other.subscribes = true) :
      ∃ other ∈ (match segment.turn.stage? with
        | some next => s.greetings.set i next
        | none => s.greetings.eraseIdx i), other.subscribes = true := by
    obtain ⟨other, ho, subscribes⟩ := ho
    have ne : other ≠ stage := by
      rintro rfl
      exact absurd subscribes (by simp [before])
    exact ⟨other, mem_greetings_of_ne present ho ne, subscribes⟩
  cases goes with
  | subscribes before => exact .inr ⟨_, List.mem_set bound _, rfl⟩
  | announces before => exact .inl rfl
  | waits before => exact h.imp_right (others before)
  | ends before => exact h.imp_right (others before)
  | fails refused =>
    refine h.imp_right (others ?_)
    by_contra hs
    simp [unspoilt (by simpa using hs)] at refused

/-- While the gateway comes up a handshake begins beside it. -/
theorem Minded.greet (h : s.Minded) (calm : (s.greet setup).Calm) : (s.greet setup).Minded := by
  obtain ⟨topic, -, begins⟩ := Greeting.begin_eq (s.moment setup) s.gateway
  have greets : (s.greet setup).greetings = s.greetings ++ [.subscribing .connect topic] := by
    simp [System.greet, begins, wait, Turn.stage?]
  refine ⟨h.rests, fun _ => .inr ⟨.subscribing .connect topic, by simp [greets], rfl⟩, h.settled,
    fun up => ?_⟩
  have alone := (calm up).2
  simp [greets] at alone

/-- A handshake beside the startup goes on. -/
theorem Minded.greeting {i : Nat} {stage : Greeting.Stage} {w : Wake} {s₁ : System}
    {segment : Segment Greeting.Stage Greeting.Result} (h : s.Minded) (calm : s.Calm)
    (present : s.greetings[i]? = some stage) (hs₁ : s.answered stage.call? w = s₁)
    (ran : Greeting.resume (s₁.moment setup) s.gateway stage w = segment)
    (unspoilt : Step.spoils ⟨s, .greeting i w, told, s'⟩ = false) :
    { s₁ with
      gateway := segment.gateway
      greetings := match segment.turn.stage? with
        | some next => s.greetings.set i next
        | none => s.greetings.eraseIdx i }.Minded := by
  have goes : Greeting.Goes s.gateway stage w segment := ran ▸ Greeting.resume_goes
  have rests := h.rests
  have settled := h.settled
  subst hs₁
  refine ⟨by simpa using rests, fun announces => ?_, by simpa using settled, fun up => ?_⟩
  · have announces : s.startup.any (·.announces) = true := by simpa using announces
    refine (h.lit announces).greeting present (fun before => ?_) goes
    simpa [Step.spoils, announces, present, before] using unspoilt
  · have alone := (calm (by simpa using up)).2
    simp [alone] at present

/-! ## The loops -/

theorem Coherent.serving_undialled (h : s.Coherent)
    (held : s.autoscan.holdsRadio = true ∨ s.gateway.busy = false) : s.serving.dials = false := by
  have rests : s.serving.holdsRadio = false := by
    rcases held with holds | free
    · exact (h.apart holds).2
    · have busy := h.busy
      rw [free] at busy
      exact (Bool.or_eq_false_iff.1 busy.symm).2
  by_contra hd
  simp [Serving.holdsRadio_of_dials (by simpa using hd)] at rests

theorem Coherent.autoscan_unswept (h : s.Coherent)
    (held : s.serving.holdsRadio = true ∨ s.gateway.busy = false) : s.autoscan.sweeps = false := by
  have rests : s.autoscan.holdsRadio = false := held.elim h.untaken h.untaken_of_idle
  by_contra hs
  simp [Autoscan.holdsRadio_of_sweeps (by simpa using hs)] at rests

theorem Minded.unready_of_sweeps (h : s.Minded) (up : s.startup = none)
    (hs : s.autoscan.sweeps = true) : s.gateway.ready = false := by
  simp [h.ready up, hs]

theorem Minded.unready_of_dials (h : s.Minded) (up : s.startup = none)
    (hd : s.serving.dials = true) : s.gateway.ready = false := by
  simp [h.ready up, hd]

theorem Minded.autoscan {w : Wake} {segment : Segment Autoscan.Stage Empty} (h : s.Minded)
    (hc : s.Coherent) (up : s.startup = none) (survives : (s.moment setup).Survives)
    (ran : Autoscan.resume (s.moment setup) s.gateway s.autoscan w = segment) :
    { s with gateway := segment.gateway, autoscan := segment.turn.stage }.Minded := by
  have ready := h.ready up
  have minds := Autoscan.resume_minds survives h.settled.1 (h.unready_of_sweeps up) (w := w)
  rw [ran] at minds
  rcases minds with ⟨unswept, hu⟩ | ⟨held, hr⟩
  · refine ⟨by simp [up], by simp [up], ⟨hu.settled, h.settled.2⟩, fun _ => ?_⟩
    simp only [hu.ready, ready, unswept, hu.rests]
  · refine ⟨by simp [up], by simp [up], ⟨hr.settled, h.settled.2⟩, fun _ => ?_⟩
    simp only [hr.ready, hc.serving_undialled held, Bool.or_false]

theorem Minded.serving {w : Wake} {s₁ : System} {segment : Segment Serving.Stage Empty}
    (h : s.Minded) (hc : s.Coherent) (up : s.startup = none)
    (hs₁ : s.answered s.serving.call? w = s₁) (survives : (s₁.moment setup).Survives)
    (ran : Serving.resume (s₁.moment setup) s.gateway s.serving w = segment) :
    { s₁ with gateway := segment.gateway, serving := segment.turn.stage }.Minded := by
  have ready := h.ready up
  have minds := Serving.resume_minds survives h.settled.2 (h.unready_of_dials up) (w := w)
  rw [ran] at minds
  subst hs₁
  have settled : (s.answered s.serving.call? w).autoscan.recovers = false := by
    rw [answered_autoscan]
    exact h.settled.1
  rcases minds with ⟨undialled, hu⟩ | ⟨held, hr⟩
  · refine ⟨by simp [up], by simp [up], ⟨settled, hu.settled⟩, fun _ => ?_⟩
    simp only [hu.ready, ready, undialled, hu.rests, answered_autoscan]
  · refine ⟨by simp [up], by simp [up], ⟨settled, hr.settled⟩, fun _ => ?_⟩
    simp only [hr.ready, answered_autoscan, hc.autoscan_unswept held, Bool.false_or]

theorem Calm.survives (h : s.Calm) (up : s.startup = none)
    (polls : 0 < setup.timing.recoveryPolls) : (s.moment setup).Survives :=
  ⟨polls, (h up).1⟩

/-- The same after a reply to the loop that serves, which never asks for the link. -/
theorem Calm.survives_answered {w : Wake} (h : s.Calm) (up : s.startup = none)
    (polls : 0 < setup.timing.recoveryPolls) :
    ((s.answered s.serving.call? w).moment setup).Survives :=
  ⟨polls, (answered_online (serving_call?_ne_openLink s.serving)).trans (h up).1⟩

theorem Minded.moved (h : s.Minded) (hc : s.Coherent) (polls : 0 < setup.timing.recoveryPolls)
    (calm : s.Calm) (calm' : s'.Calm) (hm : Moved setup s move s' told)
    (unspoilt : Step.spoils ⟨s, move, told, s'⟩ = false) : s'.Minded := by
  cases hm with
  | startup present woken ran => exact h.startup present rfl ran calm'
  | greeting present woken ran => exact h.greeting calm present rfl ran unspoilt
  | autoscan up woken ran => exact h.autoscan hc up (calm.survives up polls) ran
  | serving up woken ran => exact h.serving hc up rfl (calm.survives_answered up polls) ran
  | @worker _ _ segment up woken ran =>
    have hk : segment.Leads fun g' _ _ => Forwarding.Kept s.gateway g' :=
      ran ▸ Forwarding.resume_leads
    exact h.frame rfl rfl rfl rfl rfl (by rw [hk.rest])
  | hear r =>
    have same : (s.autoscan.hear r).sweeps = s.autoscan.sweeps ∧
        (s.autoscan.hear r).recovers = s.autoscan.recovers := by
      cases s.autoscan <;> exact ⟨rfl, rfl⟩
    exact h.frame rfl same.1 same.2 rfl rfl rfl
  | message inbox => exact h.frame rfl rfl rfl rfl rfl rfl
  | drop => exact h.frame rfl rfl rfl rfl rfl rfl
  | restore offline => exact h.frame rfl rfl rfl rfl rfl rfl
  | greet => exact h.greet calm'
  | rejoin offline =>
    have reconnected : s.reconnect.Minded := h.frame rfl rfl rfl rfl rfl rfl
    exact reconnected.greet calm'
  | peers alive => exact h.frame rfl rfl rfl rfl rfl rfl
  | tick d => exact h.frame rfl rfl rfl rfl rfl rfl

end System

theorem Run.minded (h : Run setup past s) (polls : 0 < setup.timing.recoveryPolls)
    (steady : Steady past s) (unspoilt : ∀ t ∈ past, t.spoils = false) : s.Minded := by
  induction h with
  | start online => exact System.minded_initial online
  | @step past s s' move told run moved ih =>
    have before : Steady past s := fun t ht =>
      steady t (states_subset (List.mem_cons_of_mem _ List.mem_cons_self) (List.suffix_cons _ _) ht)
    have minded := ih before fun t ht => unspoilt t (List.mem_cons_of_mem _ ht)
    exact minded.moved run.coherent polls (before s List.mem_cons_self)
      (steady s' List.mem_cons_self) (System.moved_of_move? moved) (unspoilt _ List.mem_cons_self)

/-- The recovery that begins or goes on in a step. -/
def Step.recovery? (setup : Setup) (t : Step) : Option (Segment Recovery.Stage Recovery.Outcome) :=
  match t.move with
  | .autoscan w =>
    Autoscan.recovery? (t.before.moment setup) t.before.gateway t.before.autoscan w
  | .serving w => Serving.recovery? ((t.before.answered t.before.serving.call? w).moment setup)
      t.before.gateway t.before.serving w
  | _ => none

theorem System.Minded.recovery?_kept {r : Segment Recovery.Stage Recovery.Outcome}
    (h : s.Minded) (polls : 0 < setup.timing.recoveryPolls) (calm : s.Calm)
    (hm : Moved setup s move s' told)
    (recovers : Step.recovery? setup ⟨s, move, told, s'⟩ = some r) : r.turn = .finish .kept := by
  cases hm with
  | autoscan up woken ran =>
    exact Autoscan.recovery?_kept (calm.survives up polls) h.settled.1 (h.unready_of_sweeps up)
      recovers
  | serving up woken ran =>
    exact Serving.recovery?_kept (calm.survives_answered up polls) h.settled.2
      (h.unready_of_dials up) recovers
  | _ => cases recovers

/-- The readiness is off only while the radio is used, and each recovery after a use finds at once
that the link has been kept. -/
structure Restores (setup : Setup) (past : List Step) (s : System) : Prop where
  /-- The readiness is off from the start of a scan or of an attempt to connect until its recovery,
  and at no other time. -/
  unready : ∀ t ∈ Run.states past s, t.startup = none →
    (t.gateway.ready = false ↔ t.autoscan.sweeps = true ∨ t.serving.dials = true)
  /-- The readiness is on whenever nobody holds the radio. -/
  free : ∀ t ∈ Run.states past s, t.startup = none → t.gateway.busy = false →
    t.gateway.ready = true
  /-- No recovery waits for a second poll. -/
  settled : ∀ t ∈ Run.states past s, t.autoscan.recovers = false ∧ t.serving.recovers = false
  kept : ∀ t ∈ past, ∀ r, t.recovery? setup = some r → r.turn = .finish .kept

/-- However the calls end, the readiness is restored on a link that stays up. -/
theorem Run.readiness_restored (h : Run setup past s) (polls : 0 < setup.timing.recoveryPolls)
    (steady : Steady past s) (unspoilt : ∀ t ∈ past, t.spoils = false) :
    Restores setup past s := by
  have minded {t : System} (ht : t ∈ states past s) : t.Coherent ∧ t.Minded := by
    obtain ⟨earlier, run, suffix⟩ := h.of_mem_states ht
    exact ⟨run.coherent, run.minded polls (fun u hu => steady u (states_subset ht suffix hu))
      fun u hu => unspoilt u (suffix.subset hu)⟩
  refine ⟨fun t ht up => ?_, fun t ht up free => ?_, fun t ht => (minded ht).2.settled,
    fun t ht r recovers => ?_⟩
  · rw [(minded ht).2.ready up, Bool.not_eq_false', Bool.or_eq_true]
  · obtain ⟨coherent, minded⟩ := minded ht
    rw [minded.ready up, coherent.autoscan_unswept (.inr free),
      coherent.serving_undialled (.inr free)]
    rfl
  · have before : t.before ∈ states past s := List.mem_cons_of_mem _ (List.mem_map_of_mem ht)
    obtain ⟨later, earlier, rfl⟩ := List.append_of_mem ht
    cases h.of_suffix (List.suffix_append later (t :: earlier)) with
    | step run moved =>
      exact (minded before).2.recovery?_kept polls (steady _ before) (System.moved_of_move? moved)
        recovers

/-- A scan whose start fails, as does the report of it, and an attempt to connect in vain. -/
def Move.failedUses : List Move :=
  bringUp ++ [.autoscan .signal, .autoscan (.reply (.radioFault .activation)),
    .autoscan (.reply (.linkFault .publish)), connectSample, .serving .signal,
    .serving (.reply .done), .tick 15000, .serving .timeout, .serving (.reply .done)]

theorem readiness_restored_after_failures : ∃ past s, Run .sample past s ∧
    0 < Setup.sample.timing.recoveryPolls ∧ Steady past s ∧ (∀ t ∈ past, t.spoils = false) ∧
    (past.filterMap (·.recovery? .sample)).length = 2 ∧ Restores .sample past s := by
  have hm : (System.trace? .sample [] (.initial false) Move.failedUses).any
      (fun (past, s) => decide (Steady past s) && past.all (!·.spoils) &&
        (past.filterMap (·.recovery? .sample)).length == 2) = true := by
    decide +kernel
  obtain ⟨past, s, run, hs⟩ := Run.exists_of_any hm
  obtain ⟨⟨steady, unspoilt⟩, recoveries⟩ :
      (Steady past s ∧ ∀ t ∈ past, t.spoils = false) ∧
        (past.filterMap (·.recovery? .sample)).length = 2 := by simpa using hs
  have polls : 0 < Setup.sample.timing.recoveryPolls := by decide
  exact ⟨past, s, run, polls, steady, unspoilt, recoveries,
    run.readiness_restored polls steady unspoilt⟩

/-- A handshake beside the startup is refused its first subscription while the status of the gateway
is published. -/
def Move.spoiltStartup : List Move :=
  [.startup .signal, .startup (.reply .done), .startup (.reply .done), .startup (.reply .done),
    .greet, .greeting 0 (.reply (.linkFault .subscribe)), .startup (.reply .done)]

theorem not_always_restored : ¬∀ past s, Run .sample past s → Steady past s →
    s.startup = none → s.gateway.busy = false → s.gateway.ready = true := by
  have hm : (System.trace? .sample [] (.initial false) Move.spoiltStartup).any
      (fun (past, s) => decide (Steady past s) && s.startup.isNone && !s.gateway.busy &&
        !s.gateway.ready) = true := by
    decide +kernel
  obtain ⟨past, s, run, hs⟩ := Run.exists_of_any hm
  obtain ⟨⟨⟨steady, up⟩, free⟩, unready⟩ : ((Steady past s ∧ s.startup = none) ∧
      s.gateway.busy = false) ∧ s.gateway.ready = false := by simpa using hs
  intro h
  exact absurd (h past s run steady up free) (by simp [unready])

end GattGateway
