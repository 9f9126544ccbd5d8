import GattGateway.Proofs.Serving

/-!
# What the serving loop does to the flags of the broker link

The serving loop turns the readiness on only where the link is up, and marks the topics of values as
subscribed only where the last of them has just been.
-/
namespace GattGateway

open Segment

variable {m : Moment} {g g' : Gateway}

/-- The flags of the broker link are as they were. -/
def Gateway.SameFlags (g g' : Gateway) : Prop :=
  g'.ready = g.ready ∧ g'.valueTopics = g.valueTopics

theorem Gateway.Kept.sameFlags (h : g.Kept g') : g.SameFlags g' :=
  ⟨by rw [h.rest], by rw [h.rest]⟩

namespace Teardown

theorem release_flags :
    (release g).Ends (fun g' _ => g.SameFlags g') fun g' _ => g.SameFlags g' := by
  unfold release
  dsimp only
  split_ifs
  · exact ⟨rfl, rfl⟩
  · exact ⟨rfl, rfl⟩

theorem hangUp_flags : (hangUp g).Ends (fun g' _ => g.SameFlags g') fun g' _ => g.SameFlags g' := by
  unfold hangUp
  split
  · exact ⟨rfl, rfl⟩
  · exact release_flags

theorem stopFrom_flags {first : Nat} :
    (stopFrom m g first).Ends (fun g' _ => g.SameFlags g') fun g' _ => g.SameFlags g' := by
  unfold stopFrom
  split
  · exact ⟨rfl, rfl⟩
  · exact hangUp_flags

theorem begin_flags : (begin m g).Ends (fun g' _ => g.SameFlags g') fun g' _ => g.SameFlags g' :=
  stopFrom_flags

theorem resume_flags {stage : Stage} {w : Wake} :
    (resume m g stage w).Ends (fun g' _ => g.SameFlags g') fun g' _ => g.SameFlags g' := by
  unfold resume
  split
  · exact stopFrom_flags
  · exact stopFrom_flags
  · exact release_flags
  · split
    · exact ⟨rfl, rfl⟩
    · exact ⟨rfl, rfl⟩
  · exact ⟨rfl, rfl⟩

end Teardown

namespace Dial

theorem fail_flags {e : Fault} :
    (fail g e).Ends (fun g' _ => g.SameFlags g') fun g' _ => g.SameFlags g' := by
  unfold fail
  dsimp only
  split_ifs
  · exact ⟨rfl, rfl⟩
  · exact ⟨rfl, rfl⟩

theorem begin_flags {peer : Peer} :
    (begin m g peer).Ends (fun g' _ => g.SameFlags g') fun g' _ => g.SameFlags g' := by
  unfold begin
  dsimp only
  split_ifs
  · exact ⟨rfl, rfl⟩
  · exact ⟨rfl, rfl⟩
  · exact ⟨rfl, rfl⟩

theorem resume_flags {stage : Stage} {w : Wake} :
    (resume m g stage w).Ends (fun g' _ => g.SameFlags g') fun g' _ => g.SameFlags g' := by
  unfold resume
  split
  · split
    · exact ⟨rfl, rfl⟩
    · exact fail_flags
  · split
    · exact ⟨rfl, rfl⟩
    · exact fail_flags
  · exact fail_flags
  · split
    · exact ⟨rfl, rfl⟩
    · exact ⟨rfl, rfl⟩
  · exact fail_flags
  · split
    · exact ⟨rfl, rfl⟩
    · exact ⟨rfl, rfl⟩
  · exact ⟨rfl, rfl⟩

end Dial

namespace Serving

/-- A connect sequence subscribes the topics of values only, each by its own name. -/
def Stage.Named (topics : Topics) : Stage → Prop
  | .subscribing _ _ name topic =>
    topics.topic name = .ok topic ∧ (name = .writeFilter ∨ name = .readFilter)
  | _ => True

/-- The readiness has not been turned on without a link, and the topics of values have not been
marked as subscribed. -/
structure Marked (m : Moment) (g g' : Gateway) : Prop where
  ready : g'.ready = true → g.ready = true ∨ m.online = true
  values : g'.valueTopics = true → g.valueTopics = true

/-- How the flags are after a segment, and what it goes on to subscribe. -/
structure Marks (m : Moment) (g g' : Gateway) (stage : Stage) : Prop extends Marked m g g' where
  named : stage.Named m.topics

theorem Marked.refl (g : Gateway) : Marked m g g := ⟨.inl, id⟩

variable {g₀ : Gateway}

theorem Marked.trans (h : Marked m g₀ g) (h' : Marked m g g') : Marked m g₀ g' :=
  ⟨fun hr => (h'.ready hr).elim h.ready .inr, fun hv => h.values (h'.values hv)⟩

theorem Marked.same (h : Marked m g₀ g) (hs : g.SameFlags g') : Marked m g₀ g' :=
  ⟨fun hr => h.ready (hs.1.symm.trans hr), fun hv => h.values (hs.2.symm.trans hv)⟩

theorem report_marks {e : Fault} (h : Marked m g₀ g) :
    (report m g e).Leads fun g' _ stage => Marks m g₀ g' stage := by
  unfold report
  rw [leads_telling]
  split
  · exact ⟨h, trivial⟩
  · exact ⟨h, trivial⟩

theorem send_marks {name : TopicName} {payload : Text.Bytes} {next : Message → Stage}
    (h : Marked m g₀ g) (hn : ∀ message, (next message).Named m.topics) :
    (send m g name payload next).Leads fun g' _ stage => Marks m g₀ g' stage := by
  unfold send
  split
  · exact ⟨h, hn _⟩
  · exact report_marks h

theorem answer_marks {uuid : CanonicalUuid} {value : Text.Bytes} (h : Marked m g₀ g) :
    (answer m g uuid value).Leads fun g' _ stage => Marks m g₀ g' stage :=
  send_marks h fun _ => trivial

theorem unwind_marks {e : Fault} {s : Segment Teardown.Stage Unit} (silent : s.events = [])
    (h : s.Ends (fun g' _ => Marked m g₀ g') fun g' _ => Marked m g₀ g') :
    (unwind m e s).Leads fun g' _ stage => Marks m g₀ g' stage :=
  h.leads silent (fun _ _ hm => ⟨hm, trivial⟩)
    fun _ _ hm => report_marks (hm.same ⟨rfl, rfl⟩)

theorem abandon_marks {e : Fault} (h : Marked m g₀ g) :
    (abandon m g e).Leads fun g' _ stage => Marks m g₀ g' stage :=
  unwind_marks Teardown.begin_events
    (Teardown.begin_flags.imp (fun _ _ hs => h.same hs) fun _ _ hs => h.same hs)

theorem announce_marks {peer : Peer} {ds : List Descriptor} (h : Marked m g₀ g) :
    (announce m g peer ds).Leads fun g' _ stage => Marks m g₀ g' stage := by
  have h' : Marked m g₀ (g.forwardAll ds) := h.same (g.forwardAll_kept ds).sameFlags
  unfold announce
  dsimp only
  split
  · exact ⟨h', trivial⟩
  · exact abandon_marks h'

theorem subscribeTo_marks {peer : Peer} {ds : List Descriptor} {name : TopicName}
    (h : Marked m g₀ g) (hn : name = .writeFilter ∨ name = .readFilter) :
    (subscribeTo m g peer ds name).Leads fun g' _ stage => Marks m g₀ g' stage := by
  unfold subscribeTo
  split
  · exact ⟨h, ‹_›, hn⟩
  · exact abandon_marks h

theorem settle_marks {peer : Peer} {found : Dial.Result}
    {s : Segment Recovery.Stage Recovery.Outcome} (silent : s.events = [])
    (h : s.Ends (fun g' _ => Marked m g₀ g') fun g' _ => Marked m g₀ g') :
    (settle m peer found s).Leads fun g' _ stage => Marks m g₀ g' stage := by
  refine h.leads silent (fun _ _ hm => ⟨hm, trivial⟩) fun g outcome hm => ?_
  cases found with
  | error e => exact abandon_marks hm
  | ok ds =>
    dsimp only
    split_ifs
    · exact abandon_marks hm
    · exact announce_marks hm
    · exact subscribeTo_marks hm (.inl rfl)

theorem recovery_marks (h : Marked m g₀ g) (hk : Recovery.Kept m g g') : Marked m g₀ g' :=
  h.trans ⟨hk.ready, fun hv => by rwa [hk.rest] at hv⟩

theorem dial_marks {peer : Peer} {s : Segment Dial.Stage Dial.Result} (silent : s.events = [])
    (h : s.Ends (fun g' _ => Marked m g₀ g') fun g' _ => Marked m g₀ g') :
    (dial m peer s).Leads fun g' _ stage => Marks m g₀ g' stage :=
  h.leads silent (fun _ _ hm => ⟨hm, trivial⟩) fun _ _ hm =>
    settle_marks Recovery.poll_events
      (Recovery.begin_ends.imp (fun _ _ hk => recovery_marks hm hk)
        fun _ _ hk => recovery_marks hm hk)

theorem clear_marks {peer : Peer} {s : Segment Teardown.Stage Unit} (silent : s.events = [])
    (h : s.Ends (fun g' _ => Marked m g₀ g') fun g' _ => Marked m g₀ g') :
    (clear m peer s).Leads fun g' _ stage => Marks m g₀ g' stage := by
  refine h.leads silent (fun _ _ hm => ⟨hm, trivial⟩) fun g _ hm => ?_
  have hm' : Marked m g₀ { g with ready := false } := ⟨nofun, hm.values⟩
  exact dial_marks Dial.begin_events
    (Dial.begin_flags.imp (fun _ _ hs => hm'.same hs) fun _ _ hs => hm'.same hs)

theorem acquire_marks {peer : Peer} {wasPaused : Bool} {giveUp : Instant} (h : Marked m g₀ g) :
    (acquire m g peer wasPaused giveUp).Leads fun g' _ stage => Marks m g₀ g' stage := by
  unfold acquire
  split_ifs
  · have h' : Marked m g₀ { g with busy := true } := h.same ⟨rfl, rfl⟩
    exact clear_marks Teardown.begin_events
      (Teardown.begin_flags.imp (fun _ _ hs => h'.same hs) fun _ _ hs => h'.same hs)
  · exact report_marks (h.same ⟨rfl, rfl⟩)
  · exact ⟨h, trivial⟩

theorem leave_marks {s : Segment Teardown.Stage Unit} (silent : s.events = [])
    (h : s.Ends (fun g' _ => Marked m g₀ g') fun g' _ => Marked m g₀ g') :
    (leave m s).Leads fun g' _ stage => Marks m g₀ g' stage :=
  h.leads silent (fun _ _ hm => ⟨hm, trivial⟩)
    fun _ _ hm => send_marks ⟨hm.ready, nofun⟩ fun _ => trivial

theorem handle_marks {command : Command} (h : Marked m g₀ g) :
    (handle m g command).Leads fun g' _ stage => Marks m g₀ g' stage := by
  cases command with
  | connect peer => exact acquire_marks (h.same ⟨rfl, rfl⟩)
  | disconnect =>
    exact leave_marks Teardown.begin_events
      (Teardown.begin_flags.imp (fun _ _ hs => h.same hs) fun _ _ hs => h.same hs)
  | write uuid data =>
    simp only [handle]
    split
    · exact ⟨h, trivial⟩
    · exact ⟨h, trivial⟩
  | read uuid =>
    simp only [handle]
    split
    · exact ⟨h, trivial⟩
    · exact answer_marks h

theorem dispatch_marks {r : Request} (h : Marked m g₀ g) :
    (dispatch m g r).Leads fun g' _ stage => Marks m g₀ g' stage := by
  unfold dispatch
  split
  · exact ⟨h, trivial⟩
  · exact handle_marks h
  · exact report_marks h

/-- The topics of read commands have just been subscribed. -/
def Stage.Completes (stage : Stage) (w : Wake) : Prop :=
  ∃ peer ds topic r, stage = .subscribing peer ds .readFilter topic ∧ w = .reply r ∧ r.link = .ok ()

/-- The topics of values are marked as subscribed only where the last of them has just been. -/
theorem resume_marks {stage : Stage} {w : Wake} (h : stage.Named m.topics) :
    (resume m g stage w).Leads fun g' _ stage' => Marks m g g' stage' ∨
      stage.Completes w ∧ Marks m { g with valueTopics := true } g' stage' := by
  have plain {s : Step} (hs : s.Leads fun g' _ stage' => Marks m g g' stage') :
      s.Leads fun g' _ stage' => Marks m g g' stage' ∨
        stage.Completes w ∧ Marks m { g with valueTopics := true } g' stage' :=
    hs.imp fun _ _ _ hm => .inl hm
  have hg : Marked m g g := .refl g
  have waits : Marks m g g stage := ⟨hg, h⟩
  cases stage with
  | receiving =>
    refine plain ?_
    cases w with
    | signal =>
      simp only [resume]
      split
      · exact dispatch_marks ⟨.inl, id⟩
      · exact waits
    | reply r => exact waits
    | timeout => exact waits
  | acquiring peer wasPaused giveUp deadline =>
    refine plain ?_
    cases w with
    | timeout => exact acquire_marks hg
    | signal => exact waits
    | reply r => exact waits
  | clearing peer s =>
    exact plain (clear_marks Teardown.resume_events
      (Teardown.resume_flags.imp (fun _ _ hs => hg.same hs) fun _ _ hs => hg.same hs))
  | dialling peer s =>
    exact plain (dial_marks Dial.resume_events
      (Dial.resume_flags.imp (fun _ _ hs => hg.same hs) fun _ _ hs => hg.same hs))
  | recovering peer found s =>
    exact plain (settle_marks Recovery.resume_events
      (Recovery.resume_ends.imp (fun _ _ hk => recovery_marks hg hk)
        fun _ _ hk => recovery_marks hg hk))
  | subscribing peer ds name topic =>
    cases w with
    | reply r =>
      simp only [resume]
      split
      · rename_i hr
        rcases h.2 with rfl | rfl
        · exact plain (subscribeTo_marks hg (.inr rfl))
        · have hc : (Stage.subscribing peer ds .readFilter topic).Completes (.reply r) :=
            ⟨peer, ds, topic, r, rfl, rfl, hr⟩
          exact (announce_marks (.refl _)).imp fun _ _ _ hm => .inr ⟨hc, hm⟩
      · exact plain (abandon_marks hg)
    | signal => exact plain waits
    | timeout => exact plain waits
  | announcing peer characteristics message =>
    refine plain ?_
    cases w with
    | reply r =>
      simp only [resume]
      split
      · exact ⟨⟨.inl, id⟩, trivial⟩
      · exact abandon_marks hg
    | signal => exact waits
    | timeout => exact waits
  | unwinding e s =>
    exact plain (unwind_marks Teardown.resume_events
      (Teardown.resume_flags.imp (fun _ _ hs => hg.same hs) fun _ _ hs => hg.same hs))
  | leaving s =>
    exact plain (leave_marks Teardown.resume_events
      (Teardown.resume_flags.imp (fun _ _ hs => hg.same hs) fun _ _ hs => hg.same hs))
  | parting message | writing connection handle data | reading uuid connection handle
  | answering uuid value message | reporting message =>
    exact plain (resume_single rfl waits (fun _ => ⟨hg, trivial⟩) (fun _ => report_marks hg)
      fun _ _ => answer_marks hg)

end Serving

end GattGateway
