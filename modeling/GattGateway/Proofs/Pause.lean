import GattGateway.Proofs.Coherence
import GattGateway.Proofs.Connecting

/-!
# The pause follows the session

Scanning is paused while the link is in use, and between two commands exactly while a session is
stored. A connect command that fails leaves nothing behind: neither the pause nor a session if it
has had the radio, and everything as it was if it has not.
-/
namespace GattGateway

open Segment

/-! ## The session and the link -/

theorem Teardown.Stage.Fits.session_iff {g : Gateway} {stage : Stage} (h : stage.Fits g) :
    g.session.isSome = true ↔ g.peerLink = .connected := by
  cases stage with
  | stopping w deadline => exact h.1.session_iff
  | hangingUp connection => simp [h.session, h.link]
  | poweringDown => exact Gateway.Settled.session_iff (.inl h)

theorem Dial.Stage.Fits.session_iff {g : Gateway} {stage : Stage} (h : stage.Fits g) :
    g.session.isSome = true ↔ g.peerLink = .connected := by
  cases stage with
  | poweringUp peer => simp [h.session, h.link]
  | poweringDown e => exact h.1.settled.session_iff
  | calling peer deadline => simp [h.1.session, h.1.link]
  | discovering connection => simp [h.1.session, h.1.link]
  | closing connection e => simp [h.1.session, h.1.link]

theorem Dial.Result.Fits.settled {g : Gateway} {found : Result} (h : found.Fits g) : g.Settled := by
  cases found with
  | ok ds => exact .inr h
  | error e => exact .inl h.1

theorem Serving.Stage.Fits.session_iff {g : Gateway} {stage : Stage} (h : stage.Fits g) :
    g.session.isSome = true ↔ g.peerLink = .connected := by
  cases stage with
  | receiving => exact h.1.session_iff
  | acquiring peer wasPaused giveUp deadline => exact h.1.session_iff
  | clearing peer s => exact h.1.session_iff
  | dialling peer s => exact h.1.session_iff
  | recovering peer found s => exact h.1.settled.session_iff
  | subscribing peer ds name topic => exact h.1.settled.session_iff
  | announcing peer characteristics message => exact h.1.settled.session_iff
  | unwinding e s => exact h.1.session_iff
  | leaving s => exact h.1.session_iff
  | parting message => exact h.1.session_iff
  | writing connection handle data => exact h.1.settled.session_iff
  | reading uuid connection handle => exact h.1.settled.session_iff
  | answering uuid value message => exact h.1.session_iff
  | reporting message => exact h.1.session_iff

/-! ## Commands taken up -/

def Serving.Stage.isReceiving : Stage → Bool
  | .receiving => true
  | _ => false

theorem Serving.Stage.isReceiving_iff {stage : Stage} :
    stage.isReceiving = true ↔ stage = .receiving := by
  cases stage <;> simp [isReceiving]

/-- The latest state in which the serving loop waited for a message: the one in which it took up
the command that it handles. -/
def takenUp : List Step → System → System
  | [], s => s
  | t :: past, s => if s.serving.isReceiving then s else takenUp past t.before

theorem takenUp_of_receiving {past : List Step} {s : System} (h : s.serving = .receiving) :
    takenUp past s = s := by
  cases past with
  | nil => rfl
  | cons t past => simp [takenUp, h, Serving.Stage.isReceiving]

variable {setup : Setup} {past : List Step} {s s' : System} {m : Move} {w : Wake}
  {told : List Event}

/-- While a connect command waits for the radio it has changed nothing but the pause. -/
def System.Waits (found : Gateway) (s : System) : Prop :=
  ∀ peer wasPaused giveUp deadline, s.serving = .acquiring peer wasPaused giveUp deadline →
    Serving.Waits found s.gateway wasPaused

theorem System.Coherent.handles {found : Gateway} (h : s.Coherent) (hw : s.Waits found)
    (hm : System.Moved setup s (.serving w) s' told) :
    Serving.Handles setup.topics found s.gateway s.serving w told s'.gateway s'.serving := by
  cases hm with
  | serving up woken ran =>
    subst ran
    exact Serving.resume_handles (m := (s.answered s.serving.call? w).moment setup) h
      (signalled_of_wakes woken) hw

theorem Run.waits (h : Run setup past s) : s.Waits (takenUp past s).gateway := by
  induction h with
  | start online => nofun
  | @step past s s' m told run moved ih =>
    have hm := System.moved_of_move? moved
    intro peer wasPaused giveUp deadline hs'
    -- The command was taken up before this step, or in it.
    have htaken : takenUp (⟨s, m, told, s'⟩ :: past) s' = takenUp past s := by
      simp [takenUp, hs', Serving.Stage.isReceiving]
    rw [htaken]
    rcases hm.loop_or_beside with ⟨w, rfl⟩ | ⟨w, rfl⟩ | hb
    · obtain ⟨hs, hk⟩ := run.coherent.autoscan_kept hm
      have hw := ih peer wasPaused giveUp deadline (hs.symm.trans hs')
      rw [hk.rest]
      exact ⟨hw.session, hw.link, hw.paused⟩
    · have hh := run.coherent.handles ih hm
      rw [hs'] at hh
      cases hc : s.serving.connects with
      | true => exact (hh.goesOn hc).waits_of_acquiring
      | false =>
        by_cases ht : ∃ peer, Serving.taken? setup.topics s.gateway s.serving w
            = some (.ok (some (.connect peer)))
        · obtain ⟨peer', ht⟩ := ht
          obtain ⟨_, _, hr, -⟩ := Serving.taken?_eq_some ht
          rw [takenUp_of_receiving hr]
          exact (hh.takesUp peer' ht).waits_of_acquiring
        · have := hh.rests hc fun peer' hp => ht ⟨peer', hp⟩
          cases this
    · rw [hb.serving] at hs'
      have hw := ih peer wasPaused giveUp deadline hs'
      exact ⟨hb.gateway.session.trans hw.session, hb.gateway.link.trans hw.link, hw.paused⟩

/-! ## Every state and every step of a run -/

/-- The pause fits the session and the link. -/
structure System.PauseFits (s : System) : Prop where
  session_iff : s.gateway.session.isSome = true ↔ s.gateway.peerLink = .connected
  paused : s.gateway.peerLink ≠ .disconnected → s.gateway.paused = true
  receiving : s.serving = .receiving →
    (s.gateway.paused = true ↔ s.gateway.session.isSome = true)

theorem System.Coherent.pauseFits (h : s.Coherent) : s.PauseFits where
  session_iff := h.fits.session_iff
  paused hl := h.fits.link.resolve_left hl
  receiving hs := by
    have hf := h.fits
    rw [hs] at hf
    rw [hf.2]

/-- In every state the pause fits the session, and every step of the serving loop that handles a
connect command brings it to one of its proper ends or goes on with it. -/
theorem Run.pause_follows_session (h : Run setup past s) :
    s.PauseFits ∧ ∀ t earlier w, t :: earlier <:+ past → t.move = .serving w →
      Serving.Handles setup.topics (takenUp earlier t.before).gateway t.before.gateway
        t.before.serving w t.told t.after.gateway t.after.serving := by
  refine ⟨h.coherent.pauseFits, fun t earlier w hs hw => ?_⟩
  cases h.of_suffix hs with
  | step run moved =>
    cases hw
    exact run.coherent.handles run.waits (System.moved_of_move? moved)

/-- A connect command whose attempt fails because the radio cannot be switched on. -/
theorem pause_follows_session_after_failure : ∃ past s, Run .sample past s ∧
    (∃ t ∈ past, t.told = [.error (Fault.radio .activation).message]) ∧ s.PauseFits ∧
      ∀ t earlier w, t :: earlier <:+ past → t.move = .serving w →
        Serving.Handles Setup.sample.topics (takenUp earlier t.before).gateway t.before.gateway
          t.before.serving w t.told t.after.gateway t.after.serving := by
  have hm : (System.trace? .sample [] (.initial false)
      [.startup .signal, .startup (.reply .done), .startup (.reply .done), .startup (.reply .done),
        .startup (.reply .done),
        .message "ble/gateway/connect" (Text.utf8 "\x7b\"address\":\"00:11:22:33:44:55\"\x7d"),
        .serving .signal, .serving (.reply (.radioFault .activation))]).any
      (fun (past, _) => past.any fun t => t.told = [.error (Fault.radio .activation).message])
      = true := by
    decide +kernel
  obtain ⟨past, s, run, htold⟩ := Run.exists_of_any hm
  obtain ⟨t, ht, he⟩ := List.any_eq_true.1 htold
  exact ⟨past, s, run, ⟨t, ht, by simpa using he⟩, run.pause_follows_session⟩

end GattGateway
