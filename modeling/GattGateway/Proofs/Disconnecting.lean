import GattGateway.Proofs.Notifications
import GattGateway.Proofs.PowerDown

/-!
# What a disconnect comes to

A disconnect tells the workers that forward to stop, one after the other, and waits for each of them
for a limited time. Only then it closes the connection, once, and switches the radio off. Whatever
the workers and the radio do, it leaves no session and nobody who forwards, and nothing for another
disconnect but to switch the radio off if that has failed.
-/
namespace GattGateway

open Segment

/-! ## Where the serving loop disconnects -/

namespace Serving

/-- What the loop disconnects for: another peer, a connect command that has failed, or a command to
disconnect. -/
inductive Purpose
  | replacing (peer : Peer)
  | undoing (fault : Fault)
  | leaving

namespace Purpose

def stage : Purpose → Teardown.Stage → Stage
  | .replacing peer => .clearing peer
  | .undoing fault => .unwinding fault
  | .leaving => .leaving

/-- The loop goes on with what comes of a teardown. -/
def pursue (m : Moment) : Purpose → Segment Teardown.Stage Unit → Step
  | .replacing peer => clear m peer
  | .undoing fault => unwind m fault
  | .leaving => leave m

end Purpose

/-- The loop disconnects in a segment, with the gateway as it is by then. -/
def Disconnects (m : Moment) (g : Gateway) (stage : Stage) (w : Wake) (p : Purpose)
    (g₀ : Gateway) : Prop :=
  resume m g stage w = p.pursue m (Teardown.begin m g₀)

variable {m : Moment} {g g₀ : Gateway} {stage : Stage} {w : Wake} {p : Purpose}
  {s : Segment Teardown.Stage Unit}

theorem Stage.eq_stage {t : Teardown.Stage} (h : stage.engagement? = some (.closing t)) :
    ∃ p : Purpose, stage = p.stage t := by
  cases stage with
  | clearing peer s =>
    cases h
    exact ⟨.replacing peer, rfl⟩
  | unwinding fault s =>
    cases h
    exact ⟨.undoing fault, rfl⟩
  | leaving s =>
    cases h
    exact ⟨.leaving, rfl⟩
  | _ => cases h

namespace Purpose

@[simp] theorem engagement?_stage (t : Teardown.Stage) :
    (p.stage t).engagement? = some (.closing t) := by
  cases p <;> rfl

@[simp] theorem call?_stage (t : Teardown.Stage) : (p.stage t).call? = t.call? := by
  cases p <;> rfl

@[simp] theorem deadline?_stage (t : Teardown.Stage) : (p.stage t).deadline? = t.deadline? := by
  cases p <;> rfl

@[simp] theorem signalled_stage (t : Teardown.Stage) :
    (p.stage t).signalled g = t.signalled g := by
  cases p <;> rfl

theorem fits_stage {t : Teardown.Stage} (h : (p.stage t).Fits g) : t.Fits g := by
  cases p <;> exact h.1

theorem resume_stage (t : Teardown.Stage) :
    resume m g (p.stage t) w = p.pursue m (Teardown.resume m g t w) := by
  cases p <;> rfl

theorem pursue_wait {t : Teardown.Stage} (h : s.turn = .wait t) :
    (p.pursue m s).gateway = s.gateway ∧ (p.pursue m s).turn.stage = p.stage t := by
  rcases s with ⟨g, turn, events⟩
  cases h
  cases p <;> exact ⟨rfl, rfl⟩

/-- Where a teardown has ended without a session the loop goes on without closing anything. -/
theorem pursue_finish (silent : s.events = []) (h : s.turn = .finish ())
    (session : s.gateway.session = none) :
    hungUp? (p.pursue m s).turn.stage.call? = none := by
  rcases s with ⟨g, turn, events⟩
  cases h
  cases silent
  have settles : Resting (some .settling) := .inr rfl
  have ends : (finish g () : Segment Teardown.Stage Unit).Ends
      (fun g' s => Acts m .signal g (some .settling) g' (some (.closing s)))
      fun g' _ => Acts m .signal g (some .settling) g' (some .settling) := .refl g settles
  have reaches : (p.pursue m (.finish g ())).Leads fun g' _ stage =>
      Reaches m .signal g (some .settling) g' stage.engagement? := by
    cases p with
    | replacing peer => exact clear_reaches rfl settles ends
    | undoing fault => exact unwind_reaches rfl settles ends
    | leaving => exact leave_reaches rfl settles ends
  have disposes := Reaches.disposes reaches nofun
  rw [settles.accounts, Gateway.connection?_eq_none session, Disposes,
    Stage.hungUp?_engagement] at disposes
  have nothing := (List.append_eq_nil_iff.1 disposes.symm).2
  exact Option.toList_eq_nil_iff.1 nothing

end Purpose

/-- A segment that comes to wait for a teardown is one in which the loop disconnects. -/
def TearsDown (m : Moment) (s : Step) : Prop :=
  ∀ t, s.turn.stage.engagement? = some (.closing t) →
    ∃ (p : Purpose) (g₀ : Gateway), s = p.pursue m (Teardown.begin m g₀) ∧
      (Teardown.begin m g₀).turn = .wait t

theorem Stage.tearsDown_of_closing {t : Teardown.Stage}
    (h : stage.engagement? = some (.closing t)) : stage.tearsDown = true := by
  obtain ⟨p, rfl⟩ := Stage.eq_stage h
  cases p <;> rfl

theorem tearsDown_of_rests {s : Step} (h : s.Leads fun _ _ stage => stage.tearsDown = false) :
    TearsDown m s := by
  intro t ht
  have closing := Stage.tearsDown_of_closing ht
  rw [show s.turn.stage.tearsDown = false from h] at closing
  cases closing

theorem tearsDown_andThen {σ ρ : Type} {s : Segment σ ρ} {lift : σ → Stage}
    {next : Gateway → ρ → Step} (silent : s.events = [])
    (waits : ∀ stage, (lift stage).tearsDown = false)
    (finishes : ∀ g result, TearsDown m (next g result)) : TearsDown m (s.andThen lift next) := by
  rcases s with ⟨g, turn, events⟩
  cases silent
  cases turn with
  | wait stage => exact tearsDown_of_rests (waits stage)
  | finish result => exact finishes g result

theorem report_goesOn {fault : Fault} :
    (report m g fault).Leads fun _ _ stage => stage.tearsDown = false := by
  unfold report
  split <;> rfl

theorem send_goesOn {name : TopicName} {payload : Text.Bytes} {next : Message → Stage}
    (h : ∀ message, (next message).tearsDown = false) :
    (send m g name payload next).Leads fun _ _ stage => stage.tearsDown = false := by
  unfold send
  split
  · exact h _
  · exact report_goesOn

/-- Where the loop goes on with what comes of a teardown it waits for that, or for the teardown of a
disconnect that follows. -/
theorem Purpose.pursue_closing {t : Teardown.Stage} (silent : s.events = [])
    (finishes : ∀ g', TearsDown m (p.pursue m (.finish g' ())))
    (ht : (p.pursue m s).turn.stage.engagement? = some (.closing t)) :
    s.turn = .wait t ∨ ∃ (p' : Purpose) (g₀ : Gateway),
      p.pursue m s = p'.pursue m (Teardown.begin m g₀) ∧ (Teardown.begin m g₀).turn = .wait t := by
  rcases s with ⟨g', turn, events⟩
  cases silent
  cases turn with
  | wait t' =>
    obtain ⟨-, stage⟩ := p.pursue_wait (m := m) (s := .wait g' t') rfl
    have engaged := engagement?_stage (p := p) t'
    rw [← stage] at engaged
    cases engaged.symm.trans ht
    exact .inl rfl
  | finish result => exact .inr (finishes g' t ht)

theorem Purpose.begin_tearsDown (finishes : ∀ g', TearsDown m (p.pursue m (.finish g' ()))) :
    TearsDown m (p.pursue m (Teardown.begin m g)) := fun _ ht =>
  (pursue_closing Teardown.begin_events finishes ht).elim (fun waits => ⟨p, g, rfl, waits⟩) id

theorem abandon_tearsDown {fault : Fault} : TearsDown m (abandon m g fault) :=
  Purpose.begin_tearsDown (p := .undoing fault) fun _ => tearsDown_of_rests report_goesOn

theorem announce_tearsDown {peer : Peer} {ds : List Descriptor} :
    TearsDown m (announce m g peer ds) := by
  unfold announce
  dsimp only
  split
  · exact tearsDown_of_rests rfl
  · exact abandon_tearsDown

theorem subscribeTo_tearsDown {peer : Peer} {ds : List Descriptor} {name : TopicName} :
    TearsDown m (subscribeTo m g peer ds name) := by
  unfold subscribeTo
  split
  · exact tearsDown_of_rests rfl
  · exact abandon_tearsDown

theorem settle_tearsDown {peer : Peer} {found : Dial.Result}
    {s : Segment Recovery.Stage Recovery.Outcome} (silent : s.events = []) :
    TearsDown m (settle m peer found s) := by
  refine tearsDown_andThen silent (fun _ => rfl) fun g outcome => ?_
  cases found with
  | error fault => exact abandon_tearsDown
  | ok ds =>
    dsimp only
    split_ifs
    · exact abandon_tearsDown
    · exact announce_tearsDown
    · exact subscribeTo_tearsDown

theorem dial_tearsDown {peer : Peer} {s : Segment Dial.Stage Dial.Result} (silent : s.events = []) :
    TearsDown m (dial m peer s) :=
  tearsDown_andThen silent (fun _ => rfl) fun _ _ => settle_tearsDown Recovery.poll_events

/-- What the loop goes on with after a teardown can be another disconnect. -/
theorem Purpose.finish_tearsDown : TearsDown m (p.pursue m (.finish g ())) := by
  cases p with
  | replacing peer => exact dial_tearsDown Dial.begin_events
  | undoing fault => exact tearsDown_of_rests report_goesOn
  | leaving => exact tearsDown_of_rests (send_goesOn fun _ => rfl)

theorem acquire_tearsDown {peer : Peer} {wasPaused : Bool} {giveUp : Instant} :
    TearsDown m (acquire m g peer wasPaused giveUp) := by
  unfold acquire
  split_ifs
  · exact Purpose.begin_tearsDown (p := .replacing peer) fun _ => Purpose.finish_tearsDown
  · exact tearsDown_of_rests report_goesOn
  · exact tearsDown_of_rests rfl

theorem handle_tearsDown {command : Command} : TearsDown m (handle m g command) := by
  cases command with
  | connect peer => exact acquire_tearsDown
  | disconnect => exact Purpose.begin_tearsDown (p := .leaving) fun _ => Purpose.finish_tearsDown
  | write uuid data =>
    simp only [handle]
    split <;> exact tearsDown_of_rests rfl
  | read uuid =>
    simp only [handle]
    split
    · exact tearsDown_of_rests rfl
    · exact tearsDown_of_rests (send_goesOn fun _ => rfl)

theorem dispatch_tearsDown {r : Request} : TearsDown m (dispatch m g r) := by
  unfold dispatch
  split
  · exact tearsDown_of_rests rfl
  · exact handle_tearsDown
  · exact tearsDown_of_rests report_goesOn

/-- Where no teardown is under way every one that the loop comes to wait for is that of a
disconnect. -/
theorem resume_tearsDown (before : ∀ t, stage.engagement? ≠ some (.closing t)) :
    TearsDown m (resume m g stage w) := by
  have waits : TearsDown m (.wait g stage) := fun t ht => absurd ht (before t)
  cases stage with
  | receiving =>
    cases w with
    | signal =>
      simp only [resume]
      split
      · exact dispatch_tearsDown
      · exact waits
    | reply r => exact waits
    | timeout => exact waits
  | acquiring peer wasPaused giveUp deadline =>
    cases w with
    | timeout => exact acquire_tearsDown
    | signal => exact waits
    | reply r => exact waits
  | dialling peer s => exact dial_tearsDown Dial.resume_events
  | recovering peer found s => exact settle_tearsDown Recovery.resume_events
  | subscribing peer ds name topic =>
    cases w with
    | reply r =>
      simp only [resume]
      split
      · split_ifs
        · exact subscribeTo_tearsDown
        · exact announce_tearsDown
      · exact abandon_tearsDown
    | signal => exact waits
    | timeout => exact waits
  | announcing peer characteristics message =>
    cases w with
    | reply r =>
      simp only [resume]
      split
      · exact tearsDown_of_rests rfl
      · exact abandon_tearsDown
    | signal => exact waits
    | timeout => exact waits
  | clearing peer s => exact absurd rfl (before s)
  | unwinding fault s => exact absurd rfl (before s)
  | leaving s => exact absurd rfl (before s)
  | parting message | writing connection handle data | reading uuid connection handle
  | answering uuid value message | reporting message =>
    exact tearsDown_of_rests (resume_single rfl rfl (fun _ => rfl) (fun _ => report_goesOn)
      fun _ _ => send_goesOn fun _ => rfl)

end Serving

/-! ## The course of a disconnect -/

/-- What the serving loop sees when it is woken in a step. -/
def Step.moment (setup : Setup) (t : Step) (w : Wake) : Moment :=
  (t.before.answered t.before.serving.call? w).moment setup

/-- The steps since a disconnect was called, the latest first, and what it has come to in them. The
gateway is the one with which it was called. -/
inductive Disconnect (setup : Setup) (p : Serving.Purpose) (g₀ : Gateway) :
    List Step → Segment Teardown.Stage Unit → Prop
  | called {t : Step} {w : Wake} (move : t.move = .serving w)
      (calls : Serving.Disconnects (t.moment setup w) t.before.gateway t.before.serving w p g₀) :
      Disconnect setup p g₀ [t] (Teardown.begin (t.moment setup w) g₀)
  | resumed {t : Step} {w : Wake} {steps : List Step} {s : Segment Teardown.Stage Unit}
      {stage : Teardown.Stage} (course : Disconnect setup p g₀ steps s)
      (waits : s.turn = .wait stage) (move : t.move = .serving w) :
      Disconnect setup p g₀ (t :: steps)
        (Teardown.resume (t.moment setup w) t.before.gateway stage w)
  | beside {t : Step} {steps : List Step} {s : Segment Teardown.Stage Unit}
      {stage : Teardown.Stage} (course : Disconnect setup p g₀ steps s)
      (waits : s.turn = .wait stage) (move : ∀ w, t.move ≠ .serving w) :
      Disconnect setup p g₀ (t :: steps) (.wait t.after.gateway stage)

section

variable {setup : Setup} {p : Serving.Purpose} {g₀ : Gateway} {past steps : List Step}
  {s s' : System} {move : Move} {w : Wake} {told : List Event}
  {segment : Segment Teardown.Stage Unit} {stage : Teardown.Stage}

/-- A disconnect that waits goes on in every step. -/
theorem Disconnect.goesOn (h : Disconnect setup p g₀ steps segment)
    (waits : segment.turn = .wait stage) (t : Step) :
    ∃ segment', Disconnect setup p g₀ (t :: steps) segment' := by
  by_cases loop : ∃ w, t.move = .serving w
  · obtain ⟨w, move⟩ := loop
    exact ⟨_, .resumed h waits move⟩
  · exact ⟨_, .beside h waits fun w move => loop ⟨w, move⟩⟩

/-- What the serving loop comes to in a step of its own. -/
theorem System.Moved.served (hm : System.Moved setup s (.serving w) s' told) :
    s'.gateway = (Serving.resume (Step.moment setup ⟨s, .serving w, told, s'⟩ w) s.gateway s.serving
      w).gateway ∧
    s'.serving = (Serving.resume (Step.moment setup ⟨s, .serving w, told, s'⟩ w) s.gateway s.serving
      w).turn.stage ∧
    s'.workers = s.workers ∧ s'.now = s.now := by
  cases hm with
  | serving up woken ran =>
    subst ran
    exact ⟨rfl, rfl, System.answered_workers .., System.answered_now ..⟩

/-- A step of the serving loop in which it goes on with a teardown that waits again. -/
theorem Serving.Purpose.engaged (hm : System.Moved setup s (.serving w) s' told)
    (ran : Serving.resume (Step.moment setup ⟨s, .serving w, told, s'⟩ w) s.gateway s.serving w =
      p.pursue (Step.moment setup ⟨s, .serving w, told, s'⟩ w) segment)
    (waits : segment.turn = .wait stage) :
    s'.gateway = segment.gateway ∧ s'.serving = p.stage stage := by
  obtain ⟨gateway, serving, -⟩ := hm.served
  rw [ran] at gateway serving
  obtain ⟨hg, hs⟩ := pursue_wait (m := Step.moment setup ⟨s, .serving w, told, s'⟩ w) waits
  exact ⟨gateway.trans hg, serving.trans hs⟩

/-- A disconnect that waits is what the serving loop waits for. -/
theorem Disconnect.engaged (h : Disconnect setup p g₀ steps segment)
    (run : Run setup (steps ++ past) s) (waits : segment.turn = .wait stage) :
    s.gateway = segment.gateway ∧ s.serving = p.stage stage := by
  induction h generalizing s stage with
  | called move calls =>
    cases run with
    | step run moved =>
      cases move
      exact Serving.Purpose.engaged (System.moved_of_move? moved) calls waits
  | resumed course waits' move ih =>
    cases run with
    | step run moved =>
      cases move
      obtain ⟨-, serving⟩ := ih run waits'
      refine Serving.Purpose.engaged (System.moved_of_move? moved) ?_ waits
      rw [serving]
      exact Serving.Purpose.resume_stage _
  | beside course waits' move ih =>
    cases run with
    | step run moved =>
      cases waits
      obtain ⟨-, serving⟩ := ih run waits'
      obtain ⟨same, -⟩ := (run.coherent.serving_or_idles (System.moved_of_move? moved)).resolve_left
        (not_exists.2 move)
      exact ⟨rfl, same.trans serving⟩

/-- Whenever the serving loop is in a teardown there is a disconnect that has come to it. -/
theorem Run.disconnecting (run : Run setup past s)
    (closing : s.serving.engagement? = some (.closing stage)) :
    ∃ p g₀ steps earlier segment, past = steps ++ earlier ∧ Disconnect setup p g₀ steps segment ∧
      segment.turn = .wait stage := by
  induction run generalizing stage with
  | start online => cases closing
  | @step past s s' move told run moved ih =>
    have hm := System.moved_of_move? moved
    by_cases loop : ∃ w, move = .serving w
    · obtain ⟨w, rfl⟩ := loop
      obtain ⟨-, serving, -⟩ := hm.served
      rw [serving] at closing
      -- The disconnect is called in this step.
      have called (h : ∃ (p : Serving.Purpose) (g₀ : Gateway),
          Serving.Disconnects (Step.moment setup ⟨s, .serving w, told, s'⟩ w) s.gateway s.serving w
            p g₀ ∧ (Teardown.begin (Step.moment setup ⟨s, .serving w, told, s'⟩ w) g₀).turn =
              .wait stage) :
          ∃ p g₀ steps earlier segment,
            (⟨s, .serving w, told, s'⟩ :: past : List Step) = steps ++ earlier ∧
              Disconnect setup p g₀ steps segment ∧ segment.turn = .wait stage := by
        obtain ⟨p, g₀, calls, waits⟩ := h
        exact ⟨p, g₀, [_], past, _, rfl, .called rfl calls, waits⟩
      by_cases before : ∃ stage', s.serving.engagement? = some (.closing stage')
      · obtain ⟨stage', closing'⟩ := before
        obtain ⟨p, g₀, steps, earlier, segment, rfl, course, waits⟩ := ih closing'
        obtain ⟨-, same⟩ := course.engaged run waits
        have ran := same ▸ Serving.Purpose.resume_stage (p := p)
          (m := Step.moment setup ⟨s, .serving w, told, s'⟩ w) (g := s.gateway) (w := w) stage'
        rw [ran] at closing
        rcases Serving.Purpose.pursue_closing Teardown.resume_events
          (fun _ => Serving.Purpose.finish_tearsDown) closing with waits' | ⟨p', g', again, waits'⟩
        · exact ⟨p, g₀, _ :: steps, earlier, _, rfl, .resumed course waits rfl, waits'⟩
        · exact called ⟨p', g', ran.trans again, waits'⟩
      · exact called (Serving.resume_tearsDown (not_exists.1 before) stage closing)
    · obtain ⟨same, -⟩ := (run.coherent.serving_or_idles hm).resolve_left loop
      rw [same] at closing
      obtain ⟨p, g₀, steps, earlier, segment, rfl, course, waits⟩ := ih closing
      exact ⟨p, g₀, _ :: steps, earlier, _, rfl,
        .beside course waits fun w hw => loop ⟨w, hw⟩, rfl⟩

end

end GattGateway
