import GattGateway.Proofs.Access
import GattGateway.Proofs.Disconnecting
import GattGateway.Proofs.ScanCycles
import GattGateway.Proofs.Subscriptions
import Mathlib.Algebra.Order.BigOperators.Group.Finset

/-!
# What a disconnect leaves

When a disconnect returns no session is stored and nobody forwards. Every worker that forwarded when
it was called has come to its end, or has been told to stop and has not done so in time. The
connection has been closed once, after the last of them, and a second disconnect has nothing left to
do but to switch the radio off, if that has failed.
-/
namespace GattGateway

open Segment

/-! ## One segment of a teardown -/

namespace Teardown

variable {m : Moment} {g : Gateway} {first : Nat} {w : Worker} {deadline : Instant}

theorem release_turn_ne : (release g).turn ≠ .wait (.stopping w deadline) := by
  unfold release
  dsimp only
  split_ifs <;> rintro ⟨⟩

theorem hangUp_turn_ne : (hangUp g).turn ≠ .wait (.stopping w deadline) := by
  unfold hangUp
  split
  · rintro ⟨⟩
  · exact release_turn_ne

/-- A worker that is to be awaited forwards. It is told to stop, and has a limited time. -/
theorem stopFrom_stopping (h : (stopFrom m g first).turn = .wait (.stopping w deadline)) :
    first ≤ w.val ∧ (g.slot w).isForwarding = true ∧
      (stopFrom m g first).gateway = g.setSlot w { g.slot w with cancelled := true } ∧
      deadline = m.now + m.timing.teardownTimeout := by
  unfold stopFrom at h ⊢
  cases hn : nextForwarding? g first with
  | some v =>
    simp only [hn] at h ⊢
    cases h
    have forwarding := (List.find?_eq_some_iff_append.1 hn).1
    simp only [Bool.and_eq_true, decide_eq_true_eq] at forwarding
    exact ⟨forwarding.1, forwarding.2, rfl, rfl⟩
  | none =>
    simp only [hn] at h
    exact absurd h hangUp_turn_ne

/-- Whoever is told to stop, the slots stay in their states. -/
theorem stopFrom_state (v : Worker) :
    ((stopFrom m g first).gateway.slot v).state = (g.slot v).state := by
  have stops : Stops g first (stopFrom m g first).gateway (stopFrom m g first).turn.stage? :=
    stopFrom_stops
  generalize (stopFrom m g first).gateway = g', (stopFrom m g first).turn.stage? = next at stops
  cases stops with
  | stops forwarding before =>
    rw [Gateway.slot_setSlot]
    split_ifs with hv
    · rw [hv]
    · rfl
  | hangsUp session quiet => rfl
  | releases session last => rfl

theorem release_free (hs : g.session = none) (hq : g.Quiet) :
    (release g).Ends (fun _ _ => True) fun g' _ => g'.Free :=
  (release_ends hs hq).imp (fun _ _ _ => trivial) fun _ _ h => h.2

/-- A disconnect that ends as it begins leaves nothing behind. -/
theorem begin_free : (begin m g).Ends (fun _ _ => True) fun g' _ => g'.Free := by
  unfold begin stopFrom
  cases hn : nextForwarding? g 0 with
  | some v => trivial
  | none =>
    have quiet : g.Quiet := fun w => nextForwarding?_eq_none hn (Nat.zero_le _)
    dsimp only
    unfold hangUp
    cases hs : g.session with
    | some s => trivial
    | none => exact release_free hs quiet

/-- A disconnect of a free gateway has nothing to do but to switch the radio off. -/
theorem begin_of_free (h : g.Free) :
    begin m g = if !g.scanning && g.powered then .wait g .poweringDown else .finish g () := by
  have nobody : nextForwarding? g 0 = none :=
    List.find?_eq_none.2 fun v _ => by simp [h.quiet v]
  have same : ({ g with peerLink := .disconnected } : Gateway) = g := by rw [← h.link]
  calc begin m g = release g := by simp only [begin, stopFrom, nobody, hangUp, h.session]
    _ = _ := by
      unfold release
      rw [same]

/-- The connection that a segment of a teardown has found is stored still, or is being closed. -/
theorem closed_of_disposes {cs : List Connection} {s : Segment Stage Unit}
    (h : Disposes cs s.gateway (s.engagement? .closing (some .settling))) :
    cs = s.gateway.connection?.toList ++ (hungUp? (s.turn.stage?.bind (·.call?))).toList := by
  rcases s with ⟨g, turn, events⟩
  cases turn <;> exact h

/-- Once no worker is awaited a teardown leaves the slots alone. -/
theorem resume_slots (m : Moment) (g : Gateway) {stage : Stage} (wake : Wake)
    (h : ∀ v d, stage ≠ .stopping v d) :
    (resume m g stage wake).gateway.slots = g.slots ∧
      ∀ v d, (resume m g stage wake).turn ≠ .wait (.stopping v d) := by
  cases stage with
  | stopping v d => exact absurd rfl (h v d)
  | hangingUp connection =>
    cases wake with
    | reply r => exact ⟨(congrArg Gateway.slots release_last.1 :), fun _ _ => release_turn_ne⟩
    | signal => exact ⟨rfl, by rintro _ _ ⟨⟩⟩
    | timeout => exact ⟨rfl, by rintro _ _ ⟨⟩⟩
  | poweringDown =>
    cases wake with
    | reply r =>
      simp only [resume]
      split <;> exact ⟨rfl, by rintro _ _ ⟨⟩⟩
    | signal => exact ⟨rfl, by rintro _ _ ⟨⟩⟩
    | timeout => exact ⟨rfl, by rintro _ _ ⟨⟩⟩

/-- Where a teardown goes on only the slot of the awaited worker changes its state, if that worker
is given up. -/
theorem resume_state (m : Moment) (g : Gateway) (stage : Stage) (wake : Wake) (v : Worker) :
    ((resume m g stage wake).gateway.slot v).state = (g.slot v).state ∨
      (∃ d, stage = .stopping v d) ∧ wake = .timeout ∧
        ((resume m g stage wake).gateway.slot v).state = .draining := by
  by_cases stops : ∃ u d, stage = .stopping u d
  · obtain ⟨u, d, rfl⟩ := stops
    have state {a : Slot} : ((stopFrom m (g.setSlot u a) (u.val + 1)).gateway.slot v).state =
        if v = u then a.state else (g.slot v).state := by
      rw [stopFrom_state, Gateway.slot_setSlot, apply_ite Slot.state]
    by_cases hv : v = u
    · subst v
      cases wake with
      | signal => exact .inl (state.trans (if_pos rfl))
      | reply r => exact .inl rfl
      | timeout => exact .inr ⟨⟨d, rfl⟩, rfl, state.trans (if_pos rfl)⟩
    · left
      cases wake with
      | signal => exact state.trans (if_neg hv)
      | reply r => rfl
      | timeout => exact state.trans (if_neg hv)
  · obtain ⟨slots, -⟩ := resume_slots m g wake fun u d hs => stops ⟨u, d, hs⟩
    exact .inl (by simp only [Gateway.slot, slots])

theorem hangingUp_of_hungUp? {turn : Turn Stage Unit}
    (h : (hungUp? (turn.stage?.bind (·.call?))).isSome = true) :
    ∃ connection, turn = .wait (.hangingUp connection) := by
  cases turn with
  | finish result => cases h
  | wait stage =>
    cases stage with
    | hangingUp connection => exact ⟨connection, rfl⟩
    | _ => cases h

end Teardown

/-! ## Workers that are told to stop -/

/-- The worker that a teardown waits for. -/
def Teardown.Stage.awaited? : Stage → Option Worker
  | .stopping w _ => some w
  | _ => none

theorem Teardown.Stage.of_awaited? {stage : Stage} {w : Worker} (h : stage.awaited? = some w) :
    ∃ deadline, stage = .stopping w deadline := by
  cases stage with
  | stopping v deadline =>
    cases h
    exact ⟨deadline, rfl⟩
  | _ => cases h

/-- The worker that the serving loop waits for. -/
def Serving.Stage.awaited? (stage : Stage) : Option Worker :=
  match stage.engagement? with
  | some (.closing t) => t.awaited?
  | _ => none

@[simp] theorem Serving.Purpose.awaited?_stage {p : Purpose} (t : Teardown.Stage) :
    (p.stage t).awaited? = t.awaited? := by
  simp [Stage.awaited?]

namespace Step

variable (t : Step) (w : Worker)

/-- A worker comes to the end of what it serves. -/
def Exits : Prop := t.shared.Exits w

/-- The loop tells a worker to stop, and waits for it from then on. -/
def Cancels : Prop :=
  (∃ wake, t.move = .serving wake) ∧ (t.after.gateway.slot w).cancelled = true ∧
    t.after.serving.awaited? = some w

/-- The loop waits no longer for a worker that has not stopped. -/
def GivesUp : Prop := t.move = .serving .timeout ∧ t.before.serving.awaited? = some w

end Step

/-- A worker has been told to stop and has not come to its end in the time that it was given. -/
inductive Late (setup : Setup) (w : Worker) (steps : List Step) : Prop
  | intro {t c : Step} {earlier : List Step} (reached : t :: earlier <:+ steps)
      (givesUp : t.GivesUp w) (told : c ∈ earlier) (cancels : c.Cancels w)
      (time : c.before.now + setup.timing.teardownTimeout ≤ t.before.now)
      (unended : ∀ u ∈ earlier, ¬u.Exits w)

/-- The work of a worker is over: it has ended by itself, or has been told to stop and has done so
or has not in time. -/
inductive Ceased (setup : Setup) (w : Worker) (steps : List Step) : Prop
  | left {t : Step} {earlier : List Step} (reached : t :: earlier <:+ steps) (exits : t.Exits w)
      (untold : ∀ u ∈ earlier, ¬u.Cancels w)
  | stopped {t c : Step} {earlier : List Step} (reached : t :: earlier <:+ steps)
      (exits : t.Exits w) (told : c ∈ earlier) (cancels : c.Cancels w)
  | late (late : Late setup w steps)

/-- How it stands with a worker that forwarded when a disconnect was called. -/
inductive Standing (setup : Setup) (w : Worker) (steps : List Step) (a : Slot) : Prop
  | running (forwards : a.isForwarding = true) (unended : ∀ t ∈ steps, ¬t.Exits w)
  | ended (idle : a.state = .idle) (ended : ∃ t ∈ steps, t.Exits w)
  | late (draining : a.state = .draining) (late : Late setup w steps)

section

variable {setup : Setup} {w : Worker} {t : Step} {steps : List Step} {a b : Slot}

theorem Late.cons (h : Late setup w steps) : Late setup w (t :: steps) := by
  obtain ⟨reached, givesUp, told, cancels, time, unended⟩ := h
  exact ⟨reached.trans (List.suffix_cons t steps), givesUp, told, cancels, time, unended⟩

theorem Ceased.of_exits (h : ∃ t ∈ steps, t.Exits w) : Ceased setup w steps := by
  obtain ⟨t, ht, exits⟩ := h
  obtain ⟨later, earlier, rfl⟩ := List.append_of_mem ht
  have reached : t :: earlier <:+ later ++ t :: earlier := List.suffix_append _ _
  by_cases told : ∃ c ∈ earlier, c.Cancels w
  · obtain ⟨c, hc, cancels⟩ := told
    exact .stopped reached exits hc cancels
  · exact .left reached exits fun u hu cancels => told ⟨u, hu, cancels⟩

namespace Standing

theorem kept (h : Standing setup w steps a) (state : b.state = a.state) (unended : ¬t.Exits w) :
    Standing setup w (t :: steps) b := by
  cases h with
  | running forwards unended' =>
    refine .running ?_ (List.forall_mem_cons.2 ⟨unended, unended'⟩)
    simpa [Slot.isForwarding, state] using forwards
  | ended idle ended =>
    obtain ⟨u, hu, exits⟩ := ended
    exact .ended (state.trans idle) ⟨u, List.mem_cons_of_mem _ hu, exits⟩
  | late draining late => exact .late (state.trans draining) late.cons

theorem exits (idle : b.state = .idle) (exits : t.Exits w) : Standing setup w (t :: steps) b :=
  .ended idle ⟨t, List.mem_cons_self, exits⟩

/-- Where a worker forwards no more its work is over. -/
theorem ceased (h : Standing setup w steps a) (still : a.isForwarding = false) :
    Ceased setup w steps := by
  cases h with
  | running forwards unended =>
    rw [still] at forwards
    cases forwards
  | ended idle ended => exact .of_exits ended
  | late draining late => exact .late late

end Standing

end

/-! ## One step of the loop -/

section

variable {setup : Setup} {p : Serving.Purpose} {g₀ : Gateway} {past steps : List Step}
  {s s' : System} {move : Move} {wake : Wake} {told : List Event}
  {segment : Segment Teardown.Stage Unit} {stage : Teardown.Stage}

/-- What happens beside the serving loop leaves a slot in its state, or its worker comes to its end
and the slot is free. -/
theorem System.Moved.slot_beside (hm : System.Moved setup s move s' told)
    (beside : ∀ wake, move ≠ .serving wake) (w : Worker) :
    (s'.gateway.slot w).state = (s.gateway.slot w).state ∧ ¬Step.Exits ⟨s, move, told, s'⟩ w ∨
      (s'.gateway.slot w).state = .idle ∧ Step.Exits ⟨s, move, told, s'⟩ w := by
  have serves (same : (s'.workers w).subscription? = (s.workers w).subscription?) :
      ¬Step.Exits ⟨s, move, told, s'⟩ w := by
    rintro ⟨served, rests⟩
    have served : (s.workers w).subscription?.isSome = true := served
    rw [← same, show (s'.workers w).subscription? = none from rests] at served
    cases served
  rcases hm.serving_or_worker_or_aside with ⟨wake, rfl⟩ | ⟨i, wake, rfl⟩ | ⟨-, workers, aside⟩
  · exact absurd rfl (beside wake)
  · cases hm with
    | @worker i wake segment up woken ran =>
      have works : Forwarding.Works s.gateway i (s.workers i) segment.gateway segment.turn.stage :=
        ran ▸ Forwarding.resume_works
      by_cases hw : w = i
      · subst w
        cases works with
        | takes rests assigned slot taken =>
          refine .inl ⟨by simp [slot], ?_⟩
          rintro ⟨served, -⟩
          have served : (s.workers i).subscription?.isSome = true := served
          rw [rests] at served
          cases served
        | goesOn same serves' => exact .inl ⟨by rw [same], serves (by simpa using serves')⟩
        | exits cancelled serves' slot rests =>
          exact .inr ⟨by simp [slot, Slot.release], by simp [Step.Exits, Shared.Step.Exits,
            Step.shared, System.shared, serves', rests]⟩
      · have other : segment.gateway.slot w = s.gateway.slot w := works.other hw
        exact .inl ⟨by rw [other], serves (by simp [hw])⟩
  · exact .inl ⟨by rw [aside.slot], serves (by rw [workers])⟩

/-- The serving loop waits in a teardown. -/
structure System.Closes (s : System) (p : Serving.Purpose) (stage : Teardown.Stage) : Prop where
  serving : s.serving = p.stage stage
  fits : stage.Fits s.gateway
  orderly : s.gateway.Orderly
  held : (Engagement.closing stage).Held s.gateway

theorem Disconnect.waiting (h : Disconnect setup p g₀ steps segment)
    (run : Run setup (steps ++ past) s) (waits : segment.turn = .wait stage) :
    s.gateway = segment.gateway ∧ s.Closes p stage := by
  obtain ⟨gateway, serving⟩ := h.engaged run waits
  have tended := run.shared.tended (Shared.ordered_shared _ s).teardowns
  refine ⟨gateway, serving, Serving.Purpose.fits_stage (serving ▸ run.coherent.fits),
    run.coherent.orderly, tended.held _ ?_⟩
  simp [Shared.engagements, System.shared, serving]

/-- What ends the wait for a worker. -/
theorem System.Closes.woken {v : Worker} {deadline : Instant}
    (h : s.Closes p (.stopping v deadline)) (hm : System.Moved setup s (.serving wake) s' told) :
    wake = .signal ∧ (s.gateway.slot v).stopped = true ∨
      wake = .timeout ∧ (s.gateway.slot v).stopped = false ∧ deadline ≤ s.now := by
  cases hm with
  | serving up woken ran =>
    rw [h.serving] at woken
    cases wake with
    | signal => exact .inl ⟨rfl, by
      simpa [System.wakes, Wake.ends, Strand.signalled, Teardown.Stage.signalled] using woken⟩
    | reply r => simp [System.wakes, Wake.ends, Strand.call?, Teardown.Stage.call?] at woken
    | timeout =>
      simp [System.wakes, Wake.ends, Strand.signalled, Strand.deadline?,
        Teardown.Stage.deadline?, Teardown.Stage.signalled] at woken
      exact .inr ⟨rfl, woken⟩

/-- After the awaited worker the teardown can come to wait for the next one. -/
theorem System.Closes.stops {m : Moment} {w : Worker} {deadline : Instant} (h : s.Closes p stage)
    (hm : System.Moved setup s (.serving wake) s' told)
    (waits : (Teardown.resume m s.gateway stage wake).turn = .wait (.stopping w deadline)) :
    ∃ v d a, stage = .stopping v d ∧ Teardown.resume m s.gateway stage wake =
      Teardown.stopFrom m (s.gateway.setSlot v a) (v.val + 1) := by
  by_cases stops : ∃ v d, stage = .stopping v d
  · obtain ⟨v, d, rfl⟩ := stops
    rcases h.woken hm with ⟨rfl, -⟩ | ⟨rfl, -⟩
    · exact ⟨v, d, _, rfl, rfl⟩
    · exact ⟨v, d, _, rfl, rfl⟩
  · have unawaited := (Teardown.resume_slots m s.gateway wake fun v d hs => stops ⟨v, d, hs⟩).2
    exact absurd waits (unawaited w deadline)

/-- A worker for which a disconnect comes to wait is told to stop in that step. -/
theorem Disconnect.cancels {g : Gateway} {first : Nat} {w : Worker} {deadline : Instant}
    (h : Disconnect setup p g₀ (⟨s, .serving wake, told, s'⟩ :: steps) segment)
    (run : Run setup (⟨s, .serving wake, told, s'⟩ :: steps ++ past) s')
    (stops : segment =
      Teardown.stopFrom (Step.moment setup ⟨s, .serving wake, told, s'⟩ wake) g first)
    (waits : segment.turn = .wait (.stopping w deadline)) :
    ∃ c ∈ (⟨s, .serving wake, told, s'⟩ :: steps : List Step), c.Cancels w ∧
      deadline = c.before.now + setup.timing.teardownTimeout := by
  obtain ⟨gateway, serving⟩ := h.engaged run waits
  subst stops
  obtain ⟨-, -, cancels, time⟩ := Teardown.stopFrom_stopping waits
  refine ⟨_, List.mem_cons_self, ⟨⟨wake, rfl⟩, ?_, ?_⟩, ?_⟩
  · simp [gateway, cancels]
  · simp [serving, Teardown.Stage.awaited?]
  · simpa [Step.moment, System.moment] using time

theorem System.Moved.unended (hm : System.Moved setup s (.serving wake) s' told) (w : Worker) :
    ¬Step.Exits ⟨s, .serving wake, told, s'⟩ w := by
  rintro ⟨served, rests⟩
  have workers : s'.workers = s.workers := hm.served.2.2.1
  simp [Step.shared, System.shared, workers] at served rests
  simp [rests] at served

theorem Standing.resumed {m : Moment} {w : Worker}
    (h : Standing setup w steps (s.gateway.slot w)) (closes : s.Closes p stage)
    (hm : System.Moved setup s (.serving wake) s' told)
    (awaited : ∀ deadline, stage = .stopping w deadline → ∃ c ∈ steps, c.Cancels w ∧
      deadline = c.before.now + setup.timing.teardownTimeout) :
    Standing setup w (⟨s, .serving wake, told, s'⟩ :: steps)
      ((Teardown.resume m s.gateway stage wake).gateway.slot w) := by
  rcases Teardown.resume_state m s.gateway stage wake w with state |
    ⟨⟨deadline, rfl⟩, rfl, draining⟩
  · exact h.kept state (hm.unended w)
  · obtain ⟨⟨⟩, -⟩ | ⟨-, running, due⟩ := closes.woken hm
    refine .late draining ?_
    cases h with
    | running forwards unended =>
      obtain ⟨c, hc, cancels, hd⟩ := awaited deadline rfl
      refine .intro (List.suffix_refl _) ⟨rfl, ?_⟩ hc cancels (hd ▸ due) unended
      simp [closes.serving, Teardown.Stage.awaited?]
    | ended idle ended =>
      rw [closes.held idle] at running
      cases running
    | late draining late => exact late.cons

/-- In the course of a disconnect the work of every worker that forwarded goes on or is over, and
the one that is awaited has been told to stop. -/
theorem Disconnect.standing (h : Disconnect setup p g₀ steps segment)
    (run : Run setup (steps ++ past) s) :
    (∀ w, (g₀.slot w).isForwarding = true →
      Standing setup w steps (segment.gateway.slot w)) ∧
    ∀ w deadline, segment.turn = .wait (.stopping w deadline) → ∃ c ∈ steps, c.Cancels w ∧
      deadline = c.before.now + setup.timing.teardownTimeout := by
  induction h generalizing s with
  | called move calls =>
    cases run with
    | step run moved =>
      cases move
      have course := Disconnect.called rfl calls
      have unended := (System.moved_of_move? moved).unended
      refine ⟨fun w forwards => ?_, fun w deadline => course.cancels (run.step moved) rfl⟩
      have begins : Standing setup w [] (g₀.slot w) :=
        .running forwards (List.forall_mem_nil _)
      exact begins.kept (Teardown.stopFrom_state w) (unended w)
  | @resumed t wake steps segment stage course waits move ih =>
    cases run with
    | @step _ s₀ _ _ told run moved =>
      cases move
      obtain ⟨standing, awaited⟩ := ih run
      obtain ⟨gateway, closes⟩ := course.waiting run waits
      rw [← gateway] at standing
      have hm := System.moved_of_move? moved
      have next := Disconnect.resumed (t := ⟨s₀, .serving wake, told, s⟩) course waits rfl
      refine ⟨fun w forwards => (standing w forwards).resumed closes hm fun deadline hs =>
        awaited w deadline (hs ▸ waits), fun w deadline waits' => ?_⟩
      obtain ⟨v, d, a, -, same⟩ := closes.stops hm waits'
      exact next.cancels (run.step moved) same waits'
  | beside course waits move ih =>
    cases run with
    | step run moved =>
      obtain ⟨standing, awaited⟩ := ih run
      obtain ⟨gateway, -⟩ := course.waiting run waits
      rw [← gateway] at standing
      refine ⟨fun w forwards => ?_, fun w deadline waits' => ?_⟩
      · rcases (System.moved_of_move? moved).slot_beside move w with ⟨state, unended⟩ |
          ⟨idle, exits⟩
        · exact (standing w forwards).kept state unended
        · exact .exits idle exits
      · cases waits'
        obtain ⟨c, hc, cancels⟩ := awaited w deadline waits
        exact ⟨c, List.mem_cons_of_mem _ hc, cancels⟩

/-! ## The connection -/

theorem System.Closes.wakes (h : s.Closes p stage)
    (hm : System.Moved setup s (.serving wake) s' told) :
    Woken (stage.signalled s.gateway) stage.deadline? wake := by
  cases hm with
  | serving up woken ran =>
    have wakes := System.woken_of_wakes woken
    rw [h.serving] at wakes
    simpa [Strand.signalled, Strand.deadline?] using wakes

/-- A disconnect that returns leaves a free gateway. -/
theorem Disconnect.free (h : Disconnect setup p g₀ steps segment)
    (run : Run setup (steps ++ past) s) (returns : segment.turn = .finish ()) :
    segment.gateway.Free := by
  cases h with
  | called move calls => exact Teardown.begin_free.of_finish returns
  | resumed course waits move =>
    cases run with
    | step run moved =>
      cases move
      obtain ⟨-, closes⟩ := course.waiting run waits
      have woken := closes.wakes (System.moved_of_move? moved)
      exact ((Teardown.resume_ends closes.fits closes.orderly woken.signal).of_finish returns).2
  | beside course waits move => cases returns

/-- The loop asks the radio to hang up where the teardown does. -/
theorem Serving.Purpose.hungUp?_pursue {m : Moment} (silent : segment.events = [])
    (ended : segment.turn = .finish () → segment.gateway.session = none) :
    hungUp? (p.pursue m segment).turn.stage.call? =
      hungUp? (segment.turn.stage?.bind (·.call?)) := by
  cases turn : segment.turn with
  | wait stage =>
    obtain ⟨-, hs⟩ := p.pursue_wait (m := m) turn
    rw [hs, call?_stage]
    rfl
  | finish result => exact p.pursue_finish silent turn (ended turn)

theorem Disconnect.hungUp?_eq {t : Step} (h : Disconnect setup p g₀ (t :: steps) segment)
    (run : Run setup (t :: steps ++ past) s) (move : t.move = .serving wake) :
    t.hungUp? setup = GattGateway.hungUp? (segment.turn.stage?.bind (·.call?)) := by
  have ended := h.free run
  cases run with
  | step run moved =>
    cases move
    obtain ⟨-, serving, -⟩ := (System.moved_of_move? moved).served
    cases h with
    | called move calls =>
      cases move
      rw [calls] at serving
      exact (congrArg (GattGateway.hungUp? ·.call?) serving).trans
        (Serving.Purpose.hungUp?_pursue Teardown.begin_events fun hf => (ended hf).session)
    | resumed course waits move =>
      cases move
      obtain ⟨-, closes⟩ := course.waiting run waits
      rw [closes.serving, Serving.Purpose.resume_stage] at serving
      exact (congrArg (GattGateway.hungUp? ·.call?) serving).trans
        (Serving.Purpose.hungUp?_pursue Teardown.resume_events fun hf => (ended hf).session)
    | beside course waits move => exact absurd rfl (move wake)

/-- Nobody but the serving loop hangs up. -/
theorem Run.hungUp?_beside {t : Step} (run : Run setup (t :: past) s)
    (beside : ∀ wake, t.move ≠ .serving wake) : t.hungUp? setup = none := by
  have publishes := run.publishes
  cases run with
  | step run moved =>
    by_contra hn
    obtain ⟨c, hc⟩ := Option.ne_none_iff_exists'.1 hn
    obtain ⟨wake, hw⟩ := publishes.serving_of_engages (hangUp_of_hungUp? hc) rfl
    exact beside wake hw

/-- The connection of the session is stored still, or the radio has been asked once to close it. -/
theorem Disconnect.closed (h : Disconnect setup p g₀ steps segment)
    (run : Run setup (steps ++ past) s) :
    segment.gateway.connection?.toList ++ hungUp setup steps = g₀.connection?.toList := by
  have settles : Resting (some .settling) := .inr rfl
  induction h generalizing s with
  | @called t wake move calls =>
    have hangs := (Disconnect.called move calls).hungUp?_eq run move
    rw [hungUp_cons, hangs, hungUp, List.filterMap_nil, List.append_nil]
    exact (Teardown.closed_of_disposes (Teardown.stopFrom_stops.disposes settles)).symm
  | @resumed t wake steps segment stage course waits move ih =>
    have hangs := (Disconnect.resumed course waits move).hungUp?_eq run move
    cases run with
    | step run moved =>
      cases move
      obtain ⟨gateway, closes⟩ := course.waiting run waits
      have woken := closes.wakes (System.moved_of_move? moved)
      rw [hungUp_cons, hangs, ← List.append_assoc, ← ih run, ← gateway]
      exact congrArg (· ++ _) (Teardown.closed_of_disposes (Teardown.resume_disposes woken)).symm
  | @beside t steps segment stage course waits move ih =>
    have silent := run.hungUp?_beside move
    cases run with
    | step run moved =>
      obtain ⟨gateway, -⟩ := course.waiting run waits
      obtain ⟨-, session, -⟩ := (run.coherent.serving_or_idles
        (System.moved_of_move? moved)).resolve_left (not_exists.2 move)
      rw [hungUp_cons, silent, ← ih run, ← gateway]
      simp [Gateway.connection?, session, Segment.wait]

/-- The steps of a disconnect up to one of them are its course up to then. -/
theorem Disconnect.of_suffix {t : Step} {earlier : List Step}
    (h : Disconnect setup p g₀ steps segment) (hs : t :: earlier <:+ steps) :
    ∃ segment', Disconnect setup p g₀ (t :: earlier) segment' := by
  induction h with
  | called move calls =>
    rcases List.suffix_cons_iff.1 hs with he | hs
    · cases he
      exact ⟨_, .called move calls⟩
    · simp at hs
  | resumed course waits move ih =>
    rcases List.suffix_cons_iff.1 hs with he | hs
    · cases he
      exact ⟨_, .resumed course waits move⟩
    · exact ih hs
  | beside course waits move ih =>
    rcases List.suffix_cons_iff.1 hs with he | hs
    · cases he
      exact ⟨_, .beside course waits move⟩
    · exact ih hs

/-- When the connection is closed the work of every worker that forwarded is over. -/
theorem Disconnect.ceased {t : Step} {earlier : List Step}
    (h : Disconnect setup p g₀ steps segment) (run : Run setup (steps ++ past) s)
    (hs : t :: earlier <:+ steps) (hangs : (t.hungUp? setup).isSome = true) {w : Worker}
    (forwards : (g₀.slot w).isForwarding = true) : Ceased setup w (t :: earlier) := by
  obtain ⟨segment, course⟩ := h.of_suffix hs
  obtain ⟨rest, rfl⟩ := hs
  have run : Run setup (t :: earlier ++ past) t.after := run.of_suffix ⟨rest, by simp⟩
  by_cases loop : ∃ wake, t.move = .serving wake
  · obtain ⟨wake, move⟩ := loop
    rw [course.hungUp?_eq run move] at hangs
    obtain ⟨c, waits⟩ := Teardown.hangingUp_of_hungUp? hangs
    obtain ⟨gateway, closes⟩ := course.waiting run waits
    have quiet : segment.gateway.Quiet := gateway ▸ Gateway.Passing.quiet closes.fits
    exact ((course.standing run).1 w forwards).ceased (quiet w)
  · rw [run.hungUp?_beside fun wake hw => loop ⟨wake, hw⟩] at hangs
    cases hangs

/-! ## The time for which workers are awaited -/

/-- The time for which the loop waited for a worker. -/
def waitedFor (w : Worker) (steps : List Step) : Duration :=
  (steps.map fun t =>
    if t.before.serving.awaited? = some w then t.after.now - t.before.now else 0).sum

/-- The time for which the loop waited for any worker. -/
def waited (steps : List Step) : Duration :=
  (steps.map fun t =>
    if t.before.serving.awaited?.isSome then t.after.now - t.before.now else 0).sum

/-- A wait for a worker is over as soon as its deadline is reached. -/
def Punctual (steps : List Step) : Prop :=
  ∀ t ∈ steps, ∀ deadline, t.before.serving.awaited?.isSome = true →
    t.before.serving.deadline? = some deadline → t.after.now ≤ deadline

theorem waited_eq_sum (steps : List Step) : waited steps = ∑ w, waitedFor w steps := by
  induction steps with
  | nil => simp [waited, waitedFor]
  | cons t steps ih =>
    have split : (if t.before.serving.awaited?.isSome then t.after.now - t.before.now else 0) =
        ∑ w, if t.before.serving.awaited? = some w then t.after.now - t.before.now else 0 := by
      cases t.before.serving.awaited? with
      | none => simp
      | some v => simp
    calc waited (t :: steps)
        = (if t.before.serving.awaited?.isSome then t.after.now - t.before.now else 0) +
          waited steps := List.sum_cons
      _ = ∑ w, waitedFor w (t :: steps) := by
        rw [split, ih, ← Finset.sum_add_distrib]
        rfl

theorem Gateway.forwardingCount_eq_card (g : Gateway) :
    g.forwardingCount = (Finset.univ.filter fun w => (g.slot w).isForwarding = true).card := by
  have slots : g.slots.toList = (List.finRange workerCount).map g.slot := by
    apply List.ext_getElem
    · simp
    · intro i h h'
      simp [slot]
  rw [forwardingCount, slots, List.countP_map, ← List.toFinset_finRange,
    (List.nodup_finRange workerCount).card_eq_countP]
  simp [Function.comp_def]

/-- How long a disconnect has waited for the workers by now. -/
structure Timed (setup : Setup) (g₀ : Gateway) (steps : List Step)
    (segment : Segment Teardown.Stage Unit) (now : Instant) : Prop where
  formerly : ∀ w, (segment.gateway.slot w).isForwarding = true → (g₀.slot w).isForwarding = true
  unwaited : ∀ w, (g₀.slot w).isForwarding = false → waitedFor w steps = 0
  bounded : ∀ w, waitedFor w steps ≤ setup.timing.teardownTimeout
  /-- What is left to wait for the awaited worker, and who has not been awaited yet. -/
  current : ∀ v deadline, segment.turn = .wait (.stopping v deadline) →
    (g₀.slot v).isForwarding = true ∧
      waitedFor v steps + deadline = now + setup.timing.teardownTimeout ∧
        ∀ w, v < w → waitedFor w steps = 0

/-- Time that passes before a deadline is waited for. -/
theorem waited_before {before now spent deadline limit : Nat} (passes : before ≤ now)
    (time : spent + deadline = before + limit) :
    now - before + spent + deadline = now + limit ∧
      (now ≤ deadline → now - before + spent ≤ limit) := by
  omega

theorem waitedFor_serving (steps : List Step) (w : Worker)
    (hm : System.Moved setup s (.serving wake) s' told) :
    waitedFor w (⟨s, .serving wake, told, s'⟩ :: steps) = waitedFor w steps := by
  have now : s'.now = s.now := hm.served.2.2.2
  simp [waitedFor, now]

theorem waitedFor_closing (w : Worker) (closes : s.Closes p stage) :
    waitedFor w (⟨s, move, told, s'⟩ :: steps) =
      (if stage.awaited? = some w then s'.now - s.now else 0) + waitedFor w steps := by
  simp [waitedFor, closes.serving]

theorem Slot.isForwarding_of_state {a b : Slot} (hb : b.isForwarding = true)
    (h : b.state = a.state ∨ b.state = .idle ∨ b.state = .draining) : a.isForwarding = true := by
  obtain ⟨uuid, forwards⟩ := isForwarding_iff.1 hb
  rcases h with same | idle | draining
  · exact isForwarding_iff.2 ⟨uuid, same.symm.trans forwards⟩
  · cases idle.symm.trans forwards
  · cases draining.symm.trans forwards

/-- The clock tells how long the loop has waited for the awaited worker, and it has waited for no
worker longer than allowed. -/
theorem Disconnect.timed (h : Disconnect setup p g₀ steps segment)
    (run : Run setup (steps ++ past) s) (punctual : Punctual steps) :
    Timed setup g₀ steps segment s.now := by
  induction h generalizing s with
  | called move calls =>
    cases run with
    | @step _ s₀ _ _ told run moved =>
      cases move
      have hm := System.moved_of_move? moved
      have unwaited (w : Worker) : waitedFor w [⟨s₀, _, told, s⟩] = 0 := waitedFor_serving [] w hm
      have now : s.now = s₀.now := hm.served.2.2.2
      refine ⟨fun w hf => Slot.isForwarding_of_state hf (.inl (Teardown.stopFrom_state w)),
        fun w _ => unwaited w, fun w => by simp [unwaited], fun v deadline waits => ?_⟩
      obtain ⟨-, forwards, -, time⟩ := Teardown.stopFrom_stopping waits
      refine ⟨forwards, ?_, fun w _ => unwaited w⟩
      rw [unwaited, now, Nat.zero_add]
      simpa [Step.moment, System.moment] using time
  | @resumed t wake steps segment stage course waits move ih =>
    cases run with
    | @step _ s₀ _ _ told run moved =>
      cases move
      obtain ⟨formerly, unwaited, bounded, current⟩ := ih run (List.forall_mem_cons.1 punctual).2
      have hm := System.moved_of_move? moved
      have now : s.now = s₀.now := hm.served.2.2.2
      have same (w : Worker) := waitedFor_serving steps w hm
      obtain ⟨gateway, closes⟩ := course.waiting run waits
      rw [← gateway] at formerly
      refine ⟨fun w hf => formerly w (Slot.isForwarding_of_state hf ?_), fun w hw => ?_,
        fun w => ?_, fun w deadline waits' => ?_⟩
      · exact (Teardown.resume_state _ _ stage wake w).imp id fun h => .inr h.2.2
      · rw [same, unwaited w hw]
      · rw [same]
        exact bounded w
      · obtain ⟨v, d, a, rfl, stops⟩ := closes.stops hm waits'
        obtain ⟨-, -, later⟩ := current v d waits
        obtain ⟨next, forwards, -, time⟩ := Teardown.stopFrom_stopping (stops ▸ waits')
        have hv : v < w := Fin.lt_def.2 next
        rw [Gateway.slot_setSlot, if_neg (Fin.ne_of_gt hv)] at forwards
        refine ⟨formerly w forwards, ?_, fun u hu => ?_⟩
        · rw [same, later w hv, now, Nat.zero_add]
          simpa [Step.moment, System.moment] using time
        · rw [same, later u (hv.trans hu)]
  | @beside t steps segment stage course waits move ih =>
    cases run with
    | @step _ s₀ _ _ told run moved =>
      obtain ⟨last, earlier⟩ := List.forall_mem_cons.1 punctual
      obtain ⟨formerly, unwaited, bounded, current⟩ := ih run earlier
      have hm := System.moved_of_move? moved
      have passes : s₀.now ≤ s.now := hm.now_le
      obtain ⟨gateway, closes⟩ := course.waiting run waits
      rw [← gateway] at formerly
      refine ⟨fun w hf => formerly w (Slot.isForwarding_of_state hf ?_), fun w hw => ?_,
        fun w => ?_, fun v deadline waits' => ?_⟩
      · exact (hm.slot_beside move w).imp And.left fun h => .inl h.1
      · rw [waitedFor_closing w closes, unwaited w hw]
        split_ifs with awaited
        · obtain ⟨d, rfl⟩ := Teardown.Stage.of_awaited? awaited
          obtain ⟨forwards, -⟩ := current w d waits
          rw [hw] at forwards
          cases forwards
        · rfl
      · rw [waitedFor_closing w closes]
        split_ifs with awaited
        · obtain ⟨d, rfl⟩ := Teardown.Stage.of_awaited? awaited
          obtain ⟨-, time, -⟩ := current w d waits
          have due : s.now ≤ d := last d (by simp [closes.serving, awaited])
            (by simp [closes.serving, Teardown.Stage.deadline?])
          exact (waited_before passes time).2 due
        · rw [Nat.zero_add]
          exact bounded w
      · cases waits'
        obtain ⟨forwards, time, later⟩ := current v deadline waits
        refine ⟨forwards, ?_, fun w hw => ?_⟩
        · have awaited : (Teardown.Stage.stopping v deadline).awaited? = some v := rfl
          rw [waitedFor_closing v closes, if_pos awaited]
          exact (waited_before passes time).1
        · rw [waitedFor_closing w closes, later w hw]
          simp [Teardown.Stage.awaited?, Fin.ne_of_lt hw]

theorem Timed.waited_le {now : Instant} (h : Timed setup g₀ steps segment now) :
    waited steps ≤ setup.timing.teardownTimeout * g₀.forwardingCount :=
  calc waited steps
      = ∑ w, waitedFor w steps := waited_eq_sum steps
    _ ≤ ∑ w, if (g₀.slot w).isForwarding = true then setup.timing.teardownTimeout else 0 := by
      refine Finset.sum_le_sum fun w _ => ?_
      split_ifs with forwards
      · exact h.bounded w
      · exact (h.unwaited w (by simpa using forwards)).le
    _ = setup.timing.teardownTimeout * g₀.forwardingCount := by
      rw [Gateway.forwardingCount_eq_card, ← Finset.sum_filter,
        Finset.sum_const_nat fun _ _ => rfl, Nat.mul_comm]

/-! ## The return -/

/-- What a disconnect has come to when it returns. -/
structure Disconnected (setup : Setup) (g₀ : Gateway) (steps : List Step) (g : Gateway) : Prop where
  free : g.Free
  /-- A slot that was in use is free, or its worker has not come to its end in time. -/
  slots : ∀ w, (g₀.slot w).isForwarding = true →
    (g.slot w).state = .idle ∧ (∃ t ∈ steps, t.Exits w) ∨
      (g.slot w).state = .draining ∧ Late setup w steps
  closed : hungUp setup steps = g₀.connection?.toList
  order : ∀ t earlier, t :: earlier <:+ steps → (t.hungUp? setup).isSome = true →
    ∀ w, (g₀.slot w).isForwarding = true → Ceased setup w (t :: earlier)
  waits : Punctual steps → (∀ w, waitedFor w steps ≤ setup.timing.teardownTimeout) ∧
    waited steps ≤ setup.timing.teardownTimeout * g₀.forwardingCount
  /-- Another disconnect changes nothing. It waits for nothing but the radio to be switched off,
  where that has failed. -/
  again : ∀ (m : Moment) (g' : Gateway), g'.Free → g'.powered = g.powered →
    g'.scanning = g.scanning → Teardown.begin m g' = .finish g' () ∨
      (∃ e, (steps.head?.bind (·.switchedOff? setup)) = some (.error e)) ∧
        Teardown.begin m g' = .wait g' .poweringDown ∧ ∀ m' g'' r, ∃ powered,
          Teardown.resume m' g'' .poweringDown (.reply r) = .finish { g'' with powered } ()

/-- Unless the radio could not be switched off, a disconnect leaves it on only for a scan. -/
theorem Disconnect.warranted (h : Disconnect setup p g₀ steps segment)
    (run : Run setup (steps ++ past) s) (returns : segment.turn = .finish ())
    (off : ∀ e, steps.head?.bind (·.switchedOff? setup) ≠ some (.error e)) :
    segment.gateway.Warranted := by
  cases h with
  | called move calls => exact Teardown.begin_warranted.of_finish returns
  | resumed course waits move =>
    cases run with
    | step run moved =>
      cases move
      obtain ⟨-, closes⟩ := course.waiting run waits
      refine (Teardown.resume_warranted fun e he => off e ?_).of_finish returns
      simpa [Step.switchedOff?, Move.wake?, Move.strand?, Strand.call?, closes.serving] using he
  | beside course waits move => cases returns

theorem Disconnect.again {m : Moment} {g' : Gateway} (h : Disconnect setup p g₀ steps segment)
    (run : Run setup (steps ++ past) s) (returns : segment.turn = .finish ()) (free : g'.Free)
    (powered : g'.powered = segment.gateway.powered)
    (scanning : g'.scanning = segment.gateway.scanning) :
    Teardown.begin m g' = .finish g' () ∨
      (∃ e, (steps.head?.bind (·.switchedOff? setup)) = some (.error e)) ∧
        Teardown.begin m g' = .wait g' .poweringDown := by
  have begins := Teardown.begin_of_free (m := m) free
  by_cases on : (!g'.scanning && g'.powered) = true
  · rw [if_pos on] at begins
    refine .inr ⟨?_, begins⟩
    by_contra off
    simp only [Bool.and_eq_true, Bool.not_eq_true', powered, scanning] at on
    rcases h.warranted run returns (not_exists.1 off) on.2 with session | scans
    · rw [(h.free run returns).session] at session
      cases session
    · rw [on.1] at scans
      cases scans
  · rw [if_neg on] at begins
    exact .inl begins

/-- Whatever the workers and the radio do, a disconnect that returns is complete, and has nothing
left to do for another one. -/
theorem Run.disconnected (run : Run setup (steps ++ past) s)
    (course : Disconnect setup p g₀ steps segment) (returns : segment.turn = .finish ()) :
    Disconnected setup g₀ steps segment.gateway where
  free := course.free run returns
  slots w forwards := by
    cases (course.standing run).1 w forwards with
    | running forwards =>
      rw [(course.free run returns).quiet w] at forwards
      cases forwards
    | ended idle ended => exact .inl ⟨idle, ended⟩
    | late draining late => exact .inr ⟨draining, late⟩
  closed := by
    have closed := course.closed run
    rwa [Gateway.connection?_eq_none (course.free run returns).session] at closed
  order t earlier hs hangs w := course.ceased run hs hangs
  waits punctual := by
    have timed := course.timed run punctual
    exact ⟨timed.bounded, timed.waited_le⟩
  again m g' free powered scanning := by
    refine (course.again run returns free powered scanning).imp id fun h =>
      ⟨h.1, h.2, fun m' g'' r => ?_⟩
    simp only [Teardown.resume]
    split
    · exact ⟨false, rfl⟩
    · exact ⟨g''.powered, rfl⟩

/-- A disconnect that has been called waits still, or has returned. -/
theorem Run.disconnects {later earlier : List Step} {t : Step}
    (run : Run setup (later ++ t :: earlier) s) (move : t.move = .serving wake)
    (calls : Serving.Disconnects (t.moment setup wake) t.before.gateway t.before.serving wake p
      g₀) :
    (∃ segment stage, Disconnect setup p g₀ (later ++ [t]) segment ∧ segment.turn = .wait stage) ∨
      ∃ steps s' segment, Run setup (steps ++ earlier) s' ∧ Disconnect setup p g₀ steps segment ∧
        segment.turn = .finish () := by
  -- What comes of a segment of the disconnect.
  have turns {steps : List Step} {s : System} {segment : Segment Teardown.Stage Unit}
      (run : Run setup (steps ++ earlier) s) (course : Disconnect setup p g₀ steps segment) :
      (∃ segment stage, Disconnect setup p g₀ steps segment ∧ segment.turn = .wait stage) ∨
        ∃ steps s' segment, Run setup (steps ++ earlier) s' ∧
          Disconnect setup p g₀ steps segment ∧ segment.turn = .finish () := by
    cases turn : segment.turn with
    | wait stage => exact .inl ⟨segment, stage, course, turn⟩
    | finish result => exact .inr ⟨steps, s, segment, run, course, turn⟩
  induction later generalizing s with
  | nil =>
    have run : Run setup ([t] ++ earlier) s := run
    exact turns run (.called move calls)
  | cons u later ih =>
    have run' : Run setup ((u :: later ++ [t]) ++ earlier) s := by simpa using run
    cases run with
    | step run moved =>
      rcases ih run with ⟨segment, stage, course, waits⟩ | returned
      · obtain ⟨segment', course'⟩ := course.goesOn waits _
        exact turns run' course'
      · exact .inr returned

/-- A command to disconnect calls a disconnect. -/
theorem Step.disconnects_of_takes? {t : Step} {r : Request} (h : t.takes? = some r)
    (command : Command.ofMessage setup.topics r.topic.text r.payload = .ok (some .disconnect)) :
    t.move = .serving .signal ∧ ∃ inbox, Serving.Disconnects (t.moment setup .signal)
      t.before.gateway t.before.serving .signal .leaving { t.before.gateway with inbox } := by
  obtain ⟨move, receiving, inbox, pop⟩ := takes?_eq_some h
  refine ⟨move, inbox, ?_⟩
  have command : Command.ofMessage (t.moment setup .signal).topics r.topic.text r.payload =
      .ok (some .disconnect) := command
  simp only [Serving.Disconnects, receiving, Serving.resume, pop, Serving.dispatch, command,
    Serving.handle, Serving.Purpose.pursue]

end

/-- One of two workers comes to its end when its session is closed, and the other one is too late.
Then the radio cannot be switched off. -/
theorem disconnected_with_late_worker : ∃ p g₀ steps earlier s segment,
    Run .sample (steps ++ earlier) s ∧ Disconnect .sample p g₀ steps segment ∧
    segment.turn = .finish () ∧ g₀.connection? = some 1 ∧ g₀.forwardingCount = 2 ∧
    Disconnected .sample g₀ steps segment.gateway := by
  obtain ⟨later, t, earlier, s, run, hp⟩ := Run.exists_cut .sample false
    (Move.connectTo [.sample, ⟨.short 0x2A38, ⟨Property.notify.mask⟩, 5⟩] ++
      [.worker 0 .signal, .worker 0 (.reply .done), .worker 1 .signal, .worker 1 (.reply .done),
        .worker 1 (.reply (.value [7])), .message "ble/gateway/disconnect" [], .serving .signal,
        .worker 0 .signal, .serving .signal, .tick 5000, .serving .timeout,
        .serving (.reply .done), .serving (.reply (.radioFault .activation))]) 6
    (fun later t _ =>
      t.takes? == some ⟨⟨"ble/gateway/disconnect", by decide⟩, [], by decide⟩ &&
      t.before.gateway.connection? == some 1 && t.before.gateway.forwardingCount == 2 &&
      later.head?.any fun u => !u.after.serving.tearsDown)
    (by decide +kernel)
  simp only [Bool.and_eq_true, beq_iff_eq] at hp
  obtain ⟨⟨⟨taken, connection⟩, forwarding⟩, ended⟩ := hp
  have command : Command.ofMessage Setup.sample.topics "ble/gateway/disconnect" [] =
      .ok (some .disconnect) := by decide
  obtain ⟨move, inbox, calls⟩ := Step.disconnects_of_takes? taken command
  rcases run.disconnects move calls with ⟨segment, stage, course, waits⟩ |
    ⟨steps, s', segment, run, course, returns⟩
  · have run' : Run .sample ((later ++ [t]) ++ earlier) s := by simpa using run
    obtain ⟨-, serving⟩ := course.engaged run' waits
    cases later with
    | nil => cases ended
    | cons u later =>
      cases run with
      | step run moved =>
        simp [serving, Serving.Purpose.stage, Serving.Stage.tearsDown] at ended
  · exact ⟨_, _, steps, earlier, s', segment, run, course, returns, connection, forwarding,
      run.disconnected course returns⟩

end GattGateway
