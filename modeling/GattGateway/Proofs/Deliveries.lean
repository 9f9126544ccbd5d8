import GattGateway.Proofs.Pool

/-!
# What a subscription delivers

A worker that has taken a subscription passes on what the peer pushes, value by value and in the
order in which it comes, and leaves out nothing but empty values. It begins once the peer has been
asked to push, it outlasts every wait in which nothing comes, and it comes to its end only if it is
told to stop, if a call of the radio fails, or if the connection is lost.
-/
namespace GattGateway

open Text (Bytes)

def Event.notification? : Event → Option (CanonicalUuid × Bytes)
  | .notification uuid value => some (uuid, value)
  | _ => none

def Call.handedOver? : Call → Option (CanonicalUuid × Bytes)
  | .handOver uuid value => some (uuid, value)
  | _ => none

/-! ## One segment -/

namespace Forwarding

open Segment

/-- What the peer has pushed to a worker that awaits it. -/
def pushed? : Stage → Wake → Option Bytes
  | .awaiting _ _, .reply r => r.received.toOption
  | _, _ => none

/-- What a worker begins to pass on in a segment: it is told of, or handed to the receiver. -/
def passed (outlet : Outlet) (told : List Event) (stage : Stage) : List (CanonicalUuid × Bytes) :=
  match outlet with
  | .broker => told.filterMap Event.notification?
  | .receiver => (stage.call?.bind Call.handedOver?).toList

/-- The call that passes a value on. The broker is sent no value whose topic is too long. -/
def Outlet.call? (topics : Topics) (uuid : CanonicalUuid) (value : Bytes) : Outlet → Option Call
  | .broker =>
    (topics.topic (.notification uuid)).toOption.map fun topic =>
      .publish { topic, payload := value }
  | .receiver => some (.handOver uuid value)

/-- Why a worker comes to the end of a subscription. -/
inductive Ended (m : Moment) (g : Gateway) (w : Worker) (sub : Subscription) (stage : Stage)
    (wake : Wake) : Prop
  | cancelled (signal : wake = .signal) (word : (g.slot w).cancelled = true)
  | refused {r : Reply} {e : RadioFault} (enabling : stage = .enabling sub)
      (reply : wake = .reply r) (failed : r.radio = .error e)
  | failed {deadline : Instant} {r : Reply} {e : RadioFault}
      (awaiting : stage = .awaiting sub deadline) (reply : wake = .reply r)
      (failed : r.received = .error e)
  | lost (down : m.alive sub.connection = false)

/-- What a worker does in one segment while it serves a subscription. -/
structure Serves (m : Moment) (g : Gateway) (w : Worker) (outlet : Outlet) (sub : Subscription)
    (stage : Stage) (wake : Wake) (g' : Gateway) (told : List Event) (stage' : Stage) : Prop where
  /-- It passes on what has been pushed, unless it is empty. -/
  passes : passed outlet told stage' =
    ((pushed? stage wake).toList.filter (· ≠ [])).map (sub.uuid, ·)
  /-- It waits until what it passes on has been taken. -/
  carries : ∀ value ∈ pushed? stage wake, value ≠ [] → ∀ call,
    outlet.call? m.topics sub.uuid value = some call → stage' = .delivering sub value call
  ends : stage'.subscription? = none →
    Ended m g w sub stage wake ∧ (g'.slot w).state = .idle
  goesOn : stage'.subscription?.isSome = true →
    stage' = .awaiting sub (m.now + m.timing.notifyWait) ∨
      ∃ value call, pushed? stage wake = some value ∧ stage' = .delivering sub value call

variable {m : Moment} {g : Gateway} {w : Worker} {outlet : Outlet} {sub : Subscription}
  {stage : Stage} {wake : Wake}

theorem passed_call?_none {told : List Event} {stage stage' : Stage}
    (h : stage.call?.bind Call.handedOver? = none)
    (h' : stage'.call?.bind Call.handedOver? = none) :
    passed outlet told stage = passed outlet told stage' := by
  cases outlet with
  | broker => rfl
  | receiver => simp [passed, h, h']

theorem release_serves {g₁ : Gateway} (told : List Event) (ended : Ended m g w sub stage wake)
    (passes : passed outlet told .idle =
      ((pushed? stage wake).toList.filter (· ≠ [])).map (sub.uuid, ·))
    (unsent : ∀ value ∈ pushed? stage wake, value ≠ [] →
      outlet.call? m.topics sub.uuid value = none) :
    (release g₁ w).Leads fun g' told' => Serves m g w outlet sub stage wake g' (told ++ told') := by
  have idle : ((g₁.setSlot w (g₁.slot w).release).slot w).state = .idle := by
    rw [Gateway.slot_setSlot_self]
    rfl
  rw [release, leads_wait, List.append_nil]
  refine ⟨passes, fun value hv hn call sent => ?_, fun _ => ⟨ended, idle⟩, by rintro ⟨⟩⟩
  rw [unsent value hv hn] at sent
  cases sent

/-- A worker that goes on to the next value has nothing on its way. -/
theorem serve_serves (told : List Event)
    (passes : passed outlet told .idle =
      ((pushed? stage wake).toList.filter (· ≠ [])).map (sub.uuid, ·))
    (unsent : ∀ value ∈ pushed? stage wake, value ≠ [] →
      outlet.call? m.topics sub.uuid value = none) :
    (serve m g w sub).Leads fun g' told' =>
      Serves m g w outlet sub stage wake g' (told ++ told') := by
  unfold serve
  split_ifs with alive
  · rw [leads_wait, List.append_nil]
    refine ⟨(passed_call?_none rfl rfl).trans passes, fun value hv hn call sent => ?_, nofun,
      fun _ => .inl rfl⟩
    rw [unsent value hv hn] at sent
    cases sent
  · exact release_serves told (.lost (by simpa using alive)) passes unsent

theorem deliver_serves {value : Bytes} (hv : pushed? stage wake = some value) (hn : value ≠ []) :
    (deliver m g w sub value outlet).Leads (Serves m g w outlet sub stage wake) := by
  have sends {told : List Event} {call : Call}
      (passes : passed outlet told (.delivering sub value call) = [(sub.uuid, value)])
      (sent : outlet.call? m.topics sub.uuid value = some call) :
      Serves m g w outlet sub stage wake g told (.delivering sub value call) := by
    refine ⟨by simp [passes, hv, hn], ?_, nofun, fun _ => .inr ⟨value, call, hv, rfl⟩⟩
    intro value' hv' _ call' sent'
    obtain rfl : value = value' := Option.some.inj (hv.symm.trans hv')
    rw [sent] at sent'
    cases sent'
    rfl
  cases outlet with
  | receiver => exact sends rfl rfl
  | broker =>
    rw [deliver, leads_telling]
    split
    · rename_i topic ht
      exact sends rfl (by simp [Outlet.call?, ht, Except.toOption])
    · rename_i e ht
      refine serve_serves [.notification sub.uuid value] ?_ ?_
      · simp [passed, hv, hn, Event.notification?]
      · simp [Outlet.call?, ht, Except.toOption]

theorem resume_serves {now : Instant} (serves : stage.subscription? = some sub)
    (woken : wake.ends (stage.signalled g w) stage.call? stage.deadline? now = true) :
    (resume m g w outlet stage wake).Leads (Serves m g w outlet sub stage wake) := by
  have silent : passed outlet [] .idle = [] := by
    cases outlet <;> rfl
  have stops (word : stage.signalled g w = true → (g.slot w).cancelled = true)
      (unpushed : pushed? stage .signal = none) (hw : wake = .signal) :
      (stop g w).Leads (Serves m g w outlet sub stage wake) := by
    subst hw
    exact release_serves [] (.cancelled rfl (word woken)) (by simp [unpushed, silent])
      (by simp [unpushed])
  have waits (empty : ∀ value ∈ pushed? stage wake, value = []) :
      (serve m g w sub).Leads (Serves m g w outlet sub stage wake) := by
    refine serve_serves [] ?_ fun value hv hn => absurd (empty value hv) hn
    cases hp : pushed? stage wake with
    | none => simp [silent]
    | some value => simp [silent, empty value hp]
  cases stage with
  | idle => cases serves
  | enabling sub' =>
    cases serves
    cases wake with
    | signal => exact stops id rfl rfl
    | timeout => simp [Wake.ends, Stage.deadline?] at woken
    | reply r =>
      simp only [resume]
      split
      · exact waits (by simp [pushed?])
      · rename_i e he
        exact release_serves [] (.refused rfl rfl he) (by simp [pushed?, silent])
          (by simp [pushed?])
  | awaiting sub' deadline =>
    cases serves
    cases wake with
    | signal => exact stops id rfl rfl
    | timeout => exact waits (by simp [pushed?])
    | reply r =>
      simp only [resume]
      split
      · rename_i hr
        exact waits (by simp [pushed?, hr, Except.toOption])
      · rename_i value hn hr
        exact deliver_serves (by simp [pushed?, hr, Except.toOption]) hn
      · rename_i e he
        exact release_serves [] (.failed rfl rfl he)
          (by simp [pushed?, he, Except.toOption, silent]) (by simp [pushed?, he, Except.toOption])
  | delivering sub' value call =>
    cases serves
    cases wake with
    | signal => simp [Wake.ends, Stage.signalled] at woken
    | timeout => simp [Wake.ends, Stage.deadline?] at woken
    | reply r => exact waits (by simp [pushed?])

/-- A worker goes on from asking the peer only with the answer that it will push. -/
theorem resume_enabling {now : Instant}
    (woken : wake.ends ((Stage.enabling sub).signalled g w) (Stage.enabling sub).call?
      (Stage.enabling sub).deadline? now = true) :
    (resume m g w outlet (.enabling sub) wake).Leads fun _ _ stage' =>
      stage'.subscription? = none ∨ ∃ r, wake = .reply r ∧ r.radio = .ok () := by
  cases wake with
  | signal => exact .inl rfl
  | timeout => simp [Wake.ends, Stage.deadline?] at woken
  | reply r =>
    simp only [resume]
    split
    · rename_i hr
      exact .inr ⟨r, rfl, hr⟩
    · exact .inl rfl

/-- A worker that rests passes nothing on, and asks the peer first when it takes a subscription. -/
theorem resume_idle :
    (resume m g w outlet .idle wake).Leads fun _ told stage' =>
      passed outlet told stage' = [] ∧ (stage' = .idle ∨ ∃ sub, stage' = .enabling sub) := by
  have silent (stage : Stage) (h : stage.call?.bind Call.handedOver? = none) :
      passed outlet [] stage = [] := by
    cases outlet with
    | broker => rfl
    | receiver => simp [passed, h]
  cases wake with
  | signal =>
    simp only [resume]
    split
    · exact ⟨silent _ rfl, .inr ⟨_, rfl⟩⟩
    · exact ⟨silent _ rfl, .inl rfl⟩
  | reply r => exact ⟨silent _ rfl, .inl rfl⟩
  | timeout => exact ⟨silent _ rfl, .inl rfl⟩

theorem Stage.eq_idle {stage : Stage} (h : stage.subscription? = none) : stage = .idle := by
  cases stage with
  | idle => rfl
  | _ => cases h

end Forwarding

/-! ## One step -/

namespace Shared

variable {setup : Setup} {past : List Step} {s s' : Shared} {m : Move} {told : List Event}
  {i : Worker} {sub : Subscription}

namespace Step

section

variable (t : Step) (i : Worker)

/-- What ends the wait of a worker in a step of its own, and where its values go. -/
def wake? : Option (Wake × Forwarding.Outlet) :=
  t.move.worker?.bind fun x => if x.1 = i then some x.2 else none

/-- What the peer has pushed to a worker that awaits it. -/
def pushed? : Option Bytes :=
  (t.wake? i).bind fun x => Forwarding.pushed? (t.before.workers i) x.1

/-- What a worker begins to pass on. -/
def passed : List (CanonicalUuid × Bytes) :=
  match t.wake? i with
  | some (_, outlet) => Forwarding.passed outlet t.told (t.after.workers i)
  | none => []

/-- The peer has been asked to push, and the radio has answered that it will. -/
def Enables (sub : Subscription) : Prop :=
  t.before.workers i = .enabling sub ∧
    ∃ r outlet, t.wake? i = some (.reply r, outlet) ∧ r.radio = .ok ()

/-- There is a reason for which a worker comes to the end of a subscription. -/
def Ends (setup : Setup) (sub : Subscription) : Prop :=
  ∃ w outlet, t.wake? i = some (w, outlet) ∧
    Forwarding.Ended (t.before.moment setup) t.before.gateway i sub (t.before.workers i) w

/-- What holds of each step while a worker serves a subscription, and after that. -/
structure Tends (setup : Setup) (sub : Subscription) : Prop where
  /-- What has been pushed is passed on, under the name that the subscription gives it. -/
  passes : t.passed i = ((t.pushed? i).toList.filter (· ≠ [])).map (sub.uuid, ·)
  /-- Only a worker that awaits a value passes one on, and not one that still passes on another. -/
  apart : t.passed i ≠ [] → ∃ deadline, t.before.workers i = .awaiting sub deadline
  /-- The worker waits until what it passes on has been taken. -/
  carries : ∀ w outlet, t.wake? i = some (w, outlet) → ∀ p ∈ t.passed i, ∀ call,
    outlet.call? setup.topics p.1 p.2 = some call → t.after.workers i = .delivering sub p.2 call
  waits : ∀ value call, t.before.workers i = .delivering sub value call →
    ∀ w outlet, t.wake? i = some (w, outlet) → ∃ r, w = .reply r
  /-- How long the worker waits for the next value. -/
  awaits : t.wake? i ≠ none → ∀ deadline, t.after.workers i = .awaiting sub deadline →
    deadline = t.before.now + setup.timing.notifyWait
  /-- A wait that has taken too long is followed by another as long as the connection lasts. -/
  outlasts : ∀ outlet, t.wake? i = some (.timeout, outlet) →
    (∃ deadline ≤ t.before.now, t.before.workers i = .awaiting sub deadline) ∧ t.passed i = [] ∧
      (t.before.alive sub.connection = true →
        t.after.workers i = .awaiting sub (t.before.now + setup.timing.notifyWait))
  ends : t.Exits i → t.Ends i setup sub ∧ (t.after.gateway.slot i).state = .idle

end

variable {t : Step}

/-- A step in which the worker does not go on. -/
theorem tends_of_rests (rests : t.wake? i = none)
    (same : t.after.workers i = t.before.workers i) : t.Tends i setup sub := by
  have unexited : ¬t.Exits i := by
    rintro ⟨served, after⟩
    rw [← same, after] at served
    cases served
  constructor <;> simp [passed, pushed?, rests, unexited]

theorem tends_of_idle {w : Wake} {outlet : Forwarding.Outlet}
    (idle : t.before.workers i = .idle) (still : t.after.workers i = .idle)
    (wake : t.wake? i = some (w, outlet)) (unsignalled : w ≠ .timeout)
    (silent : Forwarding.passed outlet t.told (t.after.workers i) = []) : t.Tends i setup sub := by
  have unexited : ¬t.Exits i := by
    rintro ⟨served, -⟩
    rw [idle] at served
    cases served
  have unpassed : t.passed i = [] := by simpa [passed, wake] using silent
  have unpushed : t.pushed? i = none := by simp [pushed?, wake, idle, Forwarding.pushed?]
  constructor <;> simp [unpassed, unpushed, idle, still, wake, unsignalled, unexited]

theorem tends_of_serves {w : Wake} {outlet : Forwarding.Outlet}
    (wake : t.wake? i = some (w, outlet))
    (woken : w.ends ((t.before.workers i).signalled t.before.gateway i) (t.before.workers i).call?
      (t.before.workers i).deadline? t.before.now = true)
    (served : (t.before.workers i).subscription? = some sub)
    (h : Forwarding.Serves (t.before.moment setup) t.before.gateway i outlet sub
      (t.before.workers i) w t.after.gateway t.told (t.after.workers i)) : t.Tends i setup sub where
  passes := by simpa [passed, pushed?, wake] using h.passes
  apart hp := by
    have pushed : Forwarding.pushed? (t.before.workers i) w ≠ none := by
      intro hn
      apply hp
      simpa [passed, wake, hn] using h.passes
    cases hs : t.before.workers i with
    | awaiting sub' deadline =>
      rw [hs] at served
      cases served
      exact ⟨deadline, rfl⟩
    | _ => simp [hs, Forwarding.pushed?] at pushed
  carries w' outlet' wake' p hp call sent := by
    rw [wake] at wake'
    cases wake'
    have hp' : p ∈ Forwarding.passed outlet t.told (t.after.workers i) := by
      simpa [passed, wake] using hp
    rw [h.passes] at hp'
    obtain ⟨value, hv, rfl⟩ := List.mem_map.1 hp'
    obtain ⟨hv, hn⟩ := List.mem_filter.1 hv
    exact h.carries value (by simpa using hv) (by simpa using hn) call sent
  waits value call hs w' outlet' wake' := by
    rw [wake] at wake'
    cases wake'
    rw [hs] at woken
    cases w with
    | reply r => exact ⟨r, rfl⟩
    | signal => simp [Wake.ends, Forwarding.Stage.signalled] at woken
    | timeout => simp [Wake.ends, Forwarding.Stage.deadline?] at woken
  awaits _ deadline hs := by
    rcases h.goesOn (by rw [hs]; rfl) with hs' | ⟨value, call, -, hs'⟩
    · rw [hs] at hs'
      cases hs'
      rfl
    · rw [hs] at hs'
      cases hs'
  outlasts outlet' wake' := by
    rw [wake] at wake'
    cases wake'
    have unpushed : Forwarding.pushed? (t.before.workers i) .timeout = none := by
      cases t.before.workers i <;> rfl
    refine ⟨?_, by simpa [passed, wake, unpushed] using h.passes, fun alive => ?_⟩
    · cases hs : t.before.workers i with
      | awaiting sub' deadline =>
        rw [hs] at served woken
        cases served
        refine ⟨deadline, ?_, rfl⟩
        simp only [Wake.ends, Forwarding.Stage.deadline?, Option.any_some, Bool.and_eq_true,
          decide_eq_true_eq] at woken
        exact woken.2
      | _ => simp [hs, Wake.ends, Forwarding.Stage.deadline?] at woken
    · cases hs : (t.after.workers i).subscription? with
      | some sub' =>
        apply (h.goesOn (by rw [hs]; rfl)).resolve_right
        rintro ⟨value, call, pushed, -⟩
        rw [unpushed] at pushed
        cases pushed
      | none =>
        rcases (h.ends hs).1 with ⟨⟨⟩, -⟩ | ⟨-, ⟨⟩, -⟩ | ⟨-, ⟨⟩, -⟩ | down
        have down' : t.before.alive sub.connection = false := down
        rw [alive] at down'
        cases down'
  ends exits := by
    obtain ⟨ended, idle⟩ := h.ends exits.2
    exact ⟨⟨w, outlet, wake, ended⟩, idle⟩

end Step

/-- What a step comes to for one worker: it waits on, or it goes on by itself. -/
theorem worker_of_moved (i : Worker) (h : Moved setup s m s' told) :
    (Step.wake? ⟨s, m, told, s'⟩ i = none ∧ s'.workers i = s.workers i) ∨
      ∃ w outlet, Step.wake? ⟨s, m, told, s'⟩ i = some (w, outlet) ∧
        s.wakes setup (.worker i outlet (s.workers i)) w = true ∧
        ∀ P, (Forwarding.resume (s.moment setup) s.gateway i outlet (s.workers i) w).Leads P →
          P s'.gateway told (s'.workers i) := by
  cases h with
  | @works j w outlet segment worker woken ran gateway workers told engagements =>
    by_cases hj : j = i
    · subst j
      refine .inr ⟨w, outlet, by simp [Step.wake?, worker], woken, fun P leads => ?_⟩
      rw [gateway, workers, Function.update_self, told]
      rw [ran] at leads
      exact leads
    · refine .inl ⟨by simp [Step.wake?, worker, hj], ?_⟩
      rw [workers, Function.update_of_ne (Ne.symm hj)]
  | acts moment w before behind e e' worker found left reaches workers =>
    exact .inl ⟨by simp [Step.wake?, worker], by rw [workers]⟩
  | hands move forwarded workers engagements =>
    exact .inl ⟨by simp [Step.wake?, move, Move.worker?], by rw [workers]⟩

theorem tends_of_moved (h : Moved setup s m s' told)
    (serves : (s.workers i).subscription? = none ∨ (s.workers i).subscription? = some sub)
    (untaken : Step.taken? ⟨s, m, told, s'⟩ i = none) :
    Step.Tends ⟨s, m, told, s'⟩ i setup sub := by
  rcases worker_of_moved i h with ⟨rests, same⟩ | ⟨w, outlet, wake, woken, leads⟩
  · exact Step.tends_of_rests rests same
  · rcases serves with rests | served
    · have idle := Forwarding.Stage.eq_idle rests
      rw [idle] at woken
      apply Step.tends_of_idle idle ?_ wake ?_ ?_
      · apply Forwarding.Stage.eq_idle
        simpa [Step.taken?, rests] using untaken
      · rintro rfl
        simp [System.wakes, Wake.ends, Strand.deadline?, Forwarding.Stage.deadline?] at woken
      · rw [idle] at leads
        exact (leads _ Forwarding.resume_idle).1
    · exact Step.tends_of_serves wake woken served
        (leads _ (Forwarding.resume_serves served woken))

/-- A worker that goes on by itself never asks the peer a second time. -/
theorem settles_of_moved (h : Moved setup s m s' told)
    (serves : (s.workers i).subscription? = none ∨ (s.workers i).subscription? = some sub)
    (untaken : Step.taken? ⟨s, m, told, s'⟩ i = none) :
    (Step.wake? ⟨s, m, told, s'⟩ i = none ∧ s'.workers i = s.workers i) ∨
      s'.workers i = .idle ∨ s'.workers i ≠ .enabling sub ∧
        (s'.workers i).subscription? = some sub ∧
        (s.workers i = .enabling sub → Step.Enables ⟨s, m, told, s'⟩ i sub) := by
  rcases worker_of_moved i h with rests | ⟨w, outlet, wake, woken, leads⟩
  · exact .inl rests
  · right
    rcases serves with rests | served
    · left
      apply Forwarding.Stage.eq_idle
      simpa [Step.taken?, rests] using untaken
    · cases hs : (s'.workers i).subscription? with
      | none => exact .inl (Forwarding.Stage.eq_idle hs)
      | some sub' =>
        right
        have goesOn := (leads _ (Forwarding.resume_serves served woken)).goesOn (by rw [hs]; rfl)
        rw [← hs]
        refine ⟨?_, ?_, fun enabling => ⟨enabling, ?_⟩⟩
        · rcases goesOn with after | ⟨value, call, -, after⟩ <;> simp [after]
        · rcases goesOn with after | ⟨value, call, -, after⟩ <;>
            simp [after, Forwarding.Stage.subscription?]
        · rw [enabling] at woken leads
          obtain ⟨r, rfl, hr⟩ :=
            (leads _ (Forwarding.resume_enabling woken)).resolve_left (by simp [hs])
          exact ⟨r, outlet, wake, hr⟩

/-! ## From the subscription on -/

/-- How far a worker has come with a subscription that it took before these steps. -/
inductive Progress (i : Worker) (sub : Subscription) (steps : List Step) :
    Forwarding.Stage → Prop
  | enabling (waits : ∀ t ∈ steps, t.passed i = [] ∧ ¬t.Exits i) :
    Progress i sub steps (.enabling sub)
  | refused (unpassed : ∀ t ∈ steps, t.passed i = []) : Progress i sub steps .idle
  | enabled {stage : Forwarding.Stage} (enables : ∃ t ∈ steps, t.Enables i sub)
      (unrefused : ∀ t ∈ steps, t.before.workers i = .enabling sub → ¬t.Exits i)
      (beyond : stage ≠ .enabling sub)
      (serves : stage.subscription? = none ∨ stage.subscription? = some sub) :
    Progress i sub steps stage

theorem Progress.serves {steps : List Step} {stage : Forwarding.Stage}
    (h : Progress i sub steps stage) :
    stage.subscription? = none ∨ stage.subscription? = some sub := by
  cases h with
  | enabling waits => exact .inr rfl
  | refused unpassed => exact .inl rfl
  | enabled enables unrefused beyond serves => exact serves

/-- What a worker makes of a subscription that it took before these steps, the latest of which comes
first. -/
structure Delivers (setup : Setup) (i : Worker) (sub : Subscription) (steps : List Step) :
    Prop where
  passes : steps.flatMap (·.passed i) =
    ((steps.filterMap (·.pushed? i)).filter (· ≠ [])).map (sub.uuid, ·)
  /-- Nothing is passed on before the radio has answered that the peer will push. -/
  enabled : ∀ later t earlier, steps = later ++ t :: earlier → t.passed i ≠ [] →
    ∃ u ∈ earlier, u.Enables i sub
  /-- Nothing at all is passed on where that fails or where the worker is told to stop before. -/
  refused : ∀ t ∈ steps, t.before.workers i = .enabling sub → t.Exits i →
    steps.flatMap (·.passed i) = []
  tends : ∀ t ∈ steps, t.Tends i setup sub

/-- A worker that has just taken a subscription is about to ask the peer. -/
theorem enabling_of_taken (h : Moved setup s m s' told)
    (taken : Step.taken? ⟨s, m, told, s'⟩ i = some sub) : s'.workers i = .enabling sub := by
  have hb : (s.workers i).subscription? = none := by
    by_contra hn
    simp [Step.taken?, hn] at taken
  have hs : (s'.workers i).subscription? = some sub := by simpa [Step.taken?, hb] using taken
  rcases worker_of_moved i h with ⟨-, same⟩ | ⟨w, outlet, -, -, leads⟩
  · rw [same, hb] at hs
    cases hs
  · rw [Forwarding.Stage.eq_idle hb] at leads
    rcases (leads _ Forwarding.resume_idle).2 with idle | ⟨sub', enabling⟩
    · rw [idle] at hs
      cases hs
    · rw [enabling] at hs ⊢
      cases hs
      rfl

theorem Step.Tends.unpassed {t : Step} (h : t.Tends i setup sub)
    (hn : ∀ deadline, t.before.workers i ≠ .awaiting sub deadline) : t.passed i = [] := by
  by_contra hp
  obtain ⟨deadline, hd⟩ := h.apart hp
  exact hn deadline hd

theorem Progress.moved {steps : List Step} (h : Progress i sub steps (s.workers i))
    (hm : Moved setup s m s' told) (untaken : Step.taken? ⟨s, m, told, s'⟩ i = none) :
    Progress i sub (⟨s, m, told, s'⟩ :: steps) (s'.workers i) := by
  have tends := tends_of_moved hm h.serves untaken
  have settles := settles_of_moved hm h.serves untaken
  generalize hb : s.workers i = stage at h
  cases h with
  | enabling waits =>
    have unpassed := tends.unpassed (by simp [hb])
    rcases settles with ⟨-, same⟩ | idle | ⟨beyond, served, enables⟩
    · rw [same, hb]
      refine .enabling (List.forall_mem_cons.2 ⟨⟨unpassed, ?_⟩, waits⟩)
      rintro ⟨-, exited⟩
      rw [same, hb] at exited
      cases exited
    · rw [idle]
      exact .refused (List.forall_mem_cons.2 ⟨unpassed, fun t ht => (waits t ht).1⟩)
    · refine .enabled ⟨_, List.mem_cons_self, enables hb⟩ ?_ beyond (.inr served)
      refine List.forall_mem_cons.2 ⟨fun _ exits => ?_, fun t ht _ => (waits t ht).2⟩
      have rests : (s'.workers i).subscription? = none := exits.2
      rw [served] at rests
      cases rests
  | refused unpassed =>
    have idle : s'.workers i = .idle := by
      apply Forwarding.Stage.eq_idle
      have rests : (s.workers i).subscription? = none := by rw [hb]; rfl
      simpa [Step.taken?, rests] using untaken
    rw [idle]
    exact .refused (List.forall_mem_cons.2 ⟨tends.unpassed (by simp [hb]), unpassed⟩)
  | enabled enables unrefused beyond serves =>
    obtain ⟨t, ht, enables⟩ := enables
    refine .enabled ⟨t, List.mem_cons_of_mem _ ht, enables⟩ ?_ ?_ ?_
    · exact List.forall_mem_cons.2 ⟨fun enabling => absurd (hb.symm.trans enabling) beyond,
        unrefused⟩
    · rcases settles with ⟨-, same⟩ | idle | ⟨beyond', -⟩
      · rw [same, hb]
        exact beyond
      · simp [idle]
      · exact beyond'
    · rcases settles with ⟨-, same⟩ | idle | ⟨-, served, -⟩
      · rw [same, hb]
        exact serves
      · exact .inl (by rw [idle]; rfl)
      · exact .inr served

theorem Delivers.moved {steps : List Step} (h : Delivers setup i sub steps)
    (progress : Progress i sub steps (s.workers i)) (hm : Moved setup s m s' told)
    (untaken : Step.taken? ⟨s, m, told, s'⟩ i = none) :
    Delivers setup i sub (⟨s, m, told, s'⟩ :: steps) := by
  have tends := tends_of_moved hm progress.serves untaken
  have enables (hp : Step.passed ⟨s, m, told, s'⟩ i ≠ []) : ∃ u ∈ steps, u.Enables i sub := by
    obtain ⟨deadline, awaiting⟩ := tends.apart hp
    generalize hb : s.workers i = stage at progress
    cases progress with
    | enabled enables unrefused beyond serves => exact enables
    | _ => cases hb.symm.trans awaiting
  constructor
  · rw [List.flatMap_cons, h.passes, tends.passes]
    cases hp : Step.pushed? ⟨s, m, told, s'⟩ i with
    | none => simp [hp]
    | some value => by_cases hv : value = [] <;> simp [hp, hv]
  · intro later t earlier he hp
    rcases later with _ | ⟨u, later⟩
    · cases he
      exact enables hp
    · cases he
      exact h.enabled later t earlier rfl hp
  · have last := progress.moved hm untaken
    intro t ht enabling exits
    generalize s'.workers i = stage at last
    have unpassed : ∀ u ∈ (⟨s, m, told, s'⟩ : Step) :: steps, u.passed i = [] := by
      cases last with
      | enabling waits => exact fun u hu => (waits u hu).1
      | refused unpassed => exact unpassed
      | enabled _ unrefused => exact absurd exits (unrefused t ht enabling)
    simpa using unpassed
  · exact List.forall_mem_cons.2 ⟨tends, h.tends⟩

/-- A worker passes on exactly what the peer pushes for its subscription, whatever the radio, the
peer and the receivers do. -/
theorem Run.delivers {later earlier : List Step} {t : Step}
    (h : Run setup (later ++ t :: earlier) s) (taken : t.taken? i = some sub)
    (same : ∀ u ∈ later, u.taken? i = none) : Delivers setup i sub later := by
  suffices Delivers setup i sub later ∧ Progress i sub later (s.workers i) from this.1
  induction later generalizing s with
  | nil =>
    cases h with
    | step run moved =>
      rw [enabling_of_taken (moved_of_move? moved) taken]
      exact ⟨⟨rfl, by simp, by simp, by simp⟩, .enabling (by simp)⟩
  | cons u later ih =>
    cases h with
    | step run moved =>
      obtain ⟨untaken, same⟩ := List.forall_mem_cons.1 same
      obtain ⟨delivers, progress⟩ := ih run same
      have hm := moved_of_move? moved
      exact ⟨delivers.moved progress hm untaken, progress.moved hm untaken⟩

/-! ## To try runs with -/

/-- What moves from the start lead to, with the run cut before its last steps. -/
theorem Run.exists_cut (setup : Setup) (online running : Bool) (ms : List Move) (n : Nat)
    (p : List Step → Step → List Step → Bool)
    (h : (Shared.trace? setup [] (.initial online running) ms).any (fun reached =>
      reached.1[n]?.any fun t => p (reached.1.take n) t (reached.1.drop (n + 1))) = true) :
    ∃ later t earlier s, Run setup (later ++ t :: earlier) s ∧ p later t earlier = true := by
  obtain ⟨past, s, run, hp⟩ := Run.exists_of_any h
  obtain ⟨later, t, earlier, rfl, holds⟩ := exists_cut_of_any (p := p) hp
  exact ⟨later, t, earlier, s, run, holds⟩

/-- Two values are handed over, with an empty one and a wait in vain between them, until the peer
cannot be read any more. -/
def pushes : List Move :=
  [.call (.connect .sample), .errand 0 .signal, .errand 0 (.reply .done),
    .errand 0 (.reply (.connection 1)), .errand 0 (.reply (.characteristics [.sample])),
    .forward Characteristic.sample.descriptor.uuid, .worker 0 .signal, .worker 0 (.reply .done),
    .worker 0 (.reply (.value [7])), .worker 0 (.reply .done), .worker 0 (.reply (.value [])),
    .own (.tick 60000), .worker 0 .timeout, .worker 0 (.reply (.value [8])),
    .worker 0 (.reply .done), .worker 0 (.reply (.radioFault .read))]

theorem delivers_two_values : ∃ later t earlier s sub, Run .sample (later ++ t :: earlier) s ∧
    t.taken? 0 = some sub ∧ (∀ u ∈ later, u.taken? 0 = none) ∧
    (∃ u ∈ later, u.wake? 0 = some (.timeout, .receiver)) ∧
    later.flatMap (·.passed 0) = [(sub.uuid, [8]), (sub.uuid, [7])] ∧
    Delivers .sample 0 sub later := by
  obtain ⟨later, t, earlier, s, run, hp⟩ := Run.exists_cut .sample false false pushes 9
    (fun later t _ => (t.taken? 0).any (fun sub =>
        later.flatMap (·.passed 0) = [(sub.uuid, [8]), (sub.uuid, [7])]) &&
      later.all (fun u => u.taken? 0 = none) &&
      later.any fun u => u.wake? 0 = some (.timeout, .receiver)) (by decide +kernel)
  simp only [Bool.and_eq_true, List.all_eq_true, List.any_eq_true, decide_eq_true_eq] at hp
  obtain ⟨⟨taken, untaken⟩, vain⟩ := hp
  obtain ⟨sub, taken, passed⟩ := (Option.any_eq_true _ _).1 taken
  exact ⟨later, t, earlier, s, sub, run, taken, untaken, vain, by simpa using passed,
    run.delivers taken untaken⟩

end Shared

end GattGateway
