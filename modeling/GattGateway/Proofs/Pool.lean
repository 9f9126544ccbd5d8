import GattGateway.Proofs.Clients
import GattGateway.Proofs.Workers

/-!
# The pool of workers

A slot and its worker agree in every state: the slot is idle exactly while the worker has nothing to
serve. Strands other than the worker hand subscriptions to idle slots only, and mark slots only
whose workers have not come to their end; a slot becomes idle exactly when its worker exits.
-/
namespace GattGateway

/-! ## One slot -/

namespace Slot

/-- A slot stays as it is, but for its signals, or a subscription is handed to it while it is
idle. -/
inductive Takes (a b : Slot) : Prop
  | stays (state : b.state = a.state) (assigned : b.assigned = a.assigned)
  | takes {sub : Subscription} (idle : a.state = .idle) (state : b.state = .forwarding sub.uuid)
      (assigned : b.assigned = some sub)

/-- What strands other than its worker do to a slot. -/
inductive Passes (a b : Slot) : Prop
  | takes (h : a.Takes b)
  | drains (used : a.state ≠ .idle) (state : b.state = .draining)
      (assigned : b.assigned = a.assigned)

/-- What happens to a slot and its worker, who serves one subscription before and another after. -/
inductive Goes (a : Slot) (served : Option Subscription) (b : Slot)
    (served' : Option Subscription) : Prop
  | passes (slot : a.Passes b) (worker : served' = served)
  | serves {sub : Subscription} (rests : served = none) (assigned : a.assigned = some sub)
      (state : b.state = a.state) (taken : b.assigned = none) (serves : served' = some sub)
  | exits {sub : Subscription} (serves : served = some sub) (state : b.state = .idle)
      (assigned : b.assigned = a.assigned) (rests : served' = none)

/-- A slot is idle while its worker has nothing to serve, and nothing is handed to a worker that
serves. -/
structure Fits (a : Slot) (served : Option Subscription) : Prop where
  idle_iff : a.state = .idle ↔ a.assigned = none ∧ served = none
  unserved : a.assigned.isSome = true → served = none

variable {a b c : Slot} {served served' : Option Subscription}

theorem not_idle_of_isForwarding (h : a.isForwarding = true) : a.state ≠ .idle := by
  obtain ⟨uuid, forwarding⟩ := isForwarding_iff.1 h
  simp [forwarding]

theorem Takes.refl (a : Slot) : a.Takes a := .stays rfl rfl

theorem Takes.trans (h : a.Takes b) (h' : b.Takes c) : a.Takes c := by
  cases h' with
  | stays state' assigned' =>
    cases h with
    | stays state assigned => exact .stays (state'.trans state) (assigned'.trans assigned)
    | takes idle state assigned => exact .takes idle (state'.trans state) (assigned'.trans assigned)
  | takes idle' state' assigned' =>
    cases h with
    | stays state assigned => exact .takes (state.symm.trans idle') state' assigned'
    | takes idle state assigned =>
      rw [state] at idle'
      cases idle'

theorem Passes.andTakes (h : a.Passes b) (h' : b.Takes c) : a.Passes c := by
  cases h with
  | takes h => exact .takes (h.trans h')
  | drains used state assigned =>
    cases h' with
    | stays state' assigned' => exact .drains used (state'.trans state) (assigned'.trans assigned)
    | takes idle state' assigned' =>
      rw [state] at idle
      cases idle

theorem Fits.passes (h : a.Fits served) (hp : a.Passes b) : b.Fits served := by
  cases hp with
  | drains used state assigned =>
    refine ⟨?_, fun hb => h.unserved (assigned ▸ hb)⟩
    rw [assigned, ← h.idle_iff, state]
    simp [used]
  | takes ht =>
    cases ht with
    | stays state assigned =>
      refine ⟨?_, fun hb => h.unserved (assigned ▸ hb)⟩
      rw [state, assigned]
      exact h.idle_iff
    | takes idle state assigned =>
      have rests := (h.idle_iff.1 idle).2
      refine ⟨?_, fun _ => rests⟩
      simp [state, assigned]

theorem Fits.goes (h : a.Fits served) (hg : Goes a served b served') : b.Fits served' := by
  cases hg with
  | passes slot worker =>
    rw [worker]
    exact h.passes slot
  | serves rests assigned state taken serves =>
    have used : a.state ≠ .idle := by
      intro idle
      rw [(h.idle_iff.1 idle).1] at assigned
      cases assigned
    constructor
    · simp [state, used, serves]
    · simp [taken]
  | exits serves state assigned rests =>
    have unassigned : a.assigned = none := by
      by_contra hn
      have := h.unserved (Option.isSome_iff_ne_none.2 hn)
      rw [this] at serves
      cases serves
    constructor
    · simp [state, assigned, unassigned, rests]
    · simp [rests]

end Slot

/-! ## What strands do to the pool -/

/-- No two workers forward the same characteristic. -/
def Gateway.Distinct (g : Gateway) : Prop :=
  ∀ v w uuid, (g.slot v).state = .forwarding uuid → (g.slot w).state = .forwarding uuid → v = w

/-- Subscriptions may have been handed to idle slots. Slots that are idle still are untouched. -/
structure Gateway.Fills (g g' : Gateway) : Prop where
  takes : ∀ w, (g.slot w).Takes (g'.slot w)
  spares : ∀ w, (g'.slot w).state = .idle → g'.slot w = g.slot w
  distinct : g.Distinct → g'.Distinct

def Engagement.isClosing : Engagement → Bool
  | .closing _ => true
  | _ => false

/-- A worker that a teardown awaits has told its end if its slot is idle. -/
def Engagement.Held (g : Gateway) : Engagement → Prop
  | .closing (.stopping w _) => (g.slot w).state = .idle → (g.slot w).stopped = true
  | _ => True

section

variable {m : Moment} {g g' g'' : Gateway} {e e' : Option Engagement}

theorem Engagement.held_of_not_closing {x : Engagement} (h : x.isClosing = false) : x.Held g := by
  cases x with
  | closing s => cases h
  | _ => trivial

theorem Engagement.Held.of_slots {x : Engagement} (h : x.Held g) (hs : g'.slots = g.slots) :
    x.Held g' := by
  unfold Held at h ⊢
  split
  · simpa only [Gateway.slot, hs] using h
  · trivial

theorem Gateway.Distinct.of_forwarding (h : g.Distinct)
    (hf : ∀ w uuid, (g'.slot w).state = .forwarding uuid → (g.slot w).state = .forwarding uuid) :
    g'.Distinct := by
  intro v w uuid hv hw
  exact h v w uuid (hf v uuid hv) (hf w uuid hw)

namespace Gateway.Fills

theorem of_slots (h : g'.slots = g.slots) : g.Fills g' := by
  have same (w : Worker) : g'.slot w = g.slot w := by simp only [Gateway.slot, h]
  refine ⟨fun w => ?_, fun w _ => same w, fun hd => ?_⟩
  · rw [same]
    exact .refl _
  · apply hd.of_forwarding
    intro w uuid hw
    rwa [same] at hw

theorem trans (h : g.Fills g') (h' : g'.Fills g'') : g.Fills g'' where
  takes w := (h.takes w).trans (h'.takes w)
  spares w idle := by
    have he := h'.spares w idle
    rw [he] at idle ⊢
    exact h.spares w idle
  distinct hd := h'.distinct (h.distinct hd)

theorem of_forward? {uuid : CanonicalUuid} (h : g.forward? uuid = some g') : g.Fills g' := by
  obtain ⟨w, sub, ha, rfl⟩ := Gateway.forward?_eq_some h
  refine ⟨fun v => ?_, fun v idle => ?_, fun hd => ?_⟩
  · rw [Gateway.slot_setSlot]
    split_ifs with hv
    · subst v
      exact .takes ha.idle rfl rfl
    · exact .refl _
  · rw [Gateway.slot_setSlot] at idle ⊢
    split_ifs at idle ⊢
    · cases idle
    · rfl
  · -- The characteristic was forwarded by nobody before.
    intro v v' uuid' hv hv'
    rw [Gateway.slot_setSlot] at hv hv'
    split_ifs at hv hv' with h₁ h₂ h₂
    · exact h₁.trans h₂.symm
    · cases hv
      rw [ha.uuid] at hv'
      exact absurd hv' (ha.unforwarded v')
    · cases hv'
      rw [ha.uuid] at hv
      exact absurd hv (ha.unforwarded v)
    · exact hd v v' uuid' hv hv'

/-- The word to stop for a worker that forwards. -/
theorem cancel {w : Worker} (hf : (g.slot w).isForwarding = true) :
    g.Fills (g.setSlot w { g.slot w with cancelled := true }) := by
  refine ⟨fun v => ?_, fun v idle => ?_, fun hd => hd.of_forwarding fun v uuid hv => ?_⟩
  · rw [Gateway.slot_setSlot]
    split_ifs with hv
    · subst v
      exact .stays rfl rfl
    · exact .refl _
  · rw [Gateway.slot_setSlot] at idle ⊢
    split_ifs at idle ⊢ with hv
    · exact absurd idle (Slot.not_idle_of_isForwarding hf)
    · rfl
  · rw [Gateway.slot_setSlot] at hv
    split_ifs at hv with hvw
    · subst v
      exact hv
    · exact hv

end Gateway.Fills

theorem Gateway.Fills.held {x : Engagement} (h : g.Fills g') (hx : x.Held g) : x.Held g' := by
  unfold Engagement.Held at hx ⊢
  split
  · rename_i w deadline
    intro idle
    have same := h.spares w idle
    rw [same] at idle ⊢
    exact hx idle
  · trivial

theorem Teardown.Stops.fills {first : Nat} {next : Option Stage} (h : Stops g first g' next) :
    g.Fills g' ∧ ∀ stage, next = some stage → (Engagement.closing stage).Held g' := by
  cases h with
  | stops forwarding before =>
    refine ⟨.cancel forwarding, ?_⟩
    rintro stage ⟨⟩ idle
    rw [Gateway.slot_setSlot_self] at idle
    exact absurd idle (Slot.not_idle_of_isForwarding forwarding)
  | hangsUp session quiet =>
    refine ⟨.of_slots rfl, ?_⟩
    rintro stage ⟨⟩
    trivial
  | releases session last =>
    refine ⟨.of_slots rfl, ?_⟩
    rintro stage rfl
    obtain ⟨⟨⟩⟩ | ⟨⟨⟩⟩ := last
    trivial

/-- What a strand does to the pool. Only a teardown under way marks a slot, or takes notice of the
end of its worker. -/
structure Pools (g : Gateway) (e : Option Engagement) (g' : Gateway) (e' : Option Engagement) :
    Prop where
  fills : (∀ x ∈ e, x.isClosing = false) → g.Fills g'
  passes : ∀ w, (g.slot w).Passes (g'.slot w)
  distinct : g.Distinct → g'.Distinct
  held : ∀ x ∈ e', x.Held g'

namespace Pools

theorem of_fills (h : g.Fills g') (held : ∀ x ∈ e', x.Held g') : Pools g e g' e' :=
  ⟨fun _ => h, fun w => .takes (h.takes w), h.distinct, held⟩

theorem andFills (h : Pools g e g' e') (hf : g'.Fills g'') {e'' : Option Engagement}
    (held : ∀ x ∈ e'', x.Held g'') : Pools g e g'' e'' :=
  ⟨fun he => (h.fills he).trans hf, fun w => (h.passes w).andTakes (hf.takes w),
    fun hd => hf.distinct (h.distinct hd), held⟩

end Pools

theorem Resting.not_closing (h : Resting e) : ∀ x ∈ e, x.isClosing = false := by
  rcases h with rfl | rfl
  · nofun
  · rintro x ⟨⟩
    rfl

theorem Resting.held (h : Resting e) : ∀ x ∈ e, x.Held g := by
  rcases h with rfl | rfl
  · nofun
  · rintro x ⟨⟩
    trivial

/-- A teardown that goes on marks no slot whose worker has come to its end. -/
theorem Teardown.Resumes.pools {stage : Stage} {w : Wake} {next : Option Stage}
    (h : Resumes g stage w g' next) (held : (Engagement.closing stage).Held g)
    (timeout : w = .timeout → stage.signalled g = false) :
    Pools g (some (.closing stage)) g' (next.map .closing) := by
  have nobody : (∀ x ∈ some (Engagement.closing stage), x.isClosing = false) → False := by
    intro hn
    exact absurd (hn _ rfl) (by simp [Engagement.isClosing])
  -- The slot of the awaited worker changes first, and the teardown goes on from there.
  have goesOn {w : Worker} {s : Slot} (rest : Stops (g.setSlot w s) (w.val + 1) g' next)
      (hs : (g.slot w).Passes s)
      (hf : ∀ uuid, s.state = .forwarding uuid → (g.slot w).state = .forwarding uuid) :
      Pools g (some (.closing stage)) g' (next.map .closing) := by
    obtain ⟨fills, hn⟩ := rest.fills
    have marked : Pools g (some (.closing stage)) (g.setSlot w s) none := by
      refine ⟨fun hc => (nobody hc).elim, fun v => ?_, fun hd => hd.of_forwarding ?_, nofun⟩
      · rw [Gateway.slot_setSlot]
        split_ifs with hv
        · subst v
          exact hs
        · exact .takes (.refl _)
      · intro v uuid hv
        rw [Gateway.slot_setSlot] at hv
        split_ifs at hv with hvw
        · subst v
          exact hf uuid hv
        · exact hv
    apply marked.andFills fills
    intro x hx
    obtain ⟨stage', hnext, rfl⟩ := Option.map_eq_some_iff.1 hx
    exact hn stage' hnext
  cases h with
  | waits => exact .of_fills (.of_slots rfl) (by rintro x ⟨⟩; exact held)
  | stopped rest => exact goesOn rest (.takes (.stays rfl rfl)) fun _ hs => hs
  | @late w deadline g' next rest =>
    have running : (g.slot w).stopped = false := timeout rfl
    refine goesOn rest (.drains ?_ rfl rfl) ?_
    · intro idle
      rw [held idle] at running
      cases running
    · intro uuid hs
      cases hs
  | hungUp last =>
    refine .of_fills (.of_slots rfl) ?_
    intro x hx
    obtain ⟨stage', rfl, rfl⟩ := Option.map_eq_some_iff.1 hx
    obtain ⟨⟨⟩⟩ | ⟨⟨⟩⟩ := last
    trivial
  | off powered => exact .of_fills (.of_slots rfl) nofun

theorem Acts.pools (h : Acts m w g e g' e') (held : ∀ x ∈ e, x.Held g) : Pools g e g' e' := by
  induction h with
  | aside rests ha => exact .of_fills (.of_slots ha.slots) fun x hx => (held x hx).of_slots ha.slots
  | @opens g e peer rests =>
    have same : (Dial.begin m g peer).gateway.slots = g.slots := by
      apply Segment.Ends.gateway (P := fun g' => g'.slots = g.slots)
      exact Dial.begin_bond.imp (fun _ _ hb => by rw [hb.1]) fun _ _ hb => by rw [hb.1]
    exact .of_fills (.of_slots same) (forall_mem_engagement? (fun _ _ => trivial) rests.held)
  | @opensOn g s woken =>
    have same : (Dial.resume m g s w).gateway.slots = g.slots := by
      apply Segment.Ends.gateway (P := fun g' => g'.slots = g.slots)
      exact Dial.resume_bond.imp (fun _ _ hb => hb.2) fun _ _ hb => hb.2
    have settles : Resting (some .settling) := .inr rfl
    exact .of_fills (.of_slots same) (forall_mem_engagement? (fun _ _ => trivial) settles.held)
  | closes rests =>
    obtain ⟨fills, waits⟩ := (Teardown.stopFrom_stops (m := m)).fills
    exact .of_fills fills (forall_mem_engagement? waits rests.held)
  | closesOn s woken =>
    have goesOn := (Teardown.resume_resumes (m := m)).pools (held _ rfl) fun hw =>
      (woken.timeout hw).1
    have settles : Resting (some .settling) := .inr rfl
    refine goesOn.andFills (.of_slots rfl) (forall_mem_engagement? ?_ settles.held)
    intro stage hs
    exact goesOn.held _ (by simp [hs])
  | forwards forwarded => exact .of_fills (.of_forward? forwarded) (by rintro x ⟨⟩; trivial)
  | retires => exact .of_fills (.of_slots rfl) nofun
  | seq first rests rest ih₁ ih₂ =>
    have h₂ := ih₂ rests.held
    exact (ih₁ held).andFills (h₂.fills rests.not_closing) h₂.held

theorem Reaches.pools (h : Reaches m w g e g' e') (held : ∀ x ∈ e, x.Held g) : Pools g e g' e' := by
  rcases h with h | ⟨rfl, h⟩
  · exact h.pools held
  · have settles : Resting (some .settling) := .inr rfl
    exact (h.pools held).andFills (.of_slots rfl) settles.held

end

/-! ## What a worker does to the pool -/

namespace Forwarding.Works

variable {g g' : Gateway} {w : Worker} {stage stage' : Stage}

theorem goes (h : Works g w stage g' stage') :
    Slot.Goes (g.slot w) stage.subscription? (g'.slot w) stage'.subscription? := by
  cases h with
  | takes rests assigned slot serves =>
    subst slot
    rw [Gateway.slot_setSlot_self]
    exact .serves rests assigned rfl rfl serves
  | goesOn same serves =>
    subst same
    exact .passes (.takes (.refl _)) serves
  | exits cancelled serves slot rests =>
    subst slot
    rw [Gateway.slot_setSlot_self]
    exact .exits serves rfl rfl rests

theorem other (h : Works g w stage g' stage') {v : Worker} (hv : v ≠ w) :
    g'.slot v = g.slot v := by
  cases h with
  | takes rests assigned slot serves => rw [slot, Gateway.slot_setSlot, if_neg hv]
  | goesOn same serves => rw [same]
  | exits cancelled serves slot rests => rw [slot, Gateway.slot_setSlot, if_neg hv]

/-- The slot of the worker stays in its state, or it becomes idle as the worker tells its end. -/
theorem slot (h : Works g w stage g' stage') :
    (g'.slot w).state = (g.slot w).state ∧ (g'.slot w).stopped = (g.slot w).stopped ∧
        (g'.slot w).cancelled = (g.slot w).cancelled ∨
      (g'.slot w).state = .idle ∧ (g'.slot w).stopped = true := by
  cases h with
  | takes rests assigned slot serves =>
    subst slot
    rw [Gateway.slot_setSlot_self]
    exact .inl ⟨rfl, rfl, rfl⟩
  | goesOn same serves =>
    subst same
    exact .inl ⟨rfl, rfl, rfl⟩
  | exits cancelled serves slot rests =>
    subst slot
    rw [Gateway.slot_setSlot_self]
    exact .inr ⟨rfl, rfl⟩

theorem distinct (h : Works g w stage g' stage') (hd : g.Distinct) : g'.Distinct := by
  apply hd.of_forwarding
  intro v uuid hv
  by_cases hvw : v = w
  · subst v
    rcases h.slot with ⟨same, -, -⟩ | ⟨idle, -⟩
    · exact same.symm.trans hv
    · rw [idle] at hv
      cases hv
  · rwa [h.other hvw] at hv

theorem held (h : Works g w stage g' stage') {x : Engagement} (hx : x.Held g) : x.Held g' := by
  unfold Engagement.Held at hx ⊢
  split
  · rename_i v deadline
    intro idle
    by_cases hvw : v = w
    · subst v
      rcases h.slot with ⟨state, stopped, -⟩ | ⟨-, stopped⟩
      · exact stopped.trans (hx (state.symm.trans idle))
      · exact stopped
    · rw [h.other hvw] at idle ⊢
      exact hx idle
  · trivial

end Forwarding.Works

/-! ## Every state and every step of a run -/

namespace Shared

variable {setup : Setup} {past : List Step} {s s' : Shared} {m : Move} {told : List Event}

/-- The teardowns under way. -/
def teardowns (s : Shared) : Nat := s.engagements.countP (·.isClosing)

/-- Slots and workers agree. -/
structure Pooled (s : Shared) : Prop where
  fits : ∀ w, (s.gateway.slot w).Fits (s.workers w).subscription?
  distinct : s.gateway.Distinct

/-- Slots and workers agree, and so do teardowns under way. -/
structure Tended (s : Shared) : Prop extends Pooled s where
  held : ∀ x ∈ s.engagements, x.Held s.gateway

/-- Beside a teardown under way there is no other. -/
theorem others_rest {before behind : List Engagement} {y : Engagement}
    (found : s.engagements = before ++ (some y).toList ++ behind) (single : s.teardowns ≤ 1)
    (hy : y.isClosing = true) : ∀ x ∈ before ++ behind, x.isClosing = false := by
  have none_left : (before ++ behind).countP (·.isClosing) = 0 := by
    rw [teardowns, found] at single
    simp only [Option.toList_some, List.countP_append, List.countP_singleton, hy,
      if_true] at single ⊢
    omega
  intro x hx
  simpa using List.countP_eq_zero.1 none_left x hx

theorem tended_initial (online running : Bool) : (initial online running).Tended := by
  have blank (w : Worker) : (initial online running).gateway.slot w = {} := Gateway.slot_initial w
  refine ⟨⟨fun w => ?_, fun v w uuid hv => ?_⟩, nofun⟩
  · rw [blank]
    exact ⟨by simp [initial, System.initial, Forwarding.Stage.subscription?], nofun⟩
  · rw [blank] at hv
    cases hv

theorem works_of_ran {i : Worker} {w : Wake} {outlet : Forwarding.Outlet}
    {segment : Segment Forwarding.Stage Empty}
    (ran : Forwarding.resume (s.moment setup) s.gateway i outlet (s.workers i) w = segment)
    (gateway : s'.gateway = segment.gateway)
    (workers : s'.workers = Function.update s.workers i segment.turn.stage) :
    Forwarding.Works s.gateway i (s.workers i) s'.gateway (s'.workers i) := by
  subst ran
  rw [gateway, workers, Function.update_self]
  exact Forwarding.resume_works

/-- Only one teardown is under way, be it that of the strand that goes on or another: what the other
strands have under way stays held. -/
theorem Tended.others_held {before behind : List Engagement} {e e' : Option Engagement}
    (h : s.Tended) (single : s.teardowns ≤ 1)
    (found : s.engagements = before ++ e.toList ++ behind)
    (pools : Pools s.gateway e s'.gateway e') : ∀ x ∈ before ++ behind, x.Held s'.gateway := by
  intro x hx
  by_cases closing : ∃ y ∈ e, y.isClosing = true
  · obtain ⟨y, rfl, hy⟩ := closing
    exact Engagement.held_of_not_closing (others_rest found single hy x hx)
  · have fills := pools.fills fun y hy => by
      by_contra hc
      exact closing ⟨y, hy, by simpa using hc⟩
    have hx' : x ∈ s.engagements := by
      rw [found]
      simp only [List.mem_append] at hx ⊢
      exact hx.imp .inl id
    exact fills.held (h.held x hx')

theorem Tended.moved (h : s.Tended) (single : s.teardowns ≤ 1) (hm : Moved setup s m s' told) :
    (∀ w, Slot.Goes (s.gateway.slot w) (s.workers w).subscription? (s'.gateway.slot w)
      (s'.workers w).subscription?) ∧ s'.Tended := by
  have tended (goes : ∀ w, Slot.Goes (s.gateway.slot w) (s.workers w).subscription?
      (s'.gateway.slot w) (s'.workers w).subscription?) (distinct : s'.gateway.Distinct)
      (held : ∀ x ∈ s'.engagements, x.Held s'.gateway) : _ ∧ s'.Tended :=
    ⟨goes, ⟨fun w => (h.fits w).goes (goes w), distinct⟩, held⟩
  cases hm with
  | @works i w outlet segment worker woken ran gateway workers told engagements =>
    have works := works_of_ran ran gateway workers
    apply tended
    · intro v
      by_cases hv : v = i
      · subst v
        exact works.goes
      · rw [works.other hv, workers, Function.update_of_ne hv]
        exact .passes (.takes (.refl _)) rfl
    · exact works.distinct h.distinct
    · intro x hx
      rw [engagements] at hx
      exact works.held (h.held x hx)
  | acts moment w before behind e e' worker found left reaches workers =>
    have pools := reaches.pools fun x hx => h.held x (by simp [found, Option.mem_def.1 hx])
    apply tended
    · intro v
      rw [workers]
      exact .passes (pools.passes v) rfl
    · exact pools.distinct h.distinct
    · have others := h.others_held single found pools
      intro x hx
      have hx' : x ∈ before ∨ e' = some x ∨ x ∈ behind := by simpa [left] using hx
      rcases hx' with hx' | hx' | hx'
      · exact others x (List.mem_append_left _ hx')
      · exact pools.held x hx'
      · exact others x (List.mem_append_right _ hx')
  | hands move forwarded workers engagements =>
    have fills := Gateway.Fills.of_forward? forwarded
    apply tended
    · intro v
      rw [workers]
      exact .passes (.takes (fills.takes v)) rfl
    · exact fills.distinct h.distinct
    · intro x hx
      rw [engagements] at hx
      exact fills.held (h.held x hx)

theorem Run.tended (h : Run setup past s) (single : ∀ t ∈ past, t.before.teardowns ≤ 1) :
    s.Tended := by
  induction h with
  | start online running => exact tended_initial online running
  | step run moved ih =>
    obtain ⟨last, earlier⟩ := List.forall_mem_cons.1 single
    exact ((ih earlier).moved last (moved_of_move? moved)).2

/-! ## Subscriptions handed out and taken up -/

namespace Step

variable (t : Step) (w : Worker)

/-- The subscription that is newly handed to a worker. -/
def handed? : Option Subscription :=
  if (t.after.gateway.slot w).assigned = (t.before.gateway.slot w).assigned then none
  else (t.after.gateway.slot w).assigned

/-- The subscription that a worker begins to serve. -/
def taken? : Option Subscription :=
  if (t.before.workers w).subscription? = none then (t.after.workers w).subscription? else none

/-- A worker comes to the end of what it serves. -/
def Exits : Prop :=
  (t.before.workers w).subscription?.isSome = true ∧ (t.after.workers w).subscription? = none

/-- What may become of a worker and its slot in one step. -/
structure Turns : Prop where
  /-- A subscription is handed to an idle slot with none pending, which forwards it from then on. -/
  hands : ∀ sub, t.handed? w = some sub → (t.before.gateway.slot w).state = .idle ∧
    (t.before.gateway.slot w).assigned = none ∧
    (t.after.gateway.slot w).state = .forwarding sub.uuid
  /-- A worker begins to serve what is pending, and that is not pending any more. -/
  takes : ∀ sub, t.taken? w = some sub → (t.before.gateway.slot w).assigned = some sub ∧
    (t.after.gateway.slot w).assigned = none
  /-- What is pending stays so until the worker takes it. -/
  keeps : ∀ sub, (t.before.gateway.slot w).assigned = some sub →
    (t.after.gateway.slot w).assigned = some sub ∨ t.taken? w = some sub
  /-- A worker serves one subscription until it exits. -/
  serves : ∀ sub, (t.before.workers w).subscription? = some sub →
    (t.after.workers w).subscription? = some sub ∨ t.Exits w
  /-- A slot is marked only while there is something that its worker has not come to the end of. -/
  marks : (t.before.gateway.slot w).state ≠ .draining → (t.after.gateway.slot w).state = .draining →
    (t.before.gateway.slot w).assigned.isSome = true ∨
      (t.before.workers w).subscription?.isSome = true
  /-- A marked slot is handed nothing until it is idle. -/
  drains : (t.before.gateway.slot w).state = .draining → t.handed? w = none ∧
    ((t.after.gateway.slot w).state = .draining ∨ (t.after.gateway.slot w).state = .idle)
  /-- A slot becomes idle exactly when its worker exits. -/
  frees : (t.before.gateway.slot w).state ≠ .idle ∧ (t.after.gateway.slot w).state = .idle ↔
    t.Exits w

variable {t : Step} {w : Worker}

/-- What is handed out is pending or has been taken up. -/
theorem conserves (fits : (t.before.gateway.slot w).Fits (t.before.workers w).subscription?)
    (goes : Slot.Goes (t.before.gateway.slot w) (t.before.workers w).subscription?
      (t.after.gateway.slot w) (t.after.workers w).subscription?) :
    (t.handed? w).toList ++ (t.before.gateway.slot w).assigned.toList =
      (t.after.gateway.slot w).assigned.toList ++ (t.taken? w).toList := by
  cases goes with
  | passes slot worker =>
    have untaken : t.taken? w = none := by simp [taken?, worker]
    cases slot with
    | drains used state assigned => simp [handed?, untaken, assigned]
    | takes ht =>
      cases ht with
      | stays state assigned => simp [handed?, untaken, assigned]
      | takes idle state assigned =>
        have unassigned := (fits.idle_iff.1 idle).1
        simp [handed?, untaken, assigned, unassigned]
  | serves rests assigned state taken serves =>
    simp [handed?, taken?, rests, assigned, taken, serves]
  | exits serves state assigned rests => simp [handed?, taken?, serves, assigned]

theorem turns (fits : (t.before.gateway.slot w).Fits (t.before.workers w).subscription?)
    (goes : Slot.Goes (t.before.gateway.slot w) (t.before.workers w).subscription?
      (t.after.gateway.slot w) (t.after.workers w).subscription?) : t.Turns w := by
  cases goes with
  | passes slot worker =>
    have untaken : t.taken? w = none := by simp [taken?, worker]
    have unexited : ¬t.Exits w := by
      rintro ⟨served, rests⟩
      rw [worker] at rests
      simp [rests] at served
    have serves (sub : Subscription) (hs : (t.before.workers w).subscription? = some sub) :
        (t.after.workers w).subscription? = some sub ∨ t.Exits w := .inl (worker.trans hs)
    cases slot with
    | drains used state assigned =>
      have unhanded : t.handed? w = none := by simp [handed?, assigned]
      refine ⟨by simp [unhanded], by simp [untaken], fun sub hs => .inl (assigned.trans hs), serves,
        fun _ _ => ?_, fun _ => ⟨unhanded, .inl state⟩, by simp [state, unexited]⟩
      rw [Ne, fits.idle_iff, not_and_or] at used
      exact used.imp Option.isSome_iff_ne_none.2 Option.isSome_iff_ne_none.2
    | takes ht =>
      cases ht with
      | stays state assigned =>
        have unhanded : t.handed? w = none := by simp [handed?, assigned]
        refine ⟨by simp [unhanded], by simp [untaken], fun sub hs => .inl (assigned.trans hs),
          serves, fun hn hd => absurd (state.symm.trans hd) hn,
          fun hd => ⟨unhanded, .inl (state.trans hd)⟩, ?_⟩
        simp [state, unexited]
      | @takes sub idle state assigned =>
        have unassigned := (fits.idle_iff.1 idle).1
        have handed : t.handed? w = some sub := by simp [handed?, assigned, unassigned]
        refine ⟨fun sub' hs => ?_, by simp [untaken], by simp [unassigned], serves, by simp [state],
          by simp [idle], by simp [state, unexited]⟩
        obtain rfl : sub = sub' := by simpa [handed] using hs
        exact ⟨idle, unassigned, state⟩
  | @serves sub rests assigned state taken serves =>
    have unhanded : t.handed? w = none := by simp [handed?, assigned, taken]
    have begun : t.taken? w = some sub := by simp [taken?, rests, serves]
    have unexited : ¬t.Exits w := by simp [Exits, rests]
    refine ⟨by simp [unhanded], fun sub' hs => ?_, fun sub' hs => ?_, by simp [rests],
      fun hn hd => absurd (state.symm.trans hd) hn,
      fun hd => ⟨unhanded, .inl (state.trans hd)⟩, by simp [state, unexited]⟩
    · obtain rfl : sub = sub' := by simpa [begun] using hs
      exact ⟨assigned, taken⟩
    · exact .inr (begun.trans (assigned.symm.trans hs))
  | @exits sub serves state assigned rests =>
    have unhanded : t.handed? w = none := by simp [handed?, assigned]
    have exited : t.Exits w := by simp [Exits, serves, rests]
    have used : (t.before.gateway.slot w).state ≠ .idle := by
      intro idle
      simp [(fits.idle_iff.1 idle).2] at serves
    exact ⟨by simp [unhanded], by simp [taken?, serves], fun sub' hs => .inl (assigned.trans hs),
      fun _ _ => .inr exited, by simp [state], fun _ => ⟨unhanded, .inr state⟩,
      by simp [used, state, exited]⟩

end Step

/-- The subscriptions handed to a worker, the latest first. -/
def handed (w : Worker) (past : List Step) : List Subscription := past.filterMap (·.handed? w)

/-- The subscriptions that a worker has taken up, the latest first. -/
def taken (w : Worker) (past : List Step) : List Subscription := past.filterMap (·.taken? w)

theorem Run.goes (h : Run setup past s) (single : ∀ t ∈ past, t.before.teardowns ≤ 1) :
    ∀ t ∈ past, ∀ w, (t.before.gateway.slot w).Fits (t.before.workers w).subscription? ∧
      Slot.Goes (t.before.gateway.slot w) (t.before.workers w).subscription?
        (t.after.gateway.slot w) (t.after.workers w).subscription? := by
  induction h with
  | start online running =>
    intro t ht
    cases ht
  | step run moved ih =>
    obtain ⟨last, earlier⟩ := List.forall_mem_cons.1 single
    have tended := run.tended earlier
    have goes := (tended.moved last (moved_of_move? moved)).1
    intro t ht
    rcases List.mem_cons.1 ht with rfl | ht
    · intro w
      exact ⟨tended.fits w, goes w⟩
    · exact ih earlier t ht

/-- Every subscription handed to a worker is taken up once, in the order of handing out, and only
the latest can be pending. -/
theorem Run.handed_eq (h : Run setup past s) (single : ∀ t ∈ past, t.before.teardowns ≤ 1)
    (w : Worker) : handed w past = (s.gateway.slot w).assigned.toList ++ taken w past := by
  have goes := h.goes single
  induction h with
  | start online running =>
    have blank : (initial online running).gateway.slot w = {} := Gateway.slot_initial w
    simp [handed, taken, blank]
  | @step past s s' m told run moved ih =>
    obtain ⟨last, earlier⟩ := List.forall_mem_cons.1 goes
    have conserves := Step.conserves (t := ⟨s, m, told, s'⟩) (last w).1 (last w).2
    have ih' := ih (List.forall_mem_cons.1 single).2 earlier
    calc handed w (⟨s, m, told, s'⟩ :: past)
        = (Step.handed? ⟨s, m, told, s'⟩ w).toList ++ handed w past := by
          cases hh : Step.handed? ⟨s, m, told, s'⟩ w <;> simp [handed, hh]
      _ = ((Step.handed? ⟨s, m, told, s'⟩ w).toList ++ (s.gateway.slot w).assigned.toList) ++
          taken w past := by rw [ih', List.append_assoc]
      _ = (s'.gateway.slot w).assigned.toList ++
          ((Step.taken? ⟨s, m, told, s'⟩ w).toList ++ taken w past) := by
          rw [conserves, List.append_assoc]
      _ = (s'.gateway.slot w).assigned.toList ++ taken w (⟨s, m, told, s'⟩ :: past) := by
          cases ht : Step.taken? ⟨s, m, told, s'⟩ w <;> simp [taken, ht]

/-- As long as teardowns come one at a time the pool loses nothing and hands nothing out twice. -/
theorem Run.pool_sound (h : Run setup past s) (single : ∀ t ∈ past, t.before.teardowns ≤ 1) :
    s.Pooled ∧ (∀ t ∈ past, ∀ w, t.Turns w) ∧
      ∀ w, handed w past = (s.gateway.slot w).assigned.toList ++ taken w past := by
  refine ⟨(h.tended single).toPooled, fun t ht w => ?_, h.handed_eq single⟩
  obtain ⟨fits, goes⟩ := h.goes single t ht w
  exact Step.turns fits goes

/-- A client's session is closed while the worker still hands a value over. The teardown gives up
waiting for it, and it comes to its end afterwards. -/
def stall : List Move :=
  [.call (.connect .sample), .errand 0 .signal, .errand 0 (.reply .done),
    .errand 0 (.reply (.connection 1)), .errand 0 (.reply (.characteristics [.sample])),
    .forward Characteristic.sample.descriptor.uuid, .worker 0 .signal, .worker 0 (.reply .done),
    .worker 0 (.reply (.value [7])), .call .disconnect, .errand 0 .signal, .own (.tick 5000),
    .errand 0 .timeout, .errand 0 (.reply .done), .errand 0 (.reply .done),
    .worker 0 (.reply .done), .worker 0 .signal]

theorem pool_sound_after_stall : ∃ past s, Run .sample past s ∧
    (∀ t ∈ past, t.before.teardowns ≤ 1) ∧
    (∃ t ∈ past, (t.before.gateway.slot 0).state = .draining) ∧
    (s.gateway.slot 0).state = .idle ∧ s.Pooled ∧ (∀ t ∈ past, ∀ w, t.Turns w) ∧
      ∀ w, handed w past = (s.gateway.slot w).assigned.toList ++ taken w past := by
  have hm : (Shared.trace? .sample [] (.initial false false) stall).any
      (fun (past, s) => past.all (fun t => t.before.teardowns ≤ 1) &&
        past.any (fun t => (t.before.gateway.slot 0).state = .draining) &&
        (s.gateway.slot 0).state = .idle) = true := by
    decide +kernel
  obtain ⟨past, s, run, hs⟩ := Run.exists_of_any hm
  simp only [Bool.and_eq_true, List.all_eq_true, List.any_eq_true, decide_eq_true_eq] at hs
  obtain ⟨⟨single, drained⟩, idle⟩ := hs
  exact ⟨past, s, run, single, drained, idle, run.pool_sound single⟩

end Shared

end GattGateway
