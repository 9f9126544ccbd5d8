import GattGateway.Proofs.Connecting
import GattGateway.Proofs.Pool

/-!
# No stale notifications

A worker begins to forward a value only for the session that is stored: what it serves is on the
connection of that session, and its slot forwards the characteristic. Once a disconnect has returned
nothing is forwarded until the next session, not even by a worker that was too slow to stop.
-/
namespace GattGateway

/-! ## Workers and the session -/

/-- Slots that forward, together with what their workers serve, belong to the session. -/
structure Tied (g : Gateway) (served : Worker → Option Subscription) : Prop where
  linked : g.session.isSome = true → g.peerLink = .connected
  current : ∀ w uuid, (g.slot w).state = .forwarding uuid → ∃ s sub, g.session = some s ∧
    ((g.slot w).assigned = some sub ∨ served w = some sub) ∧ sub.uuid = uuid ∧
    sub.connection = s.connection
  /-- A worker that was too slow to stop has not taken the word to stop yet. -/
  cancelled : ∀ w, (g.slot w).state = .draining → (g.slot w).cancelled = true
  orderly : g.Orderly

/-- What holds while an engagement is under way. -/
def Engagement.Fits (g : Gateway) : Engagement → Prop
  | .opening _ => g.session = none
  | .closing (.stopping w _) => (∀ v < w, (g.slot v).isForwarding = false) ∧
    ((g.slot w).cancelled = true ∨ (g.slot w).stopped = true)
  | .closing _ => g.session = none
  | .settling => True

section

variable {m : Moment} {g g' : Gateway} {e e' : Option Engagement}
  {served : Worker → Option Subscription}

/-- Without a session nothing is forwarded. -/
theorem Tied.quiet (h : Tied g served) (hs : g.session = none) : g.Quiet := by
  intro w
  by_contra hf
  obtain ⟨uuid, hu⟩ := Slot.isForwarding_iff.1 (by simpa using hf)
  obtain ⟨s, sub, session, -⟩ := h.current w uuid hu
  rw [hs] at session
  cases session

/-- Where nothing is forwarded the session can change, as long as the link fits it. -/
theorem Tied.rebound (h : Tied g served) (hq : g.Quiet) (slots : g'.slots = g.slots)
    (linked : g'.session.isSome = true → g'.peerLink = .connected) : Tied g' served := by
  have same (w : Worker) : g'.slot w = g.slot w := by simp only [Gateway.slot, slots]
  refine ⟨linked, fun w uuid hu => ?_, fun w hd => ?_, fun w hf => ?_⟩
  · rw [same] at hu
    have := hq w
    rw [Slot.isForwarding_iff.2 ⟨uuid, hu⟩] at this
    cases this
  · rw [same] at hd ⊢
    exact h.cancelled w hd
  · rw [same] at hf ⊢
    exact h.orderly w hf

theorem Tied.aside (h : Tied g served) (ha : g.Aside g') : Tied g' served := by
  refine ⟨?_, fun w uuid hu => ?_, fun w hd => ?_, fun w hf => ?_⟩
  · rw [ha.session, ha.link]
    exact h.linked
  · rw [ha.slot] at hu ⊢
    rw [ha.session]
    exact h.current w uuid hu
  · rw [ha.slot] at hd ⊢
    exact h.cancelled w hd
  · rw [ha.slot] at hf ⊢
    exact h.orderly w hf

/-- One slot changes, and what its worker serves, but neither what is forwarded nor for whom. -/
theorem Tied.setSlot {served' : Worker → Option Subscription} {w : Worker} {s : Slot}
    (h : Tied g served) (others : ∀ v, v ≠ w → served' v = served v)
    (current : ∀ uuid, s.state = .forwarding uuid → (g.slot w).state = .forwarding uuid ∧
      s.stopped = (g.slot w).stopped ∧
      ∀ sub, (g.slot w).assigned = some sub ∨ served w = some sub →
        s.assigned = some sub ∨ served' w = some sub)
    (cancelled : s.state = .draining → s.cancelled = true) : Tied (g.setSlot w s) served' := by
  refine ⟨h.linked, fun v uuid hu => ?_, fun v hd => ?_, fun v hf => ?_⟩
  · rw [Gateway.slot_setSlot] at hu ⊢
    split_ifs at hu ⊢ with hv
    · subst v
      obtain ⟨forwarding, -, keeps⟩ := current uuid hu
      obtain ⟨t, sub, session, held, hsub, connection⟩ := h.current w uuid forwarding
      exact ⟨t, sub, session, keeps sub held, hsub, connection⟩
    · rw [others v hv]
      exact h.current v uuid hu
  · rw [Gateway.slot_setSlot] at hd ⊢
    split_ifs at hd ⊢ with hv
    · exact cancelled hd
    · exact h.cancelled v hd
  · rw [Gateway.slot_setSlot] at hf ⊢
    split_ifs at hf ⊢ with hv
    · subst v
      obtain ⟨uuid, hu⟩ := Slot.isForwarding_iff.1 hf
      obtain ⟨forwarding, stopped, -⟩ := current uuid hu
      rw [stopped]
      exact h.orderly w (Slot.isForwarding_iff.2 ⟨uuid, forwarding⟩)
    · exact h.orderly v hf

theorem Tied.forward {uuid : CanonicalUuid} (h : Tied g served)
    (hf : g.forward? uuid = some g') : Tied g' served := by
  obtain ⟨w, sub, ha, rfl⟩ := Gateway.forward?_eq_some hf
  obtain ⟨s, session, connection⟩ := ha.session
  refine ⟨h.linked, fun v uuid hu => ?_, fun v hd => ?_, fun v hv => ?_⟩
  · rw [Gateway.slot_setSlot] at hu ⊢
    split_ifs at hu ⊢ with hvw
    · cases hu
      exact ⟨s, sub, session, .inl rfl, rfl, connection⟩
    · exact h.current v uuid hu
  · rw [Gateway.slot_setSlot] at hd ⊢
    split_ifs at hd ⊢
    · cases hd
    · exact h.cancelled v hd
  · rw [Gateway.slot_setSlot] at hv ⊢
    split_ifs at hv ⊢
    · rfl
    · exact h.orderly v hv

/-! ## Teardowns -/

theorem Teardown.Stops.tied {first : Nat} {next : Option Stage} (h : Stops g first g' next)
    (ht : Tied g served) (hb : ∀ v : Worker, v.val < first → (g.slot v).isForwarding = false) :
    Tied g' served ∧ ∀ stage, next = some stage → (Engagement.closing stage).Fits g' := by
  have quiet (hq : ∀ v : Worker, first ≤ v.val → (g.slot v).isForwarding = false) : g.Quiet := by
    intro v
    by_cases hv : first ≤ v.val
    · exact hq v hv
    · exact hb v (by omega)
  cases h with
  | @stops w deadline forwarding before =>
    refine ⟨ht.setSlot (fun _ _ => rfl) (fun uuid hs => ⟨hs, rfl, fun _ => id⟩) fun _ => rfl, ?_⟩
    rintro stage ⟨⟩
    constructor
    · intro v hv
      rw [Gateway.slot_setSlot, if_neg (Fin.ne_of_lt hv)]
      by_cases hfirst : first ≤ v.val
      · exact before v hfirst hv
      · exact hb v (by omega)
    · rw [Gateway.slot_setSlot_self]
      exact .inl rfl
  | hangsUp session hq =>
    refine ⟨ht.rebound (quiet hq) rfl nofun, ?_⟩
    rintro stage ⟨⟩
    rfl
  | releases session last =>
    refine ⟨ht.rebound (ht.quiet session) rfl (by simp [session]), ?_⟩
    rintro stage rfl
    obtain ⟨⟨⟩⟩ | ⟨⟨⟩⟩ := last
    exact session

theorem Teardown.Resumes.tied {stage : Stage} {w : Wake} {next : Option Stage}
    (h : Resumes g stage w g' next) (ht : Tied g served) (hf : (Engagement.closing stage).Fits g)
    (signal : w = .signal → stage.signalled g = true)
    (timeout : w = .timeout → stage.signalled g = false) :
    Tied g' served ∧ ∀ stage, next = some stage → (Engagement.closing stage).Fits g' := by
  -- Once the awaited worker forwards no more, none up to it does.
  have goesOn {w : Worker} {s : Slot} (rest : Stops (g.setSlot w s) (w.val + 1) g' next)
      (tied : Tied (g.setSlot w s) served) (still : s.isForwarding = false)
      (hb : ∀ v < w, (g.slot v).isForwarding = false) :
      Tied g' served ∧ ∀ stage, next = some stage → (Engagement.closing stage).Fits g' := by
    apply rest.tied tied
    intro v hv
    rw [Gateway.slot_setSlot]
    split_ifs with hvw
    · exact still
    · have hne : v.val ≠ w.val := fun he => hvw (Fin.ext he)
      exact hb v (Fin.lt_def.2 (by omega))
  cases h with
  | waits =>
    refine ⟨ht, ?_⟩
    rintro stage' ⟨⟩
    exact hf
  | @stopped w deadline g' next rest =>
    have told : (g.slot w).stopped = true := signal rfl
    have still : (g.slot w).isForwarding = false := by
      by_contra hn
      have := ht.orderly w (by simpa using hn)
      rw [told] at this
      cases this
    refine goesOn rest (ht.setSlot (fun _ _ => rfl) (fun uuid hs => ?_) fun hd =>
      ht.cancelled w hd) still hf.1
    have forwarding : (g.slot w).isForwarding = true := Slot.isForwarding_iff.2 ⟨uuid, hs⟩
    rw [still] at forwarding
    cases forwarding
  | @late w deadline g' next rest =>
    have running : (g.slot w).stopped = false := timeout rfl
    have cancelled : (g.slot w).cancelled = true := by
      apply hf.2.resolve_right
      rw [running]
      exact Bool.false_ne_true
    refine goesOn rest (ht.setSlot (fun _ _ => rfl) (fun uuid hs => ?_) fun _ => cancelled) rfl
      hf.1
    cases hs
  | hungUp last =>
    have session : g.session = none := hf
    refine ⟨ht.rebound (ht.quiet session) rfl (by simp [session]), ?_⟩
    rintro stage rfl
    obtain ⟨⟨⟩⟩ | ⟨⟨⟩⟩ := last
    exact session
  | off powered => exact ⟨ht.aside ⟨rfl, rfl, rfl⟩, nofun⟩

/-! ## Strands -/

theorem Engagement.Fits.of_same {x : Engagement} (h : x.Fits g) (session : g'.session = g.session)
    (slots : g'.slots = g.slots) : x.Fits g' := by
  cases x with
  | opening s => exact session.trans h
  | closing s =>
    cases s with
    | stopping w deadline => simpa only [Fits, Gateway.slot, slots] using h
    | hangingUp connection => exact session.trans h
    | poweringDown => exact session.trans h
  | settling => trivial

theorem Resting.fits (h : Resting e) : ∀ x ∈ e, x.Fits g := by
  rcases h with rfl | rfl
  · nofun
  · rintro x ⟨⟩
    trivial

theorem Acts.tied (h : Acts m w g e g' e') (ht : Tied g served) (hf : ∀ x ∈ e, x.Fits g) :
    Tied g' served ∧ ∀ x ∈ e', x.Fits g' := by
  have settles : Resting (some .settling) := .inr rfl
  induction h with
  | aside rests ha =>
    exact ⟨ht.aside ha, fun x hx => (hf x hx).of_same ha.session ha.slots⟩
  | @opens g e peer rests =>
    apply Segment.Ends.engagement? (P := fun g' e' => Tied g' served ∧ ∀ x ∈ e', x.Fits g')
    refine Dial.begin_bond.imp (fun g' s hb => ?_) fun g' found hb => ?_
    · obtain ⟨rfl, hl⟩ := hb
      have session : g.session = none := by
        by_contra hs
        have := ht.linked (Option.isSome_iff_ne_none.2 hs)
        rw [hl] at this
        cases this
      refine ⟨ht.rebound (ht.quiet session) rfl (by simp [session]), ?_⟩
      rintro x ⟨⟩
      exact session
    · obtain ⟨rfl, -⟩ := hb
      exact ⟨ht, rests.fits⟩
  | @opensOn g s woken =>
    have session : g.session = none := hf _ rfl
    have quiet := ht.quiet session
    apply Segment.Ends.engagement? (P := fun g' e' => Tied g' served ∧ ∀ x ∈ e', x.Fits g')
    refine Dial.resume_bond.imp (fun g' s hb => ?_) fun g' found hb => ?_
    · have session' : g'.session = none := hb.1.trans session
      refine ⟨ht.rebound quiet hb.2 (by simp [session']), ?_⟩
      rintro x ⟨⟩
      exact session'
    · refine ⟨ht.rebound quiet hb.2 fun stored => hb.1.resolve_left fun same => ?_, settles.fits⟩
      simp [same, session] at stored
  | closes rests =>
    obtain ⟨tied, waits⟩ := (Teardown.stopFrom_stops (m := m)).tied ht fun _ hv =>
      absurd hv (Nat.not_lt_zero _)
    exact ⟨tied, forall_mem_engagement? waits rests.fits⟩
  | closesOn s woken =>
    obtain ⟨tied, waits⟩ := (Teardown.resume_resumes (m := m)).tied ht (hf _ rfl) woken.signal
      fun hw => (woken.timeout hw).1
    exact ⟨tied, forall_mem_engagement? waits settles.fits⟩
  | forwards forwarded => exact ⟨ht.forward forwarded, settles.fits⟩
  | retires => exact ⟨ht, nofun⟩
  | seq first rests rest ih₁ ih₂ => exact ih₂ (ih₁ ht hf).1 rests.fits

theorem Reaches.tied (h : Reaches m w g e g' e') (ht : Tied g served) (hf : ∀ x ∈ e, x.Fits g) :
    Tied g' served ∧ ∀ x ∈ e', x.Fits g' := by
  have settles : Resting (some .settling) := .inr rfl
  rcases h with h | ⟨rfl, h⟩
  · exact h.tied ht hf
  · exact ⟨(h.tied ht hf).1, settles.fits⟩

theorem Teardown.Stops.severs {first : Nat} {next : Option Stage} (h : Stops g first g' next) :
    g'.session = none ∨ next.isSome = true := by
  cases h with
  | stops forwarding before => exact .inr rfl
  | hangsUp session quiet => exact .inl rfl
  | releases session last => exact .inl session

/-- A teardown that ends as it begins has nothing to close. -/
theorem Teardown.Stops.untouched {first : Nat} {next : Option Stage} (h : Stops g first g' next)
    (ended : next = none) : g'.session = g.session ∧ g'.slots = g.slots := by
  subst ended
  cases h with
  | releases session last => exact ⟨rfl, rfl⟩

theorem Teardown.Resumes.severs {stage : Stage} {w : Wake} {next : Option Stage}
    (h : Resumes g stage w g' next) (hf : (Engagement.closing stage).Fits g) :
    g'.session = none ∨ next.isSome = true := by
  cases h with
  | waits => exact .inr rfl
  | stopped rest => exact rest.severs
  | late rest => exact rest.severs
  | hungUp last => exact .inl hf
  | off powered => exact .inl hf

/-- A strand that has nothing under way before and after has left the session and the slots. -/
theorem Acts.untouched (h : Acts m w g e g' e') (he : e = none) (he' : e' = none) :
    g'.session = g.session ∧ g'.slots = g.slots := by
  induction h with
  | aside rests ha => exact ⟨ha.session, ha.slots⟩
  | @opens g e peer rests =>
    have same : (Dial.begin m g peer).gateway = g := by
      refine Segment.Ends.engagement? (P := fun g' e' => e' = none → g' = g) ?_ he'
      exact Dial.begin_bond.imp (fun _ _ _ => nofun) fun _ _ hb _ => hb.1
    rw [same]
    exact ⟨rfl, rfl⟩
  | opensOn s woken => cases he
  | closes rests =>
    have ended := Option.map_eq_none_iff.1 (Option.or_eq_none_iff.1 he').1
    exact Teardown.stopFrom_stops.untouched ended
  | closesOn s woken => cases he
  | forwards forwarded => cases he
  | retires => cases he
  | @seq g₀ g₁ g₂ e₀ e₁ e₂ first rests rest ih₁ ih₂ =>
    subst he
    have idle : e₁ = none := rests.resolve_right first.from_none
    obtain ⟨session₁, slots₁⟩ := ih₁ rfl idle
    obtain ⟨session₂, slots₂⟩ := ih₂ idle he'
    exact ⟨session₂.trans session₁, slots₂.trans slots₁⟩

/-- A teardown ends without a session, and what follows it in the same segment stores none. -/
theorem Acts.severs (h : Acts m w g e g' e') (hf : ∀ x ∈ e, x.Fits g)
    (ho : ∀ s, e ≠ some (.opening s)) (hs : g.session = none ∨ ∃ s, e = some (.closing s)) :
    g'.session = none ∨ ∃ s, e' = some (.closing s) := by
  have rested {g : Gateway} {e : Option Engagement} (rests : Resting e)
      (hs : g.session = none ∨ ∃ s, e = some (.closing s)) : g.session = none := by
    apply hs.resolve_right
    rintro ⟨s, rfl⟩
    obtain ⟨⟨⟩⟩ | ⟨⟨⟩⟩ := rests
  -- What a teardown comes to: it waits, or it has ended without a session.
  have ends {s : Segment Teardown.Stage Unit} {next : Option Engagement}
      (h : s.gateway.session = none ∨ s.turn.stage?.isSome = true) :
      s.gateway.session = none ∨ ∃ stage, s.engagement? .closing next = some (.closing stage) := by
    apply h.imp id
    intro waits
    obtain ⟨stage, hw⟩ := Option.isSome_iff_exists.1 waits
    exact ⟨stage, by simp [Segment.engagement?, hw]⟩
  induction h with
  | aside rests ha => exact hs.imp ha.session.trans id
  | @opens g e peer rests =>
    left
    apply Segment.Ends.gateway (P := fun g' => g'.session = none)
    have session := rested rests hs
    exact Dial.begin_bond.imp (fun _ _ hb => by rw [hb.1]; exact session)
      fun _ _ hb => by rw [hb.1]; exact session
  | opensOn s woken => exact absurd rfl (ho s)
  | closes rests => exact ends Teardown.stopFrom_stops.severs
  | closesOn s woken => exact ends (Teardown.resume_resumes.severs (hf _ rfl))
  | @forwards g g' uuid forwarded =>
    obtain ⟨w, sub, ha, rfl⟩ := Gateway.forward?_eq_some forwarded
    exact .inl (rested (.inr rfl) hs)
  | retires => exact .inl (rested (.inr rfl) hs)
  | seq first rests rest ih₁ ih₂ =>
    have session := rested rests (ih₁ hf ho hs)
    apply ih₂ rests.fits
    · rintro s rfl
      obtain ⟨⟨⟩⟩ | ⟨⟨⟩⟩ := rests
    · exact .inl session

end

/-! ## Workers -/

namespace Forwarding.Works

variable {g g' : Gateway} {w : Worker} {stage stage' : Stage}
  {served : Worker → Option Subscription}

theorem session (h : Works g w stage g' stage') : g'.session = g.session := by
  cases h with
  | takes rests assigned slot serves => rw [slot, Gateway.setSlot]
  | goesOn same serves => rw [same]
  | exits cancelled serves slot rests => rw [slot, Gateway.setSlot]

theorem tied (h : Works g w stage g' stage') (ht : Tied g served)
    (hw : served w = stage.subscription?) :
    Tied g' (Function.update served w stage'.subscription?) := by
  have others (v : Worker) (hv : v ≠ w) :
      Function.update served w stage'.subscription? v = served v := Function.update_of_ne hv _ _
  cases h with
  | @takes sub rests assigned slot serves =>
    subst slot
    refine ht.setSlot others (fun uuid hs => ⟨hs, rfl, fun sub' held => ?_⟩) fun hd =>
      ht.cancelled w hd
    rw [Function.update_self, serves]
    rcases held with held | held
    · exact .inr (assigned.symm.trans held)
    · rw [hw, rests] at held
      cases held
  | goesOn same serves =>
    subst same
    rw [serves, ← hw, Function.update_eq_self]
    exact ht
  | exits cancelled serves slot rests =>
    subst slot
    refine ht.setSlot others (fun uuid hs => ?_) fun hd => ?_
    · cases hs
    · cases hd

/-- A worker that exits tells its end. -/
theorem fits (h : Works g w stage g' stage') {x : Engagement} (hx : x.Fits g) : x.Fits g' := by
  cases x with
  | opening s => exact h.session.trans hx
  | settling => trivial
  | closing s =>
    cases s with
    | hangingUp connection => exact h.session.trans hx
    | poweringDown => exact h.session.trans hx
    | stopping v deadline =>
      obtain ⟨before, told⟩ := hx
      refine ⟨fun u hu => ?_, ?_⟩
      · have still := before u hu
        by_cases huw : u = w
        · subst u
          rcases h.slot with ⟨state, -, -⟩ | ⟨idle, -⟩
          · simpa [Slot.isForwarding, state] using still
          · simp [Slot.isForwarding, idle]
        · rwa [h.other huw]
      · by_cases hvw : v = w
        · subst v
          rcases h.slot with ⟨-, stopped, cancelled⟩ | ⟨-, stopped⟩
          · rwa [stopped, cancelled]
          · exact .inr stopped
        · rwa [h.other hvw]

end Forwarding.Works

/-! ## Disconnects that end as they begin -/

section

variable {m : Moment} {g : Gateway}

theorem Errand.disconnect_severs :
    (resume m g (.starting .disconnect) .signal).gateway.session = none ∨
      ∃ s, (resume m g (.starting .disconnect) .signal).turn = .wait (.clearing s) := by
  have severs : (Teardown.begin m g).gateway.session = none ∨
      (Teardown.begin m g).turn.stage?.isSome = true := Teardown.stopFrom_stops.severs
  change (clear (Teardown.begin m g)).gateway.session = none ∨
    ∃ s, (clear (Teardown.begin m g)).turn = .wait (.clearing s)
  generalize Teardown.begin m g = s at severs ⊢
  rcases s with ⟨g', turn, events⟩
  cases turn with
  | wait stage => exact .inr ⟨stage, rfl⟩
  | finish result => exact .inl (severs.resolve_right Bool.false_ne_true)

theorem Serving.leave_severs {s : Segment Teardown.Stage Unit} (silent : s.events = [])
    (h : s.gateway.session = none ∨ s.turn.stage?.isSome = true) :
    (leave m s).Leads fun g' _ stage => g'.session = none ∨ ∃ s, stage = .leaving s := by
  have ends : s.Ends (fun _ _ => True) fun g' _ => g'.session = none := by
    rcases s with ⟨g', turn, events⟩
    cases turn with
    | wait stage => trivial
    | finish result => exact h.resolve_right Bool.false_ne_true
  refine ends.leads silent (fun _ stage _ => .inr ⟨stage, rfl⟩) fun g' _ session => ?_
  unfold send
  split
  · exact .inl session
  · exact report_rests.imp fun g' _ _ hr => .inl (hr.2.1 ▸ session)

theorem Serving.disconnect_severs {stage : Stage} {w : Wake}
    (h : taken? m.topics g stage w = some (.ok (some .disconnect))) :
    (resume m g stage w).Leads fun g' _ stage' => g'.session = none ∨ ∃ s, stage' = .leaving s := by
  obtain ⟨request, inbox, rfl, rfl, hpop, hcommand⟩ := taken?_eq_some h
  simp only [resume, hpop, dispatch, hcommand, handle]
  exact leave_severs Teardown.begin_events Teardown.stopFrom_stops.severs

end

/-! ## Every move -/

namespace Shared

variable {setup : Setup} {past : List Step} {s s' : Shared} {m : Move} {told : List Event}

/-- The session, the slots, the workers and what is under way fit together. -/
structure Consistent (s : Shared) : Prop where
  tied : Tied s.gateway fun w => (s.workers w).subscription?
  fits : ∀ x ∈ s.engagements, x.Fits s.gateway

theorem consistent_initial (online running : Bool) : (initial online running).Consistent := by
  have blank (w : Worker) : (initial online running).gateway.slot w = {} := Gateway.slot_initial w
  refine ⟨⟨nofun, fun w uuid hu => ?_, fun w hd => ?_, fun w hf => ?_⟩, nofun⟩
  · rw [blank] at hu
    cases hu
  · rw [blank] at hd
    cases hd
  · rw [blank]

/-- A strand that has something under way is the only one. -/
theorem alone {before behind : List Engagement} {e e' : Option Engagement}
    (found : s.engagements = before ++ e.toList ++ behind)
    (left : s'.engagements = before ++ e'.toList ++ behind) (single : s.engagements.length ≤ 1)
    (single' : s'.engagements.length ≤ 1) (engaged : ¬(e = none ∧ e' = none)) :
    s.engagements = e.toList ∧ s'.engagements = e'.toList := by
  have empty : before.length = 0 ∧ behind.length = 0 := by
    rw [found] at single
    rw [left] at single'
    cases e with
    | some x =>
      simp only [Option.toList_some, List.length_append, List.length_singleton] at single
      omega
    | none =>
      cases e' with
      | some x =>
        simp only [Option.toList_some, List.length_append, List.length_singleton] at single'
        omega
      | none => exact absurd ⟨rfl, rfl⟩ engaged
  obtain ⟨hb, hb'⟩ := empty
  rw [List.length_eq_zero_iff] at hb hb'
  subst hb hb'
  exact ⟨by simpa using found, by simpa using left⟩

theorem Consistent.moved (h : s.Consistent) (single : s.engagements.length ≤ 1)
    (single' : s'.engagements.length ≤ 1) (apart : ∀ uuid, m = .forward uuid → s.teardowns = 0)
    (hm : Moved setup s m s' told) : s'.Consistent := by
  cases hm with
  | @works i w outlet segment worker woken ran gateway workers told engagements =>
    have works := works_of_ran ran gateway workers
    have served : (fun v => (s'.workers v).subscription?) =
        Function.update (fun v => (s.workers v).subscription?) i (s'.workers i).subscription? := by
      funext v
      by_cases hv : v = i
      · subst v
        rw [Function.update_self]
      · rw [Function.update_of_ne hv, workers, Function.update_of_ne hv]
    refine ⟨?_, fun x hx => ?_⟩
    · rw [served]
      exact works.tied h.tied rfl
    · rw [engagements] at hx
      exact works.fits (h.fits x hx)
  | acts moment w before behind e e' worker found left reaches workers =>
    by_cases idle : e = none ∧ e' = none
    · obtain ⟨rfl, rfl⟩ := idle
      rcases reaches with acts | ⟨⟨⟩, -⟩
      obtain ⟨session, slots⟩ := acts.untouched rfl rfl
      refine ⟨?_, fun x hx => ?_⟩
      · rw [workers]
        exact (acts.tied h.tied nofun).1
      · rw [left, ← found] at hx
        exact (h.fits x hx).of_same session slots
    · obtain ⟨hs, hs'⟩ := alone found left single single' idle
      have fits : ∀ x ∈ e, x.Fits s.gateway := by
        intro x hx
        exact h.fits x (by simpa [hs] using hx)
      obtain ⟨tied, fits'⟩ := reaches.tied h.tied fits
      refine ⟨?_, fun x hx => ?_⟩
      · rw [workers]
        exact tied
      · rw [hs', Option.mem_toList] at hx
        exact fits' x hx
  | hands move forwarded workers engagements =>
    refine ⟨?_, fun x hx => ?_⟩
    · rw [workers]
      exact h.tied.forward forwarded
    · rw [engagements] at hx
      have other : x.isClosing = false := by
        have := List.countP_eq_zero.1 (apart _ move) x hx
        simpa using this
      obtain ⟨w, sub, -, same⟩ := Gateway.forward?_eq_some forwarded
      have fits := h.fits x hx
      cases x with
      | opening stage =>
        rw [same]
        exact fits
      | closing stage => cases other
      | settling => trivial

/-- A teardown that is not under way any more has left no session. -/
theorem Consistent.severs (h : s.Consistent) (single : s.engagements.length ≤ 1)
    (single' : s'.engagements.length ≤ 1) (hm : Moved setup s m s' told) (closing : s.teardowns ≠ 0)
    (closed : s'.teardowns = 0) : s'.gateway.session = none := by
  have same (engagements : s'.engagements = s.engagements) : s'.gateway.session = none := by
    rw [teardowns, engagements] at closed
    exact absurd closed closing
  cases hm with
  | works worker woken ran gateway workers told engagements => exact same engagements
  | acts moment w before behind e e' worker found left reaches workers =>
    by_cases idle : e = none ∧ e' = none
    · obtain ⟨rfl, rfl⟩ := idle
      exact same (left.trans found.symm)
    · obtain ⟨hs, hs'⟩ := alone found left single single' idle
      obtain ⟨x, hx, hc⟩ : ∃ x ∈ e.toList, x.isClosing = true := by
        rw [← List.countP_pos_iff, ← hs]
        exact Nat.pos_of_ne_zero closing
      have fits : ∀ x ∈ e, x.Fits s.gateway := by
        intro x hx
        exact h.fits x (by simpa [hs] using hx)
      obtain rfl : e = some x := by simpa using hx
      have severs {e' : Option Engagement} (acts : Acts moment w s.gateway (some x) s'.gateway e')
          (hn : ∀ stage, e' ≠ some (.closing stage)) : s'.gateway.session = none := by
        refine (acts.severs fits ?_ (.inr ?_)).resolve_right (not_exists.2 hn)
        · rintro stage ⟨⟩
          cases hc
        · cases x with
          | closing stage => exact ⟨stage, rfl⟩
          | opening stage => cases hc
          | settling => cases hc
      rcases reaches with acts | ⟨-, acts⟩
      · apply severs acts
        rintro stage rfl
        simp [teardowns, hs', Engagement.isClosing] at closed
      · exact severs acts fun _ => (Option.some_ne_none _).symm
  | hands move forwarded workers engagements => exact same engagements

/-! ## Disconnects -/

namespace Step

variable (t : Step)

/-- A disconnect begins, by an operation of a client or by a command. -/
def Asks (setup : Setup) : Prop :=
  (∃ i, t.move = .errand i .signal ∧ t.before.errands[i]? = some (.starting .disconnect)) ∨
    ∃ w, t.move = .own (.serving w) ∧
      Serving.taken? setup.topics t.before.gateway t.before.serving w =
        some (.ok (some .disconnect))

/-- A disconnect comes to its end, be it in the step in which it begins. -/
def Returns (setup : Setup) : Prop :=
  (t.before.teardowns ≠ 0 ∨ t.Asks setup) ∧ t.after.teardowns = 0

/-- A session is stored. -/
def Connects : Prop := t.before.gateway.session = none ∧ t.after.gateway.session.isSome = true

/-- A worker begins to forward a value. -/
def Forwards (i : Worker) (uuid : CanonicalUuid) (value : Text.Bytes) : Prop :=
  ∃ w outlet, t.move.worker? = some (i, w, outlet) ∧
    Forwarding.Forwards uuid value outlet t.told (t.after.workers i)

/-- What a worker that begins to forward a value serves is on the connection of the session, and its
slot forwards the characteristic. -/
structure Current (i : Worker) (uuid : CanonicalUuid) : Prop where
  slot : (t.before.gateway.slot i).state = .forwarding uuid
  session : ∃ s sub, t.before.gateway.session = some s ∧
    (t.before.workers i).subscription? = some sub ∧ sub.uuid = uuid ∧ sub.connection = s.connection

end Step

theorem Consistent.forwards {i : Worker} {uuid : CanonicalUuid} {value : Text.Bytes}
    (h : s.Consistent) (pooled : s.Pooled) (hm : Moved setup s m s' told)
    (hf : Step.Forwards ⟨s, m, told, s'⟩ i uuid value) : Step.Current ⟨s, m, told, s'⟩ i uuid := by
  obtain ⟨w, outlet, worker, hf⟩ := hf
  cases hm with
  | @works i' w' outlet' segment worker' woken ran gateway workers told engagements =>
    obtain ⟨rfl, rfl, rfl⟩ : i' = i ∧ w' = w ∧ outlet' = outlet := by
      simpa [worker'] using worker
    subst ran told
    rw [workers, Function.update_self] at hf
    obtain ⟨sub, deadline, awaiting, hsub, running⟩ := Forwarding.resume_forwards woken hf
    have serves : (s.workers i').subscription? = some sub := by
      rw [awaiting]
      rfl
    have fits := pooled.fits i'
    cases state : (s.gateway.slot i').state with
    | idle =>
      have rests := (fits.idle_iff.1 state).2
      rw [rests] at serves
      cases serves
    | draining =>
      have cancelled := h.tied.cancelled i' state
      rw [running] at cancelled
      cases cancelled
    | forwarding uuid' =>
      obtain ⟨t, sub', session, assigned | served, hsub', connection⟩ :=
        h.tied.current i' uuid' state
      · have rests := fits.unserved (by simp [assigned])
        rw [rests] at serves
        cases serves
      · obtain rfl : sub' = sub := Option.some.inj (served.symm.trans serves)
        obtain rfl : uuid' = uuid := hsub'.symm.trans hsub
        exact ⟨state, t, sub', session, serves, hsub, connection⟩
  | acts moment w before behind e e' idle found left reaches workers =>
    rw [idle] at worker
    cases worker
  | hands move forwarded workers engagements =>
    rw [move] at worker
    cases worker

theorem returns_asked (moved : s.move? setup m = some (s', told))
    (asks : Step.Asks ⟨s, m, told, s'⟩ setup) (closed : s'.teardowns = 0) :
    s'.gateway.session = none := by
  rcases asks with ⟨i, rfl, hi⟩ | ⟨w, rfl, htaken⟩
  · simp only [move?, hi] at moved
    split_ifs at moved
    cases moved
    refine Errand.disconnect_severs.resolve_right ?_
    rintro ⟨closing, waits⟩
    obtain ⟨before, behind, -, hset, -⟩ := errands_split hi
    simp [teardowns, engagements, waits, Turn.stage?, hset, Errand.Stage.engagement?,
      Engagement.isClosing] at closed
  · obtain ⟨⟨system, told'⟩, hm, he⟩ := Option.map_eq_some_iff.1 moved
    cases he
    cases System.moved_of_move? hm with
    | serving up woken ran =>
      subst ran
      have severs := Serving.disconnect_severs
        (m := (s.toSystem.answered s.serving.call? w).moment setup) htaken
      apply severs.resolve_right
      rintro ⟨closing, waits⟩
      simp [teardowns, engagements, waits, Serving.Stage.engagement?, Engagement.isClosing]
        at closed

/-! ## Every run -/

/-- Connects, disconnects and what hands characteristics out come one at a time, as they do where
the serving loop calls them. -/
structure Ordered (past : List Step) (s : Shared) : Prop where
  single : ∀ t ∈ Run.states past s, t.engagements.length ≤ 1
  apart : ∀ t ∈ past, ∀ uuid, t.move = .forward uuid → t.before.teardowns = 0

theorem teardowns_le (s : Shared) : s.teardowns ≤ s.engagements.length := List.countP_le_length

theorem Ordered.earlier {t : Step} (h : Ordered (t :: past) s) : Ordered past t.before := by
  refine ⟨fun u hu => h.single u (List.mem_cons_of_mem _ hu), fun u hu => ?_⟩
  exact h.apart u (List.mem_cons_of_mem _ hu)

theorem Ordered.teardowns (h : Ordered past s) : ∀ t ∈ past, t.before.teardowns ≤ 1 := by
  intro t ht
  have := h.single t.before (List.mem_cons_of_mem _ (List.mem_map_of_mem ht))
  exact Nat.le_trans (teardowns_le t.before) this

theorem Run.consistent (h : Run setup past s) (ordered : Ordered past s) : s.Consistent := by
  induction h with
  | start online running => exact consistent_initial online running
  | step run moved ih =>
    have single' := ordered.single _ List.mem_cons_self
    have single := ordered.single _ (List.mem_cons_of_mem _ List.mem_cons_self)
    exact (ih ordered.earlier).moved single single' (ordered.apart _ List.mem_cons_self)
      (moved_of_move? moved)

theorem Run.of_append {later earlier : List Step} {t : Step}
    (h : Run setup (later ++ t :: earlier) s) : Run setup earlier t.before ∧
      t.before.move? setup t.move = some (t.after, t.told) := by
  induction later generalizing s with
  | nil =>
    cases h with
    | step run moved => exact ⟨run, moved⟩
  | cons u later ih =>
    cases h with
    | step run moved => exact ih run

theorem Ordered.of_append {later earlier : List Step} {t : Step}
    (h : Ordered (later ++ t :: earlier) s) : Ordered earlier t.before := by
  refine ⟨fun u hu => h.single u ?_, fun u hu => h.apart u ?_⟩
  · rcases List.mem_cons.1 hu with rfl | hu
    · exact List.mem_cons_of_mem _ (List.mem_map_of_mem (by simp))
    · obtain ⟨v, hv, rfl⟩ := List.mem_map.1 hu
      exact List.mem_cons_of_mem _ (List.mem_map_of_mem (by simp [hv]))
  · simp [hu]

/-- From the return of a disconnect on no session is stored until the next one is. -/
theorem Run.severed {later earlier : List Step} {t : Step} (h : Run setup (later ++ t :: earlier) s)
    (ordered : Ordered (later ++ t :: earlier) s) (returns : t.Returns setup)
    (unconnected : ∀ u ∈ later, ¬u.Connects) : s.gateway.session = none := by
  induction later generalizing s with
  | nil =>
    cases h with
    | step run moved =>
      obtain ⟨closing | asks, closed⟩ := returns
      · have single' := ordered.single _ List.mem_cons_self
        have single := ordered.single _ (List.mem_cons_of_mem _ List.mem_cons_self)
        exact (run.consistent ordered.earlier).severs single single' (moved_of_move? moved) closing
          closed
      · exact returns_asked moved asks closed
  | cons u later ih =>
    cases h with
    | step run moved =>
      have before := ih run ordered.earlier fun v hv => unconnected v (List.mem_cons_of_mem _ hv)
      by_contra hs
      exact unconnected _ List.mem_cons_self ⟨before, Option.isSome_iff_ne_none.2 hs⟩

theorem Run.current (h : Run setup past s) (ordered : Ordered past s) {t : Step} (ht : t ∈ past)
    {i : Worker} {uuid : CanonicalUuid} {value : Text.Bytes} (hf : t.Forwards i uuid value) :
    t.Current i uuid := by
  obtain ⟨later, earlier, rfl⟩ := List.append_of_mem ht
  obtain ⟨run, moved⟩ := h.of_append
  have consistent := run.consistent ordered.of_append
  have pooled := (run.tended ordered.of_append.teardowns).toPooled
  exact consistent.forwards pooled (moved_of_move? moved) hf

/-- Whatever the workers, the peer and the broker do, a value is only ever forwarded for the session
that is stored, and none between the return of a disconnect and the next session. -/
theorem Run.no_stale_notification (h : Run setup past s) (ordered : Ordered past s) :
    (∀ t ∈ past, ∀ i uuid value, t.Forwards i uuid value → t.Current i uuid) ∧
      ∀ later t earlier, past = later ++ t :: earlier → t.Returns setup →
        (∀ u ∈ later, ¬u.Connects) → ∀ u ∈ later, ∀ i uuid value, ¬u.Forwards i uuid value := by
  refine ⟨fun t ht i uuid value hf => h.current ordered ht hf, ?_⟩
  rintro later t earlier rfl returns unconnected u hu i uuid value hf
  obtain ⟨s, sub, session, -⟩ := (h.current ordered (List.mem_append_left _ hu) hf).session
  obtain ⟨after, before, rfl⟩ := List.append_of_mem hu
  rw [List.append_assoc, List.cons_append] at h ordered
  obtain ⟨run, -⟩ := h.of_append
  have severed := run.severed ordered.of_append returns fun v hv =>
    unconnected v (List.mem_append_right _ (List.mem_cons_of_mem _ hv))
  rw [severed] at session
  cases session

/-! ## The loops alone -/

/-- The serving loop orders what it does with the peer. -/
theorem ordered_shared (past : List GattGateway.Step) (s : System) :
    Ordered (past.map Step.shared) s.shared := by
  have single (s : System) : s.shared.engagements.length ≤ 1 := by
    have engagements : s.shared.engagements = s.serving.engagement?.toList := List.append_nil _
    rw [engagements]
    cases s.serving.engagement? <;> simp
  refine ⟨fun t ht => ?_, fun t ht uuid hm => ?_⟩
  · rcases List.mem_cons.1 ht with rfl | ht
    · exact single s
    · obtain ⟨u, hu, rfl⟩ := List.mem_map.1 ht
      obtain ⟨v, hv, rfl⟩ := List.mem_map.1 hu
      exact single v.before
  · obtain ⟨u, hu, rfl⟩ := List.mem_map.1 ht
    cases hm

/-- A worker that still publishes a value when its session is closed, and is given up. -/
def lateWorker : List GattGateway.Move :=
  GattGateway.Move.bringUp ++
    [.connectSample, .serving .signal, .serving (.reply .done), .serving (.reply (.connection 1)),
    .serving (.reply (.characteristics [.sample])), .serving (.reply .done),
    .serving (.reply .done), .serving (.reply .done), .worker 0 .signal, .worker 0 (.reply .done),
    .worker 0 (.reply (.value [7])), .message "ble/gateway/disconnect" [], .serving .signal,
    .tick 5000, .serving .timeout, .serving (.reply .done), .serving (.reply .done),
    .serving (.reply .done), .worker 0 (.reply .done), .worker 0 .signal]

theorem no_stale_notification_of_late_worker : ∃ past s, Run .sample past s ∧ Ordered past s ∧
    (∃ t ∈ past, t.Forwards 0 Characteristic.sample.descriptor.uuid [7]) ∧
    (∃ t ∈ past, t.Returns .sample) ∧
    (∀ t ∈ past, ∀ i uuid value, t.Forwards i uuid value → t.Current i uuid) ∧
      ∀ later t earlier, past = later ++ t :: earlier → t.Returns .sample →
        (∀ u ∈ later, ¬u.Connects) → ∀ u ∈ later, ∀ i uuid value, ¬u.Forwards i uuid value := by
  have hm : (System.trace? .sample [] (.initial false) lateWorker).any (fun (past, _) =>
      (past.map Step.shared).any (fun t =>
        t.move.worker?.any (fun (i, _, outlet) => i = 0 && outlet = .broker) &&
          t.told = [.notification Characteristic.sample.descriptor.uuid [7]]) &&
      (past.map Step.shared).any fun t => t.before.teardowns ≠ 0 && t.after.teardowns = 0)
      = true := by
    decide +kernel
  obtain ⟨past, s, run, hs⟩ := GattGateway.Run.exists_of_any hm
  have ordered := ordered_shared past s
  simp only [Bool.and_eq_true, List.any_eq_true, decide_eq_true_eq] at hs
  obtain ⟨⟨t, ht, hw, htold⟩, u, hu, hclosing, hclosed⟩ := hs
  refine ⟨_, _, run.shared, ordered, ⟨t, ht, ?_⟩, ⟨u, hu, .inl hclosing, hclosed⟩,
    run.shared.no_stale_notification ordered⟩
  obtain ⟨⟨i, w, outlet⟩, hworker, hi⟩ := (Option.any_eq_true _ _).1 hw
  simp only [Bool.and_eq_true, decide_eq_true_eq] at hi
  obtain ⟨rfl, rfl⟩ := hi
  exact ⟨w, .broker, hworker, by simp [Forwarding.Forwards, htold]⟩

end Shared

end GattGateway
