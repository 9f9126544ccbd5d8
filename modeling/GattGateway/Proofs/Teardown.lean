import GattGateway.Gateway.Teardown
import GattGateway.Proofs.Bond
import GattGateway.Proofs.Segment

/-!
# What a teardown comes to

From a settled gateway every teardown ends with a free one, whatever the workers and the radio do,
and on its way it touches nothing but the session, the link, the power and the slots.
-/
namespace GattGateway.Teardown

open Segment

/-- What holds while a teardown waits. The workers before the awaited one forward no more. -/
def Stage.Fits (g : Gateway) : Stage → Prop
  | .stopping w _ => g.Settled ∧ ∀ v < w, (g.slot v).isForwarding = false
  | .hangingUp _ => g.Passing .disconnecting
  | .poweringDown => g.Free

/-- What a teardown leaves as it was. A link that was not in use stays so. -/
structure Kept (g g' : Gateway) : Prop extends g.Kept g' where
  link : g.peerLink = .disconnected → g'.peerLink = .disconnected

theorem Kept.refl (g : Gateway) : Kept g g := ⟨.refl g, id⟩

theorem Kept.trans {g g' g'' : Gateway} (h : Kept g g') (h' : Kept g' g'') : Kept g g'' :=
  ⟨h.toKept.trans h'.toKept, fun hl => h'.link (h.link hl)⟩

theorem Kept.setSlot {g : Gateway} {w : Worker} {s : Slot} (h : g.Calmer (g.setSlot w s)) :
    Kept g (g.setSlot w s) :=
  ⟨⟨rfl, h.orderly⟩, id⟩

/-- A teardown that waits with the link not in use has nothing left to close. -/
theorem Stage.Fits.free {g : Gateway} {stage : Stage} (h : stage.Fits g)
    (hl : g.peerLink = .disconnected) : g.Free := by
  cases stage with
  | stopping w deadline => exact h.1.free hl
  | hangingUp connection =>
    have := h.link
    rw [hl] at this
    cases this
  | poweringDown => exact h

theorem Stage.Fits.calmer {g g' : Gateway} {stage : Stage} (h : stage.Fits g) (hg : g.Calmer g') :
    stage.Fits g' := by
  cases stage with
  | stopping w deadline => exact ⟨h.1.calmer hg, fun v hv => hg.forwarding (h.2 v hv)⟩
  | hangingUp connection => exact Gateway.Passing.calmer h hg
  | poweringDown => exact Gateway.Free.calmer h hg

theorem nextForwarding?_eq_none {g : Gateway} {first : Nat} (h : nextForwarding? g first = none)
    {w : Worker} (hw : first ≤ w.val) : (g.slot w).isForwarding = false := by
  have := List.find?_eq_none.1 h w (List.mem_finRange w)
  simpa [hw] using this

theorem nextForwarding?_eq_some {g : Gateway} {first : Nat} {w : Worker}
    (h : nextForwarding? g first = some w) {v : Worker} (hv : first ≤ v.val) (hvw : v < w) :
    (g.slot v).isForwarding = false := by
  obtain ⟨-, before, behind, hl, hb⟩ := List.find?_eq_some_iff_append.1 h
  have hv' : v ∈ before := by
    have hm : v ∈ before ++ w :: behind := hl ▸ List.mem_finRange v
    have hs : (before ++ w :: behind).Pairwise (· < ·) := hl ▸ List.pairwise_lt_finRange workerCount
    have hb' := List.pairwise_cons.1 (List.pairwise_append.1 hs).2.1
    rcases List.mem_append.1 hm with hm | hm
    · exact hm
    · rcases List.mem_cons.1 hm with rfl | hm
      · exact absurd hvw (Fin.lt_irrefl v)
      · exact absurd (Fin.lt_trans hvw (hb'.1 v hm)) (Fin.lt_irrefl v)
  have := hb v hv'
  simpa [hv] using this

variable {m : Moment} {g : Gateway}

theorem release_ends (hs : g.session = none) (hq : g.Quiet) :
    (release g).Ends (fun g' stage => Kept g g' ∧ stage.Fits g')
      fun g' _ => Kept g g' ∧ g'.Free := by
  have hk : Kept g { g with peerLink := .disconnected } := ⟨⟨rfl, id⟩, fun _ => rfl⟩
  have hf : ({ g with peerLink := .disconnected } : Gateway).Free := ⟨hs, rfl, hq⟩
  unfold release
  dsimp only
  split_ifs with h
  · exact ⟨hk, hf⟩
  · exact ⟨hk, hf⟩

theorem hangUp_ends (hs : g.Settled) (hq : g.Quiet) :
    (hangUp g).Ends (fun g' stage => Kept g g' ∧ stage.Fits g')
      fun g' _ => Kept g g' ∧ g'.Free := by
  unfold hangUp
  cases h : g.session with
  | some s =>
    have hl : g.peerLink = .connected := hs.session_iff.1 (by simp [h])
    have hk : Kept g { g with session := none, peerLink := .disconnecting } :=
      ⟨⟨rfl, id⟩, fun hd => by simp [hl] at hd⟩
    exact ⟨hk, rfl, rfl, hq⟩
  | none => exact release_ends h hq

theorem stopFrom_ends {first : Nat} (hs : g.Settled)
    (hb : ∀ v : Worker, v.val < first → (g.slot v).isForwarding = false) :
    (stopFrom m g first).Ends (fun g' stage => Kept g g' ∧ stage.Fits g')
      fun g' _ => Kept g g' ∧ g'.Free := by
  unfold stopFrom
  cases h : nextForwarding? g first with
  | some w =>
    have hc : g.Calmer (g.setSlot w { g.slot w with cancelled := true }) :=
      .setSlot fun hf => ⟨hf, rfl⟩
    refine ⟨.setSlot hc, hs.calmer hc, fun v hv => hc.forwarding ?_⟩
    by_cases hfirst : first ≤ v.val
    · exact nextForwarding?_eq_some h hfirst hv
    · exact hb v (by omega)
  | none =>
    refine hangUp_ends hs fun w => ?_
    by_cases hw : first ≤ w.val
    · exact nextForwarding?_eq_none h hw
    · exact hb w (by omega)

theorem begin_ends (hs : g.Settled) :
    (begin m g).Ends (fun g' stage => Kept g g' ∧ stage.Fits g') fun g' _ => Kept g g' ∧ g'.Free :=
  stopFrom_ends hs fun _ hv => absurd hv (Nat.not_lt_zero _)

/-- After the awaited worker the next one is stopped, once it forwards no more. -/
theorem stopFrom_succ_ends {w : Worker} {s : Slot} (hs : g.Settled)
    (hb : ∀ v < w, (g.slot v).isForwarding = false) (hw : s.isForwarding = false) :
    (stopFrom m (g.setSlot w s) (w.val + 1)).Ends (fun g' stage => Kept g g' ∧ stage.Fits g')
      fun g' _ => Kept g g' ∧ g'.Free := by
  have hc : g.Calmer (g.setSlot w s) := .setSlot fun hf => by simp [hw] at hf
  have hk := Kept.setSlot hc
  refine (stopFrom_ends (hs.calmer hc) fun v hv => ?_).imp (fun _ _ h => ⟨hk.trans h.1, h.2⟩)
    fun _ _ h => ⟨hk.trans h.1, h.2⟩
  by_cases hvw : v = w
  · subst v
    simpa using hw
  · have : v.val ≠ w.val := fun he => hvw (Fin.ext he)
    exact hc.forwarding (hb v (Fin.lt_def.2 (by omega)))

/-- Every wait of a teardown leads on to a stage that fits, or to a free gateway. -/
theorem resume_ends {stage : Stage} {w : Wake} (h : stage.Fits g) (ho : g.Orderly)
    (hw : w = .signal → stage.signalled g = true) :
    (resume m g stage w).Ends (fun g' stage => Kept g g' ∧ stage.Fits g')
      fun g' _ => Kept g g' ∧ g'.Free := by
  cases stage with
  | stopping v deadline =>
    obtain ⟨hs, hb⟩ := h
    cases w with
    | signal =>
      refine stopFrom_succ_ends hs hb ?_
      by_contra hf
      have := ho v (by simpa [Slot.isForwarding] using hf)
      rw [show (g.slot v).stopped = true from hw rfl] at this
      cases this
    | reply r => exact ⟨.refl g, hs, hb⟩
    | timeout => exact stopFrom_succ_ends hs hb rfl
  | hangingUp connection =>
    cases w with
    | reply r => exact release_ends h.session h.quiet
    | signal => exact ⟨.refl g, h⟩
    | timeout => exact ⟨.refl g, h⟩
  | poweringDown =>
    cases w with
    | reply r =>
      simp only [resume]
      split
      · exact ⟨⟨⟨rfl, id⟩, id⟩, h.session, h.link, h.quiet⟩
      · exact ⟨.refl g, h⟩
    | signal => exact ⟨.refl g, h⟩
    | timeout => exact ⟨.refl g, h⟩

/-! ## One wait after the other -/

/-- How a teardown goes on that has to stop the workers from a given one on. -/
inductive Stops (g : Gateway) (first : Nat) : Gateway → Option Stage → Prop
  | stops {w : Worker} {deadline : Instant} (forwarding : (g.slot w).isForwarding = true)
      (before : ∀ v : Worker, first ≤ v.val → v < w → (g.slot v).isForwarding = false) :
      Stops g first (g.setSlot w { g.slot w with cancelled := true }) (some (.stopping w deadline))
  | hangsUp {s : Session} (session : g.session = some s)
      (quiet : ∀ v : Worker, first ≤ v.val → (g.slot v).isForwarding = false) :
      Stops g first { g with session := none, peerLink := .disconnecting }
        (some (.hangingUp s.connection))
  | releases {next : Option Stage} (session : g.session = none)
      (last : next = some .poweringDown ∨ next = none) :
      Stops g first { g with peerLink := .disconnected } next

theorem release_last : (release g).gateway = { g with peerLink := .disconnected } ∧
    ((release g).turn.stage? = some .poweringDown ∨ (release g).turn.stage? = none) := by
  unfold release
  dsimp only
  split_ifs
  · exact ⟨rfl, .inl rfl⟩
  · exact ⟨rfl, .inr rfl⟩

theorem stopFrom_stops {first : Nat} :
    Stops g first (stopFrom m g first).gateway (stopFrom m g first).turn.stage? := by
  unfold stopFrom
  cases h : nextForwarding? g first with
  | some w =>
    have hw := (List.find?_eq_some_iff_append.1 h).1
    simp only [Bool.and_eq_true] at hw
    exact .stops hw.2 fun v => nextForwarding?_eq_some h
  | none =>
    unfold hangUp
    cases hs : g.session with
    | some s => exact .hangsUp hs fun v => nextForwarding?_eq_none h
    | none =>
      obtain ⟨hg, last⟩ := release_last (g := g)
      dsimp only
      rw [hg]
      exact .releases hs last

/-- How a teardown goes on when a wait of it ends. -/
inductive Resumes (g : Gateway) : Stage → Wake → Gateway → Option Stage → Prop
  | waits {stage : Stage} {w : Wake}
      (unanswered : ∀ connection r, stage = .hangingUp connection → w ≠ .reply r) :
      Resumes g stage w g (some stage)
  | stopped {w : Worker} {deadline : Instant} {g' : Gateway} {next : Option Stage}
      (rest : Stops (g.setSlot w { g.slot w with stopped := false }) (w.val + 1) g' next) :
      Resumes g (.stopping w deadline) .signal g' next
  | late {w : Worker} {deadline : Instant} {g' : Gateway} {next : Option Stage}
      (rest : Stops (g.setSlot w { g.slot w with state := .draining }) (w.val + 1) g' next) :
      Resumes g (.stopping w deadline) .timeout g' next
  | hungUp {connection : Connection} {r : Reply} {next : Option Stage}
      (last : next = some .poweringDown ∨ next = none) :
      Resumes g (.hangingUp connection) (.reply r) { g with peerLink := .disconnected } next
  | off {r : Reply} (powered : Bool) :
      Resumes g .poweringDown (.reply r) { g with powered } none

theorem resume_resumes {stage : Stage} {w : Wake} :
    Resumes g stage w (resume m g stage w).gateway (resume m g stage w).turn.stage? := by
  unfold resume
  split
  · exact .stopped stopFrom_stops
  · exact .late stopFrom_stops
  · obtain ⟨hg, last⟩ := release_last (g := g)
    rw [hg]
    exact .hungUp last
  · split
    · exact .off false
    · exact .off g.powered
  · exact .waits ‹_›

/-! ## Events -/

theorem release_events : (release g).events = [] := by
  unfold release
  dsimp only
  split_ifs <;> rfl

theorem hangUp_events : (hangUp g).events = [] := by
  unfold hangUp
  cases g.session with
  | some s => rfl
  | none => exact release_events

theorem stopFrom_events {first : Nat} : (stopFrom m g first).events = [] := by
  unfold stopFrom
  cases nextForwarding? g first with
  | some w => rfl
  | none => exact hangUp_events

theorem begin_events : (begin m g).events = [] := stopFrom_events

/-- A teardown tells nothing. -/
theorem resume_events {stage : Stage} {w : Wake} : (resume m g stage w).events = [] := by
  unfold resume
  split
  · exact stopFrom_events
  · exact stopFrom_events
  · exact release_events
  · split <;> rfl
  · rfl

end GattGateway.Teardown
