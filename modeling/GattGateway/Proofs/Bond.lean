import GattGateway.Gateway.State
import Mathlib.Tactic.Common

/-!
# The bond between a gateway and a peer

Between two commands a gateway is either free or bound to one peer. Bound means that a session is
stored, the link is connected and the radio is on; free means that none of it can be in use, and
that no worker forwards.
-/
namespace GattGateway

theorem Slot.isForwarding_iff {s : Slot} :
    s.isForwarding = true ↔ ∃ uuid, s.state = .forwarding uuid := by
  cases h : s.state <;> simp [isForwarding, h]

namespace Gateway

theorem slot_setSlot (g : Gateway) (w v : Worker) (s : Slot) :
    (g.setSlot w s).slot v = if v = w then s else g.slot v := by
  simp only [slot, setSlot, Fin.getElem_fin, Vector.getElem_set]
  by_cases h : v = w
  · subst v
    simp
  · rw [if_neg h, if_neg fun hv => h (Fin.ext hv.symm)]

@[simp] theorem slot_setSlot_self (g : Gateway) (w : Worker) (s : Slot) :
    (g.setSlot w s).slot w = s := by
  simp [slot_setSlot]

@[simp] theorem setSlot_setSlot (g : Gateway) (w : Worker) (s s' : Slot) :
    (g.setSlot w s).setSlot w s' = g.setSlot w s' := by
  simp [setSlot]

theorem slot_initial (w : Worker) : ({} : Gateway).slot w = {} := by
  simp [slot]

/-- No worker forwards. -/
def Quiet (g : Gateway) : Prop := ∀ w, (g.slot w).isForwarding = false

/-- A worker that has told its end forwards nothing. -/
def Orderly (g : Gateway) : Prop :=
  ∀ w, (g.slot w).isForwarding = true → (g.slot w).stopped = false

structure Free (g : Gateway) : Prop where
  session : g.session = none
  link : g.peerLink = .disconnected
  quiet : g.Quiet

structure Bound (g : Gateway) : Prop where
  session : g.session.isSome = true
  link : g.peerLink = .connected
  powered : g.powered = true

def Settled (g : Gateway) : Prop := g.Free ∨ g.Bound

/-- No session is stored and the link is in a state of passage. -/
structure Passing (link : PeerLink) (g : Gateway) : Prop where
  session : g.session = none
  link : g.peerLink = link
  quiet : g.Quiet

theorem Free.settled {g : Gateway} (h : g.Free) : g.Settled := .inl h

theorem Bound.settled {g : Gateway} (h : g.Bound) : g.Settled := .inr h

theorem Settled.free {g : Gateway} (h : g.Settled) (hl : g.peerLink = .disconnected) : g.Free := by
  rcases h with h | h
  · exact h
  · rw [h.link] at hl
    cases hl

theorem Free.not_bound {g : Gateway} (h : g.Free) : ¬g.Bound := fun hb => by
  have := hb.session
  simp [h.session] at this

theorem Settled.session_iff {g : Gateway} (h : g.Settled) :
    g.session.isSome = true ↔ g.peerLink = .connected := by
  rcases h with h | h
  · simp [h.session, h.link]
  · simp [h.session, h.link]

/-! ## What changes -/

/-- Nothing but the bond and the slots has changed, and the slots are as orderly as before. -/
structure Kept (g g' : Gateway) : Prop where
  rest : g' = { g with
    session := g'.session, peerLink := g'.peerLink, powered := g'.powered, slots := g'.slots }
  orderly : g.Orderly → g'.Orderly

section

variable {g g' : Gateway} (h : g.Kept g')

include h

theorem Kept.busy : g'.busy = g.busy := by rw [h.rest]

theorem Kept.paused : g'.paused = g.paused := by rw [h.rest]

theorem Kept.scanning : g'.scanning = g.scanning := by rw [h.rest]

end

theorem Kept.refl (g : Gateway) : g.Kept g := ⟨rfl, id⟩

theorem Kept.trans {g g' g'' : Gateway} (h : g.Kept g') (h' : g'.Kept g'') : g.Kept g'' where
  rest := by rw [h'.rest, h.rest]
  orderly ho := h'.orderly (h.orderly ho)

/-- The bond is the same, and no worker has begun to forward, or told its end while it forwards. -/
structure Calmer (g g' : Gateway) : Prop where
  session : g'.session = g.session
  link : g'.peerLink = g.peerLink
  powered : g'.powered = g.powered
  slots : ∀ w, (g'.slot w).isForwarding = true →
    (g.slot w).isForwarding = true ∧ (g'.slot w).stopped = (g.slot w).stopped

theorem Calmer.of_slots_eq {g g' : Gateway} (hs : g'.session = g.session)
    (hl : g'.peerLink = g.peerLink) (hp : g'.powered = g.powered) (h : g'.slots = g.slots) :
    g.Calmer g' where
  session := hs
  link := hl
  powered := hp
  slots w hw := by
    simp only [slot, h] at hw ⊢
    exact ⟨hw, trivial⟩

/-- One slot changes for the better. -/
theorem Calmer.setSlot {g : Gateway} {w : Worker} {s : Slot}
    (h : s.isForwarding = true → (g.slot w).isForwarding = true ∧ s.stopped = (g.slot w).stopped) :
    g.Calmer (g.setSlot w s) where
  session := rfl
  link := rfl
  powered := rfl
  slots v hv := by
    rw [slot_setSlot] at hv ⊢
    split_ifs at hv ⊢ with hvw
    · subst v
      exact h hv
    · exact ⟨hv, rfl⟩

theorem Calmer.trans {g g' g'' : Gateway} (h : g.Calmer g') (h' : g'.Calmer g'') :
    g.Calmer g'' where
  session := h'.session.trans h.session
  link := h'.link.trans h.link
  powered := h'.powered.trans h.powered
  slots w hw := by
    obtain ⟨hf, hs⟩ := h'.slots w hw
    obtain ⟨hf', hs'⟩ := h.slots w hf
    exact ⟨hf', hs.trans hs'⟩

section

variable {g g' : Gateway} (h : g.Calmer g')

include h

theorem Calmer.forwarding {w : Worker} (hw : (g.slot w).isForwarding = false) :
    (g'.slot w).isForwarding = false := by
  by_contra hf
  have := (h.slots w (by simpa using hf)).1
  simp [hw] at this

theorem Calmer.quiet (hq : g.Quiet) : g'.Quiet := fun w => h.forwarding (hq w)

theorem Calmer.orderly (ho : g.Orderly) : g'.Orderly := by
  intro w hw
  obtain ⟨hf, hs⟩ := h.slots w hw
  rw [hs]
  exact ho w hf

end

section

variable {g g' : Gateway}

theorem Free.calmer (hf : g.Free) (h : g.Calmer g') : g'.Free :=
  ⟨h.session.trans hf.session, h.link.trans hf.link, h.quiet hf.quiet⟩

theorem Bound.calmer (hb : g.Bound) (h : g.Calmer g') : g'.Bound :=
  ⟨by rw [h.session, hb.session], h.link.trans hb.link, h.powered.trans hb.powered⟩

theorem Settled.calmer (hs : g.Settled) (h : g.Calmer g') : g'.Settled :=
  hs.imp (·.calmer h) (·.calmer h)

theorem Passing.calmer {link : PeerLink} (hp : g.Passing link) (h : g.Calmer g') :
    g'.Passing link :=
  ⟨h.session.trans hp.session, h.link.trans hp.link, h.quiet hp.quiet⟩

end

/-- A calmer gateway whose flags of the radio and of the pause are as they were. -/
structure Undisturbed (g g' : Gateway) : Prop extends g.Calmer g' where
  busy : g'.busy = g.busy
  paused : g'.paused = g.paused
  scanning : g'.scanning = g.scanning

theorem Undisturbed.refl (g : Gateway) : g.Undisturbed g :=
  ⟨.of_slots_eq rfl rfl rfl rfl, rfl, rfl, rfl⟩

theorem Undisturbed.of_inbox (g : Gateway) (inbox : Inbox) : g.Undisturbed { g with inbox } :=
  ⟨.of_slots_eq rfl rfl rfl rfl, rfl, rfl, rfl⟩

/-! ## Forwarding -/

/-- A characteristic can be handed to a worker: the worker is idle, no other forwards the
characteristic, and what it is to serve is on the connection of the session. -/
structure Handable (g : Gateway) (uuid : CanonicalUuid) (w : Worker) (sub : Subscription) :
    Prop where
  idle : (g.slot w).state = .idle
  unforwarded : ∀ v, (g.slot v).state ≠ .forwarding uuid
  uuid : sub.uuid = uuid
  session : ∃ s, g.session = some s ∧ sub.connection = s.connection

theorem forward?_eq_some {g g' : Gateway} {uuid : CanonicalUuid} (h : g.forward? uuid = some g') :
    ∃ w sub, g.Handable uuid w sub ∧ g' = g.setSlot w (.assign sub) := by
  unfold forward? at h
  cases hs : g.session with
  | none => simp [lookup?, hs] at h
  | some s =>
    cases he : s.find? uuid with
    | none => simp [lookup?, hs, he] at h
    | some e =>
      have hl : g.lookup? uuid = some (s.connection, e) := by simp [lookup?, hs, he]
      simp only [hl] at h
      split_ifs at h with hf
      cases hw : workers.find? fun w => (g.slot w).isIdle with
      | none => simp [hw] at h
      | some w =>
        simp only [hw, Option.some.injEq] at h
        refine ⟨w, _, ⟨?_, ?_, rfl, s, hs, rfl⟩, h.symm⟩
        · simpa [Slot.isIdle] using (List.find?_eq_some_iff_append.1 hw).1
        · intro v hv
          exact hf (List.any_eq_true.2 ⟨v, List.mem_finRange v, by simp [Slot.forwards, hv]⟩)

/-- Handing out characteristics changes nothing but slots. -/
theorem forwardAll_slots (g : Gateway) (ds : List Descriptor) :
    g.forwardAll ds = { g with slots := (g.forwardAll ds).slots } ∧
      (g.Orderly → (g.forwardAll ds).Orderly) := by
  induction ds generalizing g with
  | nil => exact ⟨rfl, id⟩
  | cons d ds ih =>
    have hcons : g.forwardAll (d :: ds) =
        (if d.properties.pushes then (g.forward? d.uuid).getD g else g).forwardAll ds := rfl
    rw [hcons]
    by_cases hd : d.properties.pushes = true
    · rw [if_pos hd]
      cases hf : g.forward? d.uuid with
      | none => exact ih g
      | some g' =>
        obtain ⟨w, sub, -, rfl⟩ := forward?_eq_some hf
        obtain ⟨hr, ho⟩ := ih (g.setSlot w (.assign sub))
        refine ⟨hr, fun horderly => ho fun v hv => ?_⟩
        rw [slot_setSlot] at hv ⊢
        split_ifs at hv ⊢
        · rfl
        · exact horderly v hv
    · rw [if_neg hd]
      exact ih g

theorem forwardAll_kept (g : Gateway) (ds : List Descriptor) : g.Kept (g.forwardAll ds) where
  rest := by rw [(forwardAll_slots g ds).1]
  orderly := (forwardAll_slots g ds).2

theorem Bound.forwardAll {g : Gateway} (h : g.Bound) (ds : List Descriptor) :
    (g.forwardAll ds).Bound := by
  rw [(forwardAll_slots g ds).1]
  exact ⟨h.session, h.link, h.powered⟩

end Gateway

end GattGateway
