import GattGateway.Proofs.Autoscan
import GattGateway.Proofs.Bystanders
import GattGateway.Proofs.Serving
import GattGateway.Proofs.System

/-!
# The two loops together

The scan loop, the serving loop and the gateway between them agree with each other in every state of
a run: the radio is held by one of the loops at most, and what is stored fits the stages of both.
-/
namespace GattGateway

variable {g g' : Gateway}

namespace Serving

variable {taken scans : Bool} {stage : Stage}

/-- A free gateway fits as well after a scan cycle has gone on. -/
theorem Stage.Fits.cycle (h : stage.Fits g) (hf : g.Free) (hs : stage.holdsRadio = false)
    {m : Moment} (hk : Autoscan.Kept m g g') : stage.Fits g' := by
  have hf' : g'.Free := by
    rw [hk.rest]
    exact ⟨hf.session, hf.link, hf.quiet⟩
  rw [hk.rest] at hf' ⊢
  cases stage with
  | receiving => exact ⟨hf'.settled, h.2⟩
  | acquiring peer wasPaused giveUp deadline => exact ⟨hf'.settled, h.2⟩
  | leaving s =>
    refine ⟨?_, h.2⟩
    cases s with
    | stopping w deadline => exact ⟨hf'.settled, h.1.2⟩
    | hangingUp connection =>
      have := hf.link.symm.trans h.1.link
      cases this
    | poweringDown => exact hf'
  | parting message => exact ⟨hf'.settled, h.2⟩
  | writing connection handle data => exact absurd h.1 hf.not_bound
  | reading uuid connection handle => exact absurd h.1 hf.not_bound
  | answering uuid value message => exact ⟨hf'.settled, h.2⟩
  | reporting message => exact ⟨hf'.settled, h.2⟩
  | _ => cases hs

/-- A scan cycle that starts, goes on or comes to its end beside a loop that does not hold the
radio. -/
theorem Agrees.cycle {next : Autoscan.Stage} (h : Agrees taken scans g stage) (hf : g.Free)
    (hs : stage.holdsRadio = false) {m : Moment} (hc : Autoscan.Cycle m g g' next) :
    Agrees next.holdsRadio next.scans g' stage where
  fits := h.fits.cycle hf hs hc.kept
  busy := by rw [hc.busy, hs, Bool.or_false]
  apart _ := by
    rw [hc.kept.rest]
    exact ⟨⟨hf.session, hf.link, hf.quiet⟩, hs⟩
  scanning := hc.scanning
  scans := Autoscan.Stage.holdsRadio_of_scans
  orderly := by
    rw [hc.kept.rest]
    exact h.orderly

end Serving

namespace System

variable {setup : Setup} {s s' : System} {m : Move} {told : List Event}

def Coherent (s : System) : Prop :=
  Serving.Agrees s.autoscan.holdsRadio s.autoscan.scans s.gateway s.serving

theorem coherent_initial (online : Bool) : (initial online).Coherent where
  fits := ⟨.inl ⟨rfl, rfl, fun w => by rw [initial, Gateway.slot_initial]; rfl⟩, rfl⟩
  busy := rfl
  apart := nofun
  scanning := rfl
  scans := nofun
  orderly w hw := by
    rw [initial, Gateway.slot_initial]

/-- What happens beside the two loops. -/
structure Beside (s s' : System) : Prop where
  gateway : s.gateway.Undisturbed s'.gateway
  holdsRadio : s'.autoscan.holdsRadio = s.autoscan.holdsRadio
  scans : s'.autoscan.scans = s.autoscan.scans
  call : ∀ setup, s'.autoscan.call? setup = s.autoscan.call? setup
  serving : s'.serving = s.serving

theorem Beside.of_gateway (h : s.gateway.Undisturbed s'.gateway) (ha : s'.autoscan = s.autoscan)
    (hs : s'.serving = s.serving) : s.Beside s' :=
  ⟨h, by rw [ha], by rw [ha], fun _ => by rw [ha], hs⟩

/-- A move is one of the two loops, or happens beside them. -/
theorem Moved.loop_or_beside (hm : Moved setup s m s' told) :
    (∃ w, m = .autoscan w) ∨ (∃ w, m = .serving w) ∨ s.Beside s' := by
  cases hm with
  | autoscan up woken ran => exact .inl ⟨_, rfl⟩
  | serving up woken ran => exact .inr (.inl ⟨_, rfl⟩)
  | startup present woken ran =>
    subst ran
    exact .inr (.inr (.of_gateway (Greeting.Kept.undisturbed Startup.resume_ends.gateway)
      (by simp) (by simp)))
  | worker up woken ran =>
    subst ran
    exact .inr (.inr (.of_gateway (Forwarding.Kept.undisturbed Forwarding.resume_leads) rfl rfl))
  | greeting present woken ran =>
    subst ran
    exact .inr (.inr (.of_gateway (Greeting.Kept.undisturbed Greeting.resume_ends.gateway)
      (by simp) (by simp)))
  | hear r => exact .inr (.inr ⟨.refl _, by simp, by simp, by simp, rfl⟩)
  | message inbox => exact .inr (.inr (.of_gateway (.of_inbox _ inbox) rfl rfl))
  | drop => exact .inr (.inr (.of_gateway (.refl _) rfl rfl))
  | restore offline => exact .inr (.inr (.of_gateway (.refl _) rfl rfl))
  | greet =>
    exact .inr (.inr (.of_gateway (Greeting.Kept.undisturbed Greeting.begin_ends.gateway) rfl rfl))
  | rejoin offline =>
    exact .inr (.inr (.of_gateway (Greeting.Kept.undisturbed Greeting.begin_ends.gateway) rfl rfl))
  | peers alive => exact .inr (.inr (.of_gateway (.refl _) rfl rfl))
  | tick d => exact .inr (.inr (.of_gateway (.refl _) rfl rfl))

theorem Coherent.beside (h : s.Coherent) (hb : s.Beside s') : s'.Coherent := by
  unfold Coherent
  rw [hb.holdsRadio, hb.scans, hb.serving]
  exact Serving.Agrees.undisturbed h hb.gateway

/-- The loop that scans rests, or has the radio where the loop that serves has nothing in use. -/
theorem Coherent.cycle {w : Wake} (h : s.Coherent) :
    (Autoscan.resume (s.moment setup) s.gateway s.autoscan w).Leads fun g' _ stage =>
      g' = s.gateway ∧ s.autoscan.holdsRadio = false ∧ stage.holdsRadio = false ∨
        s.gateway.Free ∧ s.serving.holdsRadio = false ∧
          Autoscan.Cycle (s.moment setup) s.gateway g' stage := by
  cases hh : s.autoscan.holdsRadio with
  | true =>
    obtain ⟨hf, hs⟩ := h.apart hh
    have hb : s.gateway.busy = true := by rw [h.busy, hh, Bool.true_or]
    exact (Autoscan.resume_leads_of_holds hh hb h.scanning).imp fun _ _ _ hc => .inr ⟨hf, hs, hc⟩
  | false =>
    have hl (hp : s.gateway.paused = false) : s.gateway.peerLink = .disconnected :=
      h.fits.link.resolve_right (by simp [hp])
    refine (Autoscan.resume_leads_of_rests hh hl h.scanning).imp fun g' _ stage hr => ?_
    rcases hr with ⟨rfl, hrest, -⟩ | ⟨hb, hp, hc⟩
    · exact .inl ⟨rfl, rfl, hrest⟩
    · have hs : s.serving.holdsRadio = false := by
        have := h.busy
        rw [hb, hh] at this
        simpa using this.symm
      exact .inr ⟨h.fits.free hs (hl hp), hs, hc⟩

theorem Coherent.autoscan {w : Wake} (h : s.Coherent) :
    (Autoscan.resume (s.moment setup) s.gateway s.autoscan w).Leads fun g' _ stage =>
      Serving.Agrees stage.holdsRadio stage.scans g' s.serving := by
  refine h.cycle.imp fun g' _ stage hr => ?_
  rcases hr with ⟨rfl, hh, hrest⟩ | ⟨hf, hs, hc⟩
  · have hscans := Autoscan.Stage.scans_of_rests hh
    rw [Coherent, hh, hscans] at h
    rw [hrest, Autoscan.Stage.scans_of_rests hrest]
    exact h
  · exact Serving.Agrees.cycle h hf hs hc

/-- What the loop that scans leaves alone. -/
theorem Coherent.autoscan_kept {w : Wake} (h : s.Coherent)
    (hm : Moved setup s (.autoscan w) s' told) :
    s'.serving = s.serving ∧ Autoscan.Kept (s.moment setup) s.gateway s'.gateway := by
  cases hm with
  | autoscan up woken ran =>
    subst ran
    refine ⟨rfl, ?_⟩
    rcases cycle h with ⟨he, -, -⟩ | ⟨-, -, hc⟩
    · rw [he]
      exact .refl _
    · exact hc.kept

theorem Coherent.moved (h : s.Coherent) (hm : Moved setup s m s' told) : s'.Coherent := by
  rcases hm.loop_or_beside with ⟨w, rfl⟩ | ⟨w, rfl⟩ | hb
  · cases hm with
    | autoscan up woken ran =>
      subst ran
      exact h.autoscan
  · cases hm with
    | serving up woken ran =>
      subst ran
      unfold Coherent
      simp only [answered_autoscan]
      exact Serving.resume_leads h (signalled_of_wakes woken)
  · exact h.beside hb

end System

/-! ## Beside the serving loop -/

/-- Neither the session nor the mark of the topics of values has changed. -/
def Gateway.Idles (g g' : Gateway) : Prop :=
  g'.session = g.session ∧ g'.valueTopics = g.valueTopics

theorem Greeting.Kept.idles (h : Greeting.Kept g g') : g.Idles g' := ⟨by rw [h], by rw [h]⟩

theorem Forwarding.Kept.idles (h : Forwarding.Kept g g') : g.Idles g' :=
  ⟨by rw [h.rest], by rw [h.rest]⟩

theorem Autoscan.Kept.idles {m : Moment} (h : Autoscan.Kept m g g') : g.Idles g' :=
  ⟨by rw [h.rest], by rw [h.rest]⟩

/-- What happens beside the serving loop changes neither the session nor the mark. -/
theorem System.Coherent.serving_or_idles {setup : Setup} {s s' : System} {m : Move}
    {told : List Event} (h : s.Coherent) (hm : Moved setup s m s' told) :
    (∃ w, m = .serving w) ∨ s'.serving = s.serving ∧ s.gateway.Idles s'.gateway := by
  cases hm with
  | serving up woken ran => exact .inl ⟨_, rfl⟩
  | autoscan up woken ran =>
    obtain ⟨-, hk⟩ := h.autoscan_kept (.autoscan up woken ran)
    exact .inr ⟨rfl, hk.idles⟩
  | startup present woken ran =>
    subst ran
    exact .inr ⟨by simp, Greeting.Kept.idles Startup.resume_ends.gateway⟩
  | worker up woken ran =>
    subst ran
    exact .inr ⟨rfl, Forwarding.Kept.idles Forwarding.resume_leads⟩
  | greeting present woken ran =>
    subst ran
    exact .inr ⟨by simp, Greeting.Kept.idles Greeting.resume_ends.gateway⟩
  | greet => exact .inr ⟨rfl, Greeting.Kept.idles Greeting.begin_ends.gateway⟩
  | rejoin offline => exact .inr ⟨rfl, Greeting.Kept.idles Greeting.begin_ends.gateway⟩
  | _ => exact .inr ⟨rfl, rfl, rfl⟩

theorem Run.coherent {setup : Setup} {past : List Step} {s : System} (h : Run setup past s) :
    s.Coherent :=
  h.invariant System.coherent_initial System.Coherent.moved

end GattGateway
