import GattGateway.Gateway.Autoscan
import GattGateway.Proofs.Recovery

/-!
# What a scan cycle does to the gateway

A scan cycle starts only where nobody holds the radio and scanning is not paused. It holds the radio
until its outcome has been published, scans in the first part of this time only, and leaves the
session, the link, the pause and the slots alone.
-/
namespace GattGateway

open Segment

namespace Sweep

/-- The radio scans, or is about to. -/
def Stage.scans : Stage → Bool
  | .poweringDown _ => false
  | _ => true

/-- Nothing but the power and the scanning has changed. -/
def Kept (g g' : Gateway) : Prop :=
  g' = { g with scanning := g'.scanning, powered := g'.powered }

variable {m : Moment} {g : Gateway}

theorem result_ne_busy (heard : Except RadioFault Collector) : result heard ≠ .error .busy := by
  cases heard <;> simp [result]

theorem close_ends (heard : Except RadioFault Collector) :
    (close g heard).Ends (fun g' s => Kept g g' ∧ g'.scanning = s.scans)
      fun g' found => Kept g g' ∧ g'.scanning = false ∧ found ≠ .error .busy := by
  unfold close
  dsimp only
  split_ifs
  · exact ⟨rfl, rfl⟩
  · exact ⟨rfl, rfl, result_ne_busy heard⟩

/-- Where the radio is not in use a scan gets under way. -/
theorem begin_ends (h : g.radioInUse = false) :
    (begin m g).Ends (fun g' s => Kept g g' ∧ g'.scanning = s.scans) fun _ _ => False := by
  simp only [begin, h, Bool.false_eq_true, if_false]
  split_ifs
  · exact ⟨rfl, rfl⟩
  · exact ⟨rfl, rfl⟩

theorem resume_ends {s : Stage} {w : Wake} (h : g.scanning = s.scans) :
    (resume m g s w).Ends (fun g' s => Kept g g' ∧ g'.scanning = s.scans)
      fun g' found => Kept g g' ∧ g'.scanning = false ∧ found ≠ .error .busy := by
  cases w with
  | signal => cases s <;> exact ⟨rfl, h⟩
  | timeout => cases s <;> exact ⟨rfl, h⟩
  | reply r =>
    cases s with
    | poweringUp =>
      simp only [resume]
      split
      · exact ⟨rfl, h⟩
      · exact close_ends _
    | listening deadline heard => exact ⟨rfl, h⟩
    | stopping heard => exact close_ends heard
    | poweringDown heard =>
      simp only [resume]
      split
      · exact ⟨rfl, h, result_ne_busy heard⟩
      · exact ⟨rfl, h, result_ne_busy heard⟩

theorem begin_events : (begin m g).events = [] := by
  unfold begin
  dsimp only
  split_ifs <;> rfl

theorem close_events {heard : Except RadioFault Collector} : (close g heard).events = [] := by
  unfold close
  dsimp only
  split_ifs <;> rfl

/-- A scan tells nothing. -/
theorem resume_events {s : Stage} {w : Wake} : (resume m g s w).events = [] := by
  unfold resume
  split
  · split
    · rfl
    · exact close_events
  · rfl
  · rfl
  · exact close_events
  · split <;> rfl
  · rfl

end Sweep

namespace Autoscan

/-- A scan cycle holds the radio. -/
def Stage.holdsRadio : Stage → Bool
  | .deciding => false
  | .resting _ => false
  | _ => true

def Stage.scans : Stage → Bool
  | .sweeping s => s.scans
  | _ => false

theorem Stage.holdsRadio_of_scans {stage : Stage} (h : stage.scans = true) :
    stage.holdsRadio = true := by
  cases stage with
  | sweeping s => rfl
  | _ => cases h

theorem Stage.scans_of_rests {stage : Stage} (h : stage.holdsRadio = false) :
    stage.scans = false := by
  by_contra hs
  have := holdsRadio_of_scans (by simpa using hs)
  simp [h] at this

@[simp] theorem Stage.holdsRadio_hear (r : Report) (stage : Stage) :
    (stage.hear r).holdsRadio = stage.holdsRadio := by
  cases stage <;> rfl

@[simp] theorem Stage.scans_hear (r : Report) (stage : Stage) :
    (stage.hear r).scans = stage.scans := by
  cases stage with
  | sweeping s => cases s <;> rfl
  | _ => rfl

@[simp] theorem Stage.call?_hear (setup : Setup) (r : Report) (stage : Stage) :
    (stage.hear r).call? setup = stage.call? setup := by
  cases stage with
  | sweeping s => cases s <;> rfl
  | _ => rfl

/-- Nothing but what scan cycles are about has changed, and the readiness has not been turned on
without a link. -/
structure Kept (m : Moment) (g g' : Gateway) : Prop where
  rest : g' = { g with
    scanning := g'.scanning, powered := g'.powered, busy := g'.busy, ready := g'.ready,
    lastScan := g'.lastScan }
  ready : g'.ready = true → g.ready = true ∨ m.online = true

/-- What holds of the gateway where a scan cycle goes on, or has come to its end. -/
structure Cycle (m : Moment) (g₀ g : Gateway) (stage : Stage) : Prop where
  kept : Kept m g₀ g
  busy : g.busy = stage.holdsRadio
  scanning : g.scanning = stage.scans

variable {m : Moment} {g₀ g : Gateway}

theorem Kept.refl (g : Gateway) : Kept m g g := ⟨rfl, .inl⟩

theorem Kept.sweep {g' : Gateway} (h : Kept m g₀ g) (hk : Sweep.Kept g g') : Kept m g₀ g' where
  rest := by rw [hk, h.rest]
  ready hr := h.ready (by rwa [hk] at hr)

theorem Kept.recovery {g' : Gateway} (h : Kept m g₀ g) (hk : Recovery.Kept m g g') :
    Kept m g₀ g' where
  rest := by rw [hk.rest, h.rest]
  ready hr := (hk.ready hr).elim h.ready .inr

theorem Kept.release (h : Kept m g₀ g) : Kept m g₀ { g with busy := false } where
  rest := by rw [h.rest]
  ready := h.ready

theorem release_leads (h : Kept m g₀ g) (hs : g.scanning = false) :
    (release g).Leads fun g' _ stage => Cycle m g₀ g' stage :=
  ⟨h.release, rfl, hs⟩

theorem report_leads {e : Fault} (h : Kept m g₀ g) (hb : g.busy = true) (hs : g.scanning = false) :
    (report m g e).Leads fun g' _ stage => Cycle m g₀ g' stage := by
  unfold report
  dsimp only
  rw [leads_telling]
  split
  · exact ⟨h, hb, hs⟩
  · exact release_leads h hs

theorem publish_leads {found : Sweep.Result} (h : Kept m g₀ g) (hb : g.busy = true)
    (hs : g.scanning = false) :
    (publish m g found).Leads fun g' _ stage => Cycle m g₀ g' stage := by
  cases found with
  | error e => exact report_leads h hb hs
  | ok ds =>
    simp only [publish]
    split
    · exact ⟨h, hb, hs⟩
    · exact report_leads h hb hs

theorem recover_leads {found : Sweep.Result} {s : Segment Recovery.Stage Recovery.Outcome}
    (silent : s.events = [])
    (h : s.Ends (fun g' _ => Recovery.Kept m g g') fun g' _ => Recovery.Kept m g g')
    (hk : Kept m g₀ g) (hb : g.busy = true) (hs : g.scanning = false) :
    (recover m found s).Leads fun g' _ stage => Cycle m g₀ g' stage := by
  have busy {g' : Gateway} (hr : Recovery.Kept m g g') : g'.busy = true := by rw [hr.rest, hb]
  have still {g' : Gateway} (hr : Recovery.Kept m g g') : g'.scanning = false := by rw [hr.rest, hs]
  exact h.leads silent (fun g' s hr => ⟨hk.recovery hr, busy hr, still hr⟩)
    fun g' outcome hr => publish_leads (hk.recovery hr) (busy hr) (still hr)

theorem sweep_leads {s : Segment Sweep.Stage Sweep.Result} (silent : s.events = [])
    (hk : Kept m g₀ g) (hb : g.busy = true)
    (h : s.Ends (fun g' s => Sweep.Kept g g' ∧ g'.scanning = s.scans)
      fun g' _ => Sweep.Kept g g' ∧ g'.scanning = false) :
    (sweep m s).Leads fun g' _ stage => Cycle m g₀ g' stage := by
  have busy {g' : Gateway} (hs : Sweep.Kept g g') : g'.busy = true := by rw [hs, hb]
  exact h.leads silent (fun g' s hs => ⟨hk.sweep hs.1, busy hs.1, hs.2⟩)
    fun g' found hs => recover_leads Recovery.poll_events Recovery.begin_ends (hk.sweep hs.1)
      (busy hs.1) hs.2

/-- A cycle that holds the radio goes on holding it until it comes to its end. -/
theorem resume_leads_of_holds {stage : Stage} {w : Wake} (hh : stage.holdsRadio = true)
    (hb : g.busy = true) (hs : g.scanning = stage.scans) :
    (resume m g stage w).Leads fun g' _ stage' => Cycle m g g' stage' := by
  have hk : Kept m g g := .refl g
  cases stage with
  | sweeping s =>
    exact sweep_leads Sweep.resume_events hk hb
      ((Sweep.resume_ends hs).imp (fun _ _ h => h) fun _ _ h => ⟨h.1, h.2.1⟩)
  | recovering found s => exact recover_leads Recovery.resume_events Recovery.resume_ends hk hb hs
  | publishing message devices =>
    cases w with
    | reply r =>
      simp only [resume]
      split
      · exact release_leads hk hs
      · exact report_leads hk hb hs
    | signal => exact ⟨hk, hb, hs⟩
    | timeout => exact ⟨hk, hb, hs⟩
  | reporting message =>
    cases w with
    | reply r => exact release_leads hk hs
    | signal => exact ⟨hk, hb, hs⟩
    | timeout => exact ⟨hk, hb, hs⟩
  | _ => cases hh

/-- Where nobody holds the radio a cycle rests on or starts. -/
theorem consider_leads (hl : g.paused = false → g.peerLink = .disconnected)
    (hs : g.scanning = false) :
    (consider m g).Leads fun g' told stage =>
      g' = g ∧ stage.holdsRadio = false ∧ told = [] ∨
        g.busy = false ∧ g.paused = false ∧ Cycle m g g' stage := by
  unfold consider
  split_ifs with hr hp he
  · exact .inl ⟨rfl, rfl, rfl⟩
  · exact .inl ⟨rfl, rfl, rfl⟩
  · exact .inl ⟨rfl, rfl, rfl⟩
  · obtain ⟨hpaused, hbusy⟩ : g.paused = false ∧ g.busy = false := by simpa using hp
    unfold start
    rw [leads_telling]
    have hk : Kept m g { g with busy := true, lastScan := some m.now, ready := false } :=
      ⟨rfl, nofun⟩
    have hu : ({ g with busy := true, lastScan := some m.now, ready := false } : Gateway).radioInUse
        = false := by
      simp [Gateway.radioInUse, hs, hl hpaused]
    exact (sweep_leads Sweep.begin_events hk rfl
      ((Sweep.begin_ends hu).imp (fun _ _ h => h) fun _ _ h => h.elim)).imp
      fun _ _ _ h => .inr ⟨hbusy, hpaused, h⟩

theorem resume_leads_of_rests {stage : Stage} {w : Wake} (hh : stage.holdsRadio = false)
    (hl : g.paused = false → g.peerLink = .disconnected) (hs : g.scanning = stage.scans) :
    (resume m g stage w).Leads fun g' told stage' =>
      g' = g ∧ stage'.holdsRadio = false ∧ told = [] ∨
        g.busy = false ∧ g.paused = false ∧ Cycle m g g' stage' := by
  cases stage with
  | deciding =>
    cases w with
    | signal => exact consider_leads hl hs
    | reply r => exact .inl ⟨rfl, rfl, rfl⟩
    | timeout => exact .inl ⟨rfl, rfl, rfl⟩
  | resting deadline =>
    cases w with
    | timeout => exact consider_leads hl hs
    | signal => exact .inl ⟨rfl, rfl, rfl⟩
    | reply r => exact .inl ⟨rfl, rfl, rfl⟩
  | _ => cases hh

end Autoscan

end GattGateway
