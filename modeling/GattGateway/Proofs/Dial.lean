import GattGateway.Gateway.Dial
import GattGateway.Proofs.Bond
import GattGateway.Proofs.Segment

/-!
# What an attempt to connect comes to

An attempt either binds the gateway to the peer or leaves it free. It is refused as busy only where
the radio was in use when it began.
-/
namespace GattGateway.Dial

open Segment

/-- What holds while an attempt waits. -/
def Stage.Fits (g : Gateway) : Stage → Prop
  | .poweringUp _ => g.Passing .connecting
  | .poweringDown e => g.Free ∧ e ≠ .busy
  | _ => g.Passing .connecting ∧ g.powered = true

/-- What an attempt leaves behind. -/
def Result.Fits (g : Gateway) : Result → Prop
  | .ok _ => g.Bound
  | .error e => g.Free ∧ e ≠ .busy

theorem Stage.Fits.calmer {g g' : Gateway} {stage : Stage} (h : stage.Fits g) (hg : g.Calmer g') :
    stage.Fits g' := by
  cases stage with
  | poweringUp peer => exact Gateway.Passing.calmer h hg
  | poweringDown e => exact ⟨h.1.calmer hg, h.2⟩
  | calling peer deadline => exact ⟨h.1.calmer hg, hg.powered.trans h.2⟩
  | discovering connection => exact ⟨h.1.calmer hg, hg.powered.trans h.2⟩
  | closing connection e => exact ⟨h.1.calmer hg, hg.powered.trans h.2⟩

/-- No session is stored while an attempt is under way. -/
theorem Stage.Fits.session {g : Gateway} {stage : Stage} (h : stage.Fits g) : g.session = none := by
  cases stage with
  | poweringUp peer => exact Gateway.Passing.session h
  | poweringDown e => exact h.1.session
  | calling peer deadline => exact h.1.session
  | discovering connection => exact h.1.session
  | closing connection e => exact h.1.session

theorem Result.Fits.calmer {g g' : Gateway} {found : Result} (h : found.Fits g)
    (hg : g.Calmer g') : found.Fits g' := by
  cases found with
  | ok ds => exact Gateway.Bound.calmer h hg
  | error e => exact ⟨h.1.calmer hg, h.2⟩

variable {m : Moment} {g : Gateway}

theorem fail_ends {e : Fault} (hs : g.session = none) (hq : g.Quiet) (he : e ≠ .busy) :
    (fail g e).Ends (fun g' stage => g.Kept g' ∧ stage.Fits g')
      fun g' found => g.Kept g' ∧ found.Fits g' := by
  have hk : g.Kept { g with peerLink := .disconnected } := ⟨rfl, id⟩
  have hf : ({ g with peerLink := .disconnected } : Gateway).Free := ⟨hs, rfl, hq⟩
  unfold fail
  dsimp only
  split_ifs with h
  · exact ⟨hk, hf, he⟩
  · exact ⟨hk, hf, he⟩

/-- Where the radio is not in use an attempt gets under way. -/
theorem begin_ends {peer : Peer} (hf : g.Free) (hs : g.scanning = false) :
    (begin m g peer).Ends (fun g' stage => g.Kept g' ∧ stage.Fits g') fun _ _ => False := by
  have hu : g.radioInUse = false := by simp [Gateway.radioInUse, hs, hf.link]
  have hk : g.Kept { g with peerLink := .connecting } := ⟨rfl, id⟩
  have hp : ({ g with peerLink := .connecting } : Gateway).Passing .connecting :=
    ⟨hf.session, rfl, hf.quiet⟩
  simp only [begin, hu, Bool.false_eq_true, if_false]
  split_ifs with h
  · exact ⟨hk, hp, h⟩
  · exact ⟨hk, hp⟩

theorem resume_ends {stage : Stage} {w : Wake} (h : stage.Fits g) :
    (resume m g stage w).Ends (fun g' stage => g.Kept g' ∧ stage.Fits g')
      fun g' found => g.Kept g' ∧ found.Fits g' := by
  cases w with
  | signal => cases stage <;> exact ⟨.refl g, h⟩
  | timeout =>
    cases stage with
    | calling peer deadline => exact fail_ends h.1.session h.1.quiet (by simp)
    | _ => exact ⟨.refl g, h⟩
  | reply r =>
    cases stage with
    | poweringUp peer =>
      simp only [resume]
      split
      · exact ⟨⟨rfl, id⟩, ⟨h.session, h.link, h.quiet⟩, rfl⟩
      · exact fail_ends h.session h.quiet (by simp)
    | calling peer deadline =>
      simp only [resume]
      split
      · exact ⟨.refl g, h⟩
      · exact fail_ends h.1.session h.1.quiet (by simp)
    | discovering connection =>
      simp only [resume]
      split
      · exact ⟨⟨rfl, id⟩, rfl, rfl, h.2⟩
      · exact ⟨.refl g, h⟩
    | closing connection e => exact fail_ends h.1.session h.1.quiet (by simp)
    | poweringDown e =>
      simp only [resume]
      split
      · exact ⟨⟨rfl, id⟩, ⟨h.1.session, h.1.link, h.1.quiet⟩, h.2⟩
      · exact ⟨.refl g, h⟩

/-! ## The session and the slots -/

theorem fail_bond {e : Fault} :
    (fail g e).Ends (fun g' _ => g'.session = g.session ∧ g'.slots = g.slots)
      fun g' _ => g'.session = g.session ∧ g'.slots = g.slots := by
  unfold fail
  dsimp only
  split_ifs
  · exact ⟨rfl, rfl⟩
  · exact ⟨rfl, rfl⟩

/-- An attempt that is not refused begins with the link not in use. -/
theorem begin_bond {peer : Peer} :
    (begin m g peer).Ends
      (fun g' _ => g' = { g with peerLink := .connecting } ∧ g.peerLink = .disconnected)
      fun g' found => g' = g ∧ found = .error .busy := by
  unfold begin
  by_cases hu : g.radioInUse = true
  · rw [if_pos hu]
    exact ⟨rfl, rfl⟩
  · have hl : g.peerLink = .disconnected := by
      by_contra hl
      exact hu (by simp [Gateway.radioInUse, hl])
    rw [if_neg hu]
    dsimp only
    split_ifs
    · exact ⟨rfl, hl⟩
    · exact ⟨rfl, hl⟩

/-- An attempt touches no slot, and stores a session only as it connects the link. -/
theorem resume_bond {stage : Stage} {w : Wake} :
    (resume m g stage w).Ends (fun g' _ => g'.session = g.session ∧ g'.slots = g.slots)
      fun g' _ => (g'.session = g.session ∨ g'.peerLink = .connected) ∧ g'.slots = g.slots := by
  have fails {e : Fault} :
      (fail g e).Ends (fun g' _ => g'.session = g.session ∧ g'.slots = g.slots)
        fun g' _ => (g'.session = g.session ∨ g'.peerLink = .connected) ∧ g'.slots = g.slots :=
    fail_bond.imp (fun _ _ h => h) fun _ _ h => ⟨.inl h.1, h.2⟩
  unfold resume
  split
  · split
    · exact ⟨rfl, rfl⟩
    · exact fails
  · split
    · exact ⟨rfl, rfl⟩
    · exact fails
  · exact fails
  · split
    · exact ⟨.inr rfl, rfl⟩
    · exact ⟨rfl, rfl⟩
  · exact fails
  · split
    · exact ⟨.inl rfl, rfl⟩
    · exact ⟨.inl rfl, rfl⟩
  · exact ⟨rfl, rfl⟩

/-! ## Events -/

theorem fail_events {e : Fault} : (fail g e).events = [] := by
  unfold fail
  dsimp only
  split_ifs <;> rfl

theorem begin_events {peer : Peer} : (begin m g peer).events = [] := by
  unfold begin
  dsimp only
  split_ifs <;> rfl

/-- An attempt tells nothing. -/
theorem resume_events {stage : Stage} {w : Wake} : (resume m g stage w).events = [] := by
  unfold resume
  split
  · split
    · rfl
    · exact fail_events
  · split
    · rfl
    · exact fail_events
  · exact fail_events
  · split <;> rfl
  · exact fail_events
  · split <;> rfl
  · rfl

end GattGateway.Dial
