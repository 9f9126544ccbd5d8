import GattGateway.Gateway.Recovery
import GattGateway.Proofs.Segment
import Mathlib.Tactic.Common

/-!
# What a recovery comes to

A recovery changes nothing but the readiness, and it turns it on only where the broker link is up.
-/
namespace GattGateway.Recovery

open Segment

/-- Nothing but the readiness has changed, and it has not been turned on without a link. -/
structure Kept (m : Moment) (g g' : Gateway) : Prop where
  rest : g' = { g with ready := g'.ready }
  ready : g'.ready = true → g.ready = true ∨ m.online = true

variable {m : Moment} {g : Gateway}

theorem Kept.refl (g : Gateway) : Kept m g g := ⟨rfl, .inl⟩

theorem poll_ends {n : Nat} :
    (poll m g n).Ends (fun g' _ => Kept m g g') fun g' _ => Kept m g g' := by
  cases n with
  | zero => exact Kept.refl g
  | succ n =>
    unfold poll
    split_ifs with ho
    · exact Kept.refl g
    · exact ⟨rfl, fun _ => .inr ho⟩
    · exact Kept.refl g

theorem begin_ends : (begin m g).Ends (fun g' _ => Kept m g g') fun g' _ => Kept m g g' := poll_ends

theorem resume_ends {stage : Stage} {w : Wake} :
    (resume m g stage w).Ends (fun g' _ => Kept m g g') fun g' _ => Kept m g g' := by
  cases w with
  | timeout => exact poll_ends
  | signal => exact Kept.refl g
  | reply r => exact Kept.refl g

theorem poll_events {n : Nat} : (poll m g n).events = [] := by
  cases n with
  | zero => rfl
  | succ n =>
    unfold poll
    split_ifs <;> rfl

/-- A recovery tells nothing. -/
theorem resume_events {stage : Stage} {w : Wake} : (resume m g stage w).events = [] := by
  cases w with
  | timeout => exact poll_events
  | signal => rfl
  | reply r => rfl

end GattGateway.Recovery
