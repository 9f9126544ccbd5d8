import GattGateway.Gateway.Forwarding
import GattGateway.Gateway.Startup
import GattGateway.Proofs.Bond
import GattGateway.Proofs.Segment

/-!
# What workers and greetings leave alone

A worker changes nothing but its slot, and only for the calmer. A greeting changes nothing but the
readiness.
-/
namespace GattGateway

open Segment

variable {m : Moment} {g g' : Gateway}

namespace Forwarding

/-- Nothing but slots has changed, for the calmer. -/
structure Kept (g g' : Gateway) : Prop where
  rest : g' = { g with slots := g'.slots }
  calmer : g.Calmer g'

variable {w : Worker}

theorem Kept.refl (g : Gateway) : Kept g g := ⟨rfl, .of_slots_eq rfl rfl rfl rfl⟩

theorem Kept.setSlot {s : Slot}
    (h : s.isForwarding = true → (g.slot w).isForwarding = true ∧ s.stopped = (g.slot w).stopped) :
    Kept g (g.setSlot w s) :=
  ⟨rfl, .setSlot h⟩

theorem Kept.trans {g'' : Gateway} (h : Kept g g') (h' : Kept g' g'') : Kept g g'' where
  rest := by rw [h'.rest, h.rest]
  calmer := h.calmer.trans h'.calmer

theorem Kept.undisturbed (h : Kept g g') : g.Undisturbed g' :=
  ⟨h.calmer, by rw [h.rest], by rw [h.rest], by rw [h.rest]⟩

theorem release_leads : (release g w).Leads fun g' _ _ => Kept g g' :=
  Kept.setSlot fun hf => nomatch hf

theorem stop_leads : (stop g w).Leads fun g' _ _ => Kept g g' := by
  have hk : Kept g (g.setSlot w { g.slot w with cancelled := false }) :=
    .setSlot fun hf => ⟨hf, rfl⟩
  exact release_leads.imp fun _ _ _ h => hk.trans h

theorem serve_leads {sub : Subscription} : (serve m g w sub).Leads fun g' _ _ => Kept g g' := by
  unfold serve
  split_ifs
  · exact Kept.refl g
  · exact release_leads

theorem deliver_leads {sub : Subscription} {value : Text.Bytes} {outlet : Outlet} :
    (deliver m g w sub value outlet).Leads fun g' _ _ => Kept g g' := by
  cases outlet with
  | broker =>
    simp only [deliver, leads_telling]
    split
    · exact Kept.refl g
    · exact serve_leads
  | receiver => exact Kept.refl g

theorem resume_leads {outlet : Outlet} {stage : Stage} {wake : Wake} :
    (resume m g w outlet stage wake).Leads fun g' _ _ => Kept g g' := by
  unfold resume
  split
  · split
    · exact Kept.setSlot fun hf => ⟨hf, rfl⟩
    · exact Kept.refl g
  · exact stop_leads
  · split
    · exact serve_leads
    · exact release_leads
  · exact stop_leads
  · exact serve_leads
  · split
    · exact serve_leads
    · exact deliver_leads
    · exact release_leads
  · exact serve_leads
  · exact Kept.refl g

end Forwarding

namespace Greeting

/-- Nothing but the readiness has changed. -/
def Kept (g g' : Gateway) : Prop := g' = { g with ready := g'.ready }

theorem Kept.undisturbed (h : Kept g g') : g.Undisturbed g' :=
  ⟨.of_slots_eq (by rw [h]) (by rw [h]) (by rw [h]) (by rw [h]), by rw [h], by rw [h], by rw [h]⟩

theorem subscribeTo_ends {name : TopicName} :
    (subscribeTo m g name).Ends (fun g' _ => g' = g) fun g' _ => g' = g := by
  unfold subscribeTo
  split
  · exact rfl
  · exact rfl

theorem announce_ends : (announce m g).Ends (fun g' _ => Kept g g') fun g' _ => Kept g g' := by
  unfold announce
  dsimp only
  split
  · exact rfl
  · exact rfl

theorem proceed_ends {name : TopicName} :
    (proceed m g name).Ends (fun g' _ => Kept g g') fun g' _ => Kept g g' := by
  have hsub {name : TopicName} :
      (subscribeTo m g name).Ends (fun g' _ => Kept g g') fun g' _ => Kept g g' :=
    subscribeTo_ends.imp (fun _ _ h => h ▸ rfl) fun _ _ h => h ▸ rfl
  unfold proceed
  split
  · exact hsub
  · split_ifs
    · exact hsub
    · exact announce_ends
  · exact hsub
  · exact announce_ends

theorem begin_ends : (begin m g).Ends (fun g' _ => Kept g g') fun g' _ => Kept g g' :=
  subscribeTo_ends.imp (fun _ _ h => h ▸ rfl) fun _ _ h => h ▸ rfl

theorem resume_ends {stage : Stage} {w : Wake} :
    (resume m g stage w).Ends (fun g' _ => Kept g g') fun g' _ => Kept g g' := by
  unfold resume
  split
  · split
    · exact proceed_ends
    · exact rfl
  · split
    · exact rfl
    · exact rfl
  · exact rfl

end Greeting

namespace Startup

theorem settle_ends {s : Segment Greeting.Stage Greeting.Result}
    (h : s.Ends (fun g' _ => Greeting.Kept g g') fun g' _ => Greeting.Kept g g') :
    (settle m s).Ends (fun g' _ => Greeting.Kept g g') fun g' _ => Greeting.Kept g g' :=
  h.andThen (fun _ _ h => h) fun g' result h => by cases result <;> exact h

theorem resume_ends {stage : Stage} {w : Wake} :
    (resume m g stage w).Ends (fun g' _ => Greeting.Kept g g') fun g' _ => Greeting.Kept g g' := by
  unfold resume
  split
  · exact rfl
  · split
    · exact settle_ends Greeting.begin_ends
    · exact rfl
  · exact settle_ends Greeting.resume_ends
  · exact rfl
  · exact rfl

end Startup

end GattGateway
