import GattGateway.Proofs.Bystanders
import GattGateway.Proofs.System

/-!
# Handshakes with the broker

A handshake subscribes the topics of commands one after the other. What it says of the readiness
rests on the subscriptions that the broker has confirmed before.
-/
namespace GattGateway

open Segment

/-! ## Topics -/

theorem Topics.fits_of_short (t : Topics) {name : TopicName}
    (h : name.path.utf8ByteSize ≤ maxTopicBytes - maxBaseBytes) :
    (t.base ++ name.path).utf8ByteSize ≤ maxTopicBytes := by
  have := t.fits
  rw [String.utf8ByteSize_append]
  simp only [maxTopicBytes, maxBaseBytes] at *
  omega

/-- A short name gives a topic. -/
theorem Topics.topic_eq_ok (t : Topics) {name : TopicName}
    (h : name.path.utf8ByteSize ≤ maxTopicBytes - maxBaseBytes) :
    ∃ topic, t.topic name = .ok topic :=
  ⟨⟨_, t.fits_of_short h⟩, by simp only [topic, Topic.ofText?, dif_pos (t.fits_of_short h)]⟩

/-- The topics that a gateway has to be subscribed to if it is ready. -/
def Gateway.needed (g : Gateway) : List TopicName :=
  [.connect, .disconnect] ++ if g.valueTopics then [.writeFilter, .readFilter] else []

theorem Gateway.mem_needed {g : Gateway} {name : TopicName} : name ∈ g.needed ↔
    name = .connect ∨ name = .disconnect ∨
      g.valueTopics = true ∧ (name = .writeFilter ∨ name = .readFilter) := by
  unfold needed
  split_ifs with h <;> simp [h]

namespace Greeting

/-- What has been subscribed before a stage of a handshake. -/
def Stage.done : Stage → List TopicName
  | .subscribing .disconnect _ => [.connect]
  | .subscribing .writeFilter _ => [.connect, .disconnect]
  | .subscribing .readFilter _ => [.connect, .disconnect, .writeFilter]
  | _ => []

/-- A handshake subscribes the topics of commands only, each by its own name. -/
def Stage.Named (topics : Topics) : Stage → Prop
  | .subscribing name topic => topics.topic name = .ok topic ∧
      name ∈ [TopicName.connect, .disconnect, .writeFilter, .readFilter]
  | .announcing _ => True

/-- What a handshake rests on, where some topics have been confirmed. -/
structure Stage.Rests (topics : Topics) (confirmed : TopicName → Prop) (stage : Stage) : Prop where
  named : stage.Named topics
  done : ∀ name ∈ stage.done, confirmed name

/-- The readiness has been turned on only with all topics confirmed that the gateway needs. -/
def Vouches (confirmed : TopicName → Prop) (g g' : Gateway) : Prop :=
  g'.ready = true → g.ready = true ∨ ∀ name ∈ g'.needed, confirmed name

variable {m : Moment} {g : Gateway} {confirmed : TopicName → Prop}

theorem subscribeTo_rests {name : TopicName}
    (hn : name ∈ [TopicName.connect, .disconnect, .writeFilter, .readFilter])
    (hd : ∀ topic, ∀ before ∈ (Stage.subscribing name topic).done, confirmed before) :
    (subscribeTo m g name).Ends
      (fun g' stage => Vouches confirmed g g' ∧ stage.Rests m.topics confirmed)
      fun g' _ => Vouches confirmed g g' := by
  unfold subscribeTo
  split
  · rename_i topic htopic
    exact ⟨.inl, ⟨htopic, hn⟩, hd topic⟩
  · exact .inl

theorem announce_rests (hd : ∀ name ∈ g.needed, confirmed name) :
    (announce m g).Ends
      (fun g' stage => Vouches confirmed g g' ∧ stage.Rests m.topics confirmed)
      fun g' _ => Vouches confirmed g g' := by
  unfold announce
  dsimp only
  split
  · exact ⟨fun _ => .inr hd, trivial, nofun⟩
  · exact fun _ => .inr hd

/-- After the subscription of a topic has been confirmed. -/
theorem proceed_rests {name : TopicName} {topic : Topic}
    (h : (Stage.subscribing name topic).Rests m.topics confirmed) (hc : confirmed name) :
    (proceed m g name).Ends
      (fun g' stage => Vouches confirmed g g' ∧ stage.Rests m.topics confirmed)
      fun g' _ => Vouches confirmed g g' := by
  have hdone := h.done
  cases name with
  | connect => exact subscribeTo_rests (by simp) (by simp [Stage.done, hc])
  | disconnect =>
    simp only [proceed]
    split_ifs with hv
    · exact subscribeTo_rests (by simp) (by simp_all [Stage.done])
    · exact announce_rests (by simp_all [Stage.done, Gateway.needed])
  | writeFilter => exact subscribeTo_rests (by simp) (by simp_all [Stage.done])
  | readFilter =>
    refine announce_rests ?_
    simp only [Gateway.needed]
    split_ifs <;> simp_all [Stage.done]
  | _ =>
    have := h.named.2
    simp at this

/-- A handshake begins with the readiness turned off. -/
theorem begin_eq (m : Moment) (g : Gateway) : ∃ topic,
    m.topics.topic .connect = .ok topic ∧
      begin m g = .wait { g with ready := false } (.subscribing .connect topic) := by
  have hfits : TopicName.connect.path.utf8ByteSize ≤ maxTopicBytes - maxBaseBytes := by decide
  obtain ⟨topic, ht⟩ := m.topics.topic_eq_ok hfits
  exact ⟨topic, ht, by simp [begin, subscribeTo, ht]⟩

/-- Every wait of a handshake leads on with all confirmed that the next stage rests on, if a
confirmed subscription is confirmed from then on. -/
theorem resume_rests {stage : Stage} {w : Wake} (h : stage.Rests m.topics confirmed)
    (hc : ∀ name topic r, stage = .subscribing name topic → w = .reply r → r.link = .ok () →
      confirmed name) :
    (resume m g stage w).Ends
      (fun g' stage' => Vouches confirmed g g' ∧ stage'.Rests m.topics confirmed)
      fun g' _ => Vouches confirmed g g' := by
  cases stage with
  | subscribing name topic =>
    cases w with
    | reply r =>
      simp only [resume]
      split
      · exact proceed_rests h (hc name topic r rfl rfl ‹_›)
      · exact .inl
    | signal => exact ⟨.inl, h⟩
    | timeout => exact ⟨.inl, h⟩
  | announcing message =>
    cases w with
    | reply r =>
      simp only [resume]
      split
      · exact .inl
      · exact .inl
    | signal => exact ⟨.inl, h⟩
    | timeout => exact ⟨.inl, h⟩

end Greeting

end GattGateway
