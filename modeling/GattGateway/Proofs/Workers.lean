import GattGateway.Gateway.Forwarding
import GattGateway.Proofs.Bond
import GattGateway.Proofs.System

/-!
# What a worker does in one segment

A worker takes up the subscription handed to it, goes on with the one it serves, or comes to its end
and frees its slot. It begins to forward a value only where it has just been pushed and the worker
has not been told to stop.
-/
namespace GattGateway.Forwarding

open Segment

/-- The subscription that a worker serves. -/
def Stage.subscription? : Stage → Option Subscription
  | .idle => none
  | .enabling sub => some sub
  | .awaiting sub _ => some sub
  | .delivering sub _ _ => some sub

inductive Works (g : Gateway) (w : Worker) (stage : Stage) (g' : Gateway) (stage' : Stage) : Prop
  | takes {sub : Subscription} (rests : stage.subscription? = none)
      (assigned : (g.slot w).assigned = some sub)
      (slot : g' = g.setSlot w { g.slot w with assigned := none })
      (serves : stage'.subscription? = some sub)
  | goesOn (same : g' = g) (serves : stage'.subscription? = stage.subscription?)
  | exits {sub : Subscription} (cancelled : Bool) (serves : stage.subscription? = some sub)
      (slot : g' = g.setSlot w { (g.slot w).release with cancelled })
      (rests : stage'.subscription? = none)

variable {m : Moment} {g : Gateway} {w : Worker} {outlet : Outlet} {stage : Stage} {wake : Wake}
  {sub : Subscription}

theorem release_works (h : stage.subscription? = some sub) :
    (release g w).Leads fun g' _ stage' => Works g w stage g' stage' :=
  .exits (g.slot w).cancelled h rfl rfl

theorem stop_works (h : stage.subscription? = some sub) :
    (stop g w).Leads fun g' _ stage' => Works g w stage g' stage' := by
  apply Works.exits false h
  · simp [stop, release, Segment.wait, Slot.release]
  · rfl

theorem serve_works (h : stage.subscription? = some sub) :
    (serve m g w sub).Leads fun g' _ stage' => Works g w stage g' stage' := by
  unfold serve
  split_ifs
  · exact .goesOn rfl h.symm
  · exact release_works h

theorem deliver_works {value : Text.Bytes} (h : stage.subscription? = some sub) :
    (deliver m g w sub value outlet).Leads fun g' _ stage' => Works g w stage g' stage' := by
  cases outlet with
  | broker =>
    simp only [deliver, leads_telling]
    split
    · exact .goesOn rfl h.symm
    · exact serve_works h
  | receiver => exact .goesOn rfl h.symm

theorem resume_works :
    (resume m g w outlet stage wake).Leads fun g' _ stage' => Works g w stage g' stage' := by
  unfold resume
  split
  · split
    · rename_i h
      exact .takes rfl h rfl rfl
    · exact .goesOn rfl rfl
  · exact stop_works rfl
  · split
    · exact serve_works rfl
    · exact release_works rfl
  · exact stop_works rfl
  · exact serve_works rfl
  · split
    · exact serve_works rfl
    · exact deliver_works rfl
    · exact release_works rfl
  · exact serve_works rfl
  · exact .goesOn rfl rfl

/-! ## Forwarding a value -/

/-- A value begins to be forwarded: it is told of, or handed to the receiver. -/
def Forwards (uuid : CanonicalUuid) (value : Text.Bytes) (outlet : Outlet) (told : List Event)
    (stage : Stage) : Prop :=
  match outlet with
  | .broker => .notification uuid value ∈ told
  | .receiver => stage.call? = some (.handOver uuid value)

variable {uuid : CanonicalUuid} {value : Text.Bytes}

theorem wait_silent (h : stage.call? ≠ some (.handOver uuid value)) :
    (wait g stage : Step).Leads fun _ told stage' => ¬Forwards uuid value outlet told stage' := by
  cases outlet with
  | broker => exact List.not_mem_nil
  | receiver => exact h

theorem release_silent :
    (release g w).Leads fun _ told stage' => ¬Forwards uuid value outlet told stage' :=
  wait_silent nofun

theorem serve_silent :
    (serve m g w sub).Leads fun _ told stage' => ¬Forwards uuid value outlet told stage' := by
  unfold serve
  split_ifs
  · exact wait_silent nofun
  · exact release_silent

theorem deliver_forwards {pushed : Text.Bytes} :
    (deliver m g w sub pushed outlet).Leads fun _ told stage' =>
      Forwards uuid value outlet told stage' → sub.uuid = uuid := by
  cases outlet with
  | broker =>
    simp only [deliver, leads_telling]
    have told {events : List Event} (silent : .notification uuid value ∉ events)
        (h : .notification uuid value ∈ Event.notification sub.uuid pushed :: events) :
        sub.uuid = uuid := by
      rcases List.mem_cons.1 h with he | he
      · cases he
        rfl
      · exact absurd he silent
    split
    · exact told List.not_mem_nil
    · have silent : (serve m g w sub).Leads fun _ told stage' =>
          ¬Forwards uuid value .broker told stage' := serve_silent
      exact silent.imp fun _ _ _ hn => told hn
  | receiver =>
    intro h
    cases h
    rfl

/-- A worker that begins to forward a value has awaited it, and no word to stop has come. -/
theorem resume_forwards {now : Instant}
    (woken : wake.ends (stage.signalled g w) stage.call? stage.deadline? now = true) :
    (resume m g w outlet stage wake).Leads fun _ told stage' =>
      Forwards uuid value outlet told stage' →
        ∃ sub deadline, stage = .awaiting sub deadline ∧ sub.uuid = uuid ∧
          (g.slot w).cancelled = false := by
  have silent {s : Step}
      (h : s.Leads fun _ told stage' => ¬Forwards uuid value outlet told stage') :
      s.Leads fun _ told stage' => Forwards uuid value outlet told stage' →
        ∃ sub deadline, stage = .awaiting sub deadline ∧ sub.uuid = uuid ∧
          (g.slot w).cancelled = false :=
    h.imp fun _ _ _ hn hf => absurd hf hn
  cases stage with
  | idle =>
    apply silent
    cases wake with
    | signal =>
      simp only [resume]
      split
      · exact wait_silent nofun
      · exact wait_silent nofun
    | reply r => exact wait_silent nofun
    | timeout => exact wait_silent nofun
  | enabling sub =>
    apply silent
    cases wake with
    | signal => exact release_silent
    | reply r =>
      simp only [resume]
      split
      · exact serve_silent
      · exact release_silent
    | timeout => exact wait_silent nofun
  | awaiting sub deadline =>
    cases wake with
    | signal => exact silent release_silent
    | timeout => exact silent serve_silent
    | reply r =>
      have running : (g.slot w).cancelled = false := by
        simpa [Wake.ends, Stage.signalled, Stage.call?] using woken
      simp only [resume]
      split
      · exact silent serve_silent
      · exact deliver_forwards.imp fun _ _ _ hd hf => ⟨sub, deadline, rfl, hd hf, running⟩
      · exact silent release_silent
  | delivering sub pushed call =>
    cases wake with
    | reply r => exact silent serve_silent
    | signal => simp [Wake.ends, Stage.signalled] at woken
    | timeout => simp [Wake.ends, Stage.deadline?] at woken

end GattGateway.Forwarding
