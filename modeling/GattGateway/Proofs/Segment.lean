import GattGateway.Gateway.Segment

/-!
# What holds where a segment ends

A segment either waits in a stage or finishes with a result. `Segment.Ends` states one property for
each of the two. A segment of a loop never finishes; `Segment.Leads` states what holds of its next
stage and of the events told on the way.
-/
namespace GattGateway

namespace Turn

variable {σ ρ : Type}

/-- The stage to wait in, unless the routine has finished. -/
def stage? : Turn σ ρ → Option σ
  | .wait stage => some stage
  | .finish _ => none

/-- The result of the routine, if it has finished. -/
def result? : Turn σ ρ → Option ρ
  | .wait _ => none
  | .finish result => some result

/-- The stage of a routine that never finishes. -/
def stage : Turn σ Empty → σ
  | .wait stage => stage

end Turn

namespace Segment

variable {σ ρ τ π : Type}

def Ends (P : Gateway → σ → Prop) (Q : Gateway → ρ → Prop) (s : Segment σ ρ) : Prop :=
  match s.turn with
  | .wait stage => P s.gateway stage
  | .finish result => Q s.gateway result

@[simp] theorem ends_wait {P : Gateway → σ → Prop} {Q : Gateway → ρ → Prop} {g : Gateway}
    {stage : σ} : (wait g stage : Segment σ ρ).Ends P Q ↔ P g stage := Iff.rfl

@[simp] theorem ends_finish {P : Gateway → σ → Prop} {Q : Gateway → ρ → Prop} {g : Gateway}
    {result : ρ} : (finish g result : Segment σ ρ).Ends P Q ↔ Q g result := Iff.rfl

@[simp] theorem ends_telling {P : Gateway → σ → Prop} {Q : Gateway → ρ → Prop} {e : Event}
    {s : Segment σ ρ} : (telling e s).Ends P Q ↔ s.Ends P Q := Iff.rfl

theorem ends_andThen {P : Gateway → τ → Prop} {Q : Gateway → π → Prop} {s : Segment σ ρ}
    {lift : σ → τ} {next : Gateway → ρ → Segment τ π} :
    (s.andThen lift next).Ends P Q ↔
      s.Ends (fun g stage => P g (lift stage)) fun g result => (next g result).Ends P Q := by
  rcases s with ⟨g, turn, events⟩
  cases turn <;> rfl

theorem Ends.imp {P P' : Gateway → σ → Prop} {Q Q' : Gateway → ρ → Prop} {s : Segment σ ρ}
    (h : s.Ends P Q) (hP : ∀ g stage, P g stage → P' g stage)
    (hQ : ∀ g result, Q g result → Q' g result) : s.Ends P' Q' := by
  rcases s with ⟨g, turn, events⟩
  cases turn with
  | wait stage => exact hP g stage h
  | finish result => exact hQ g result h

theorem Ends.and {P P' : Gateway → σ → Prop} {Q Q' : Gateway → ρ → Prop} {s : Segment σ ρ}
    (h : s.Ends P Q) (h' : s.Ends P' Q') :
    s.Ends (fun g stage => P g stage ∧ P' g stage) fun g result => Q g result ∧ Q' g result := by
  rcases s with ⟨g, turn, events⟩
  cases turn <;> exact ⟨h, h'⟩

theorem Ends.gateway {P : Gateway → Prop} {s : Segment σ ρ}
    (h : s.Ends (fun g _ => P g) fun g _ => P g) : P s.gateway := by
  rcases s with ⟨g, turn, events⟩
  cases turn <;> exact h

theorem ends_of_gateway {P : Gateway → Prop} {s : Segment σ ρ} (h : P s.gateway) :
    s.Ends (fun g _ => P g) fun g _ => P g := by
  rcases s with ⟨g, turn, events⟩
  cases turn <;> exact h

theorem ends_trivial (s : Segment σ ρ) : s.Ends (fun _ _ => True) fun _ _ => True := by
  rcases s with ⟨g, turn, events⟩
  cases turn <;> trivial

theorem Ends.of_finish {P : Gateway → σ → Prop} {Q : Gateway → ρ → Prop} {s : Segment σ ρ}
    (h : s.Ends P Q) {result : ρ} (ht : s.turn = .finish result) : Q s.gateway result := by
  rcases s with ⟨g, turn, events⟩
  cases ht
  exact h

/-- A segment inside a longer routine: what holds at its end carries over to the rest. -/
theorem Ends.andThen {P : Gateway → σ → Prop} {Q : Gateway → ρ → Prop}
    {P' : Gateway → τ → Prop} {Q' : Gateway → π → Prop} {s : Segment σ ρ} {lift : σ → τ}
    {next : Gateway → ρ → Segment τ π} (h : s.Ends P Q)
    (hP : ∀ g stage, P g stage → P' g (lift stage))
    (hQ : ∀ g result, Q g result → (next g result).Ends P' Q') :
    (s.andThen lift next).Ends P' Q' :=
  ends_andThen.2 (h.imp hP hQ)

/-! ## Segments of a loop -/

def Leads (P : Gateway → List Event → σ → Prop) (s : Segment σ Empty) : Prop :=
  P s.gateway s.events s.turn.stage

@[simp] theorem leads_wait {P : Gateway → List Event → σ → Prop} {g : Gateway} {stage : σ} :
    (wait g stage : Segment σ Empty).Leads P ↔ P g [] stage := Iff.rfl

@[simp] theorem leads_telling {P : Gateway → List Event → σ → Prop} {e : Event}
    {s : Segment σ Empty} :
    (telling e s).Leads P ↔ s.Leads fun g told stage => P g (e :: told) stage := Iff.rfl

theorem Leads.imp {P P' : Gateway → List Event → σ → Prop} {s : Segment σ Empty} (h : s.Leads P)
    (hP : ∀ g told stage, P g told stage → P' g told stage) : s.Leads P' :=
  hP _ _ _ h

/-- A routine that tells nothing inside a loop. -/
theorem Ends.leads {P : Gateway → σ → Prop} {Q : Gateway → ρ → Prop}
    {P' : Gateway → List Event → τ → Prop} {s : Segment σ ρ} {lift : σ → τ}
    {next : Gateway → ρ → Segment τ Empty} (h : s.Ends P Q) (silent : s.events = [])
    (hP : ∀ g stage, P g stage → P' g [] (lift stage))
    (hQ : ∀ g result, Q g result → (next g result).Leads P') :
    (s.andThen lift next).Leads P' := by
  rcases s with ⟨g, turn, events⟩
  cases silent
  cases turn with
  | wait stage => exact hP g stage h
  | finish result => exact hQ g result h

end Segment

end GattGateway
