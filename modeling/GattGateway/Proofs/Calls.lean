import GattGateway.Proofs.System

/-!
# Who makes which call

The calls that scan, dial, hang up or switch the radio, and those that read or write a value, come
from the two loops. Everything else on a running gateway calls the broker or asks for pushed values.
-/
namespace GattGateway

open Segment

/-- A call that starts or ends a use of the radio, or exchanges a value over a connection. -/
def Call.isRadioUse : Call → Bool
  | .powerOn => true
  | .powerOff => true
  | .scan _ => true
  | .stopScan => true
  | .dial _ => true
  | .discover _ => true
  | .read _ _ => true
  | .write _ _ _ => true
  | .hangUp _ => true
  | _ => false

namespace Forwarding

/-- A value on its way goes to the broker. -/
def Stage.Publishes : Stage → Prop
  | .delivering _ _ call => ∃ message, call = .publish message
  | _ => True

variable {m : Moment} {g : Gateway} {w : Worker}

theorem serve_publishes {sub : Subscription} :
    (serve m g w sub).Leads fun _ _ stage => stage.Publishes := by
  unfold serve
  split_ifs
  · exact trivial
  · exact trivial

theorem resume_publishes {stage : Stage} {wake : Wake} (h : stage.Publishes) :
    (resume m g w .broker stage wake).Leads fun _ _ stage => stage.Publishes := by
  unfold resume
  split
  · split
    · exact trivial
    · exact trivial
  · exact trivial
  · split
    · exact serve_publishes
    · exact trivial
  · exact trivial
  · exact serve_publishes
  · split
    · exact serve_publishes
    · simp only [deliver, leads_telling]
      split
      · exact ⟨_, rfl⟩
      · exact serve_publishes
    · exact trivial
  · exact serve_publishes
  · exact h

theorem Stage.Publishes.isRadioUse {stage : Stage} {c : Call} (h : stage.Publishes)
    (hc : stage.call? = some c) : c.isRadioUse = false := by
  cases stage with
  | idle => cases hc
  | enabling sub =>
    cases hc
    rfl
  | awaiting sub deadline =>
    cases hc
    rfl
  | delivering sub value call =>
    cases hc
    obtain ⟨message, rfl⟩ := h
    rfl

end Forwarding

theorem Greeting.isRadioUse {stage : Stage} {c : Call} (hc : stage.call? = some c) :
    c.isRadioUse = false := by
  cases stage <;> cases hc <;> rfl

theorem Startup.isRadioUse {stage : Stage} {c : Call} (hc : stage.call? = some c) :
    c.isRadioUse = false := by
  cases stage with
  | greeting s => exact Greeting.isRadioUse hc
  | joining =>
    cases hc
    rfl
  | _ => cases hc

namespace Teardown

theorem Stage.call?_ne_scan {stage : Stage} {parameters : ScanParameters} :
    stage.call? ≠ some (.scan parameters) := by
  cases stage <;> simp [Stage.call?]

end Teardown

namespace Dial

theorem Stage.call?_ne_scan {stage : Stage} {parameters : ScanParameters} :
    stage.call? ≠ some (.scan parameters) := by
  cases stage <;> simp [Stage.call?]

end Dial

theorem Serving.Stage.call?_ne_scan {stage : Stage} {parameters : ScanParameters} :
    stage.call? ≠ some (.scan parameters) := by
  cases stage with
  | clearing peer s => exact Teardown.Stage.call?_ne_scan
  | dialling peer s => exact Dial.Stage.call?_ne_scan
  | unwinding e s => exact Teardown.Stage.call?_ne_scan
  | leaving s => exact Teardown.Stage.call?_ne_scan
  | _ => simp [Stage.call?]

theorem Autoscan.Stage.call?_ne_dial {setup : Setup} {stage : Stage} {peer : Peer} :
    stage.call? setup ≠ some (.dial peer) := by
  cases stage with
  | sweeping s => cases s <;> simp [Stage.call?, Sweep.Stage.call?]
  | _ => simp [Stage.call?]

namespace System

variable {setup : Setup} {s s' : System} {m : Move} {told : List Event}

def Publishes (s : System) : Prop := ∀ i, (s.workers i).Publishes

theorem publishes_moved (h : s.Publishes) (hm : Moved setup s m s' told) : s'.Publishes := by
  cases hm with
  | @worker i w segment up woken ran =>
    subst ran
    intro j
    by_cases hj : j = i
    · subst j
      simp only [Function.update_self]
      exact Forwarding.resume_publishes (h i)
    · simpa [Function.update_of_ne hj] using h j
  | startup _ _ _ => simpa [Publishes] using h
  | serving _ _ _ => simpa [Publishes] using h
  | greeting _ _ _ => simpa [Publishes] using h
  | _ => exact h

end System

theorem Run.publishes {setup : Setup} {past : List Step} {s : System} (h : Run setup past s) :
    s.Publishes :=
  h.invariant (fun _ _ => trivial) System.publishes_moved

/-- The calls that use the radio come from the two loops. -/
theorem Run.mem_calls {setup : Setup} {past : List Step} {s : System} {c : Call}
    (h : Run setup past s) (hc : c.isRadioUse = true) :
    c ∈ s.calls setup ↔ s.autoscan.call? setup = some c ∨ s.serving.call? = some c := by
  have hp := h.publishes
  have aside {d : Call} (hd : d.isRadioUse = false) : d ≠ c := by
    rintro rfl
    simp [hc] at hd
  constructor
  · intro hmem
    obtain ⟨strand, hs, hcall⟩ := List.mem_filterMap.1 hmem
    simp only [System.strands, List.mem_append, List.mem_cons, List.mem_map] at hs
    rcases hs with (⟨stage, -, rfl⟩ | rfl | rfl | ⟨i, -, rfl⟩) | ⟨stage, -, rfl⟩
    · exact absurd rfl (aside (Startup.isRadioUse hcall))
    · exact .inl hcall
    · exact .inr hcall
    · exact absurd rfl (aside ((hp i).isRadioUse hcall))
    · exact absurd rfl (aside (Greeting.isRadioUse hcall))
  · rintro (hcall | hcall)
    · exact List.mem_filterMap.2 ⟨.autoscan s.autoscan, by simp [System.strands], hcall⟩
    · exact List.mem_filterMap.2 ⟨.serving s.serving, by simp [System.strands], hcall⟩

end GattGateway
