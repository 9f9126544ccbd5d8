import GattGateway.Proofs.Access
import GattGateway.Proofs.Handshake

/-!
# The script of a handshake

A handshake subscribes the topics of commands and, where they are marked, those of values, and
announces the gateway after the last of them. Each confirmation leads to the next call of this
script, and the first failure ends the handshake.
-/
namespace GattGateway

/-- The call that subscribes a topic. -/
def Topics.subscription (t : Topics) (name : TopicName) : Call :=
  .subscribe ⟨t.base ++ name.path, t.fits_path name⟩

namespace Greeting

/-- What a handshake subscribes, in this order. -/
def names (values : Bool) : List TopicName :=
  [.connect, .disconnect] ++ if values then [.writeFilter, .readFilter] else []

/-- The message by which the gateway announces itself. -/
def announcement (t : Topics) : Message :=
  { t.note .status online with delivery := .atLeastOnce, retain := true }

/-- The calls of a handshake that nothing stops. -/
def script (t : Topics) (values : Bool) : List Call :=
  (names values).map t.subscription ++ [.publish (announcement t)]

/-- The stages in which these calls are made. -/
def stages (t : Topics) (values : Bool) : List Stage :=
  (names values).map (fun name => .subscribing name ⟨t.base ++ name.path, t.fits_path name⟩) ++
    [.announcing (announcement t)]

/-- What a handshake comes to once some of its calls have been confirmed. -/
def turnAfter (t : Topics) (values : Bool) (confirmed : Nat) : Turn Stage Result :=
  match (stages t values)[confirmed]? with
  | some stage => .wait stage
  | none => .finish (.ok ())

variable {m : Moment} {g : Gateway} {t : Topics} {values : Bool} {n : Nat} {stage : Stage}

theorem map_call?_stages (t : Topics) (values : Bool) :
    (stages t values).map Stage.call? = (script t values).map some := by
  simp only [stages, script, List.map_append, List.map_map]
  rfl

theorem length_stages (t : Topics) (values : Bool) :
    (stages t values).length = (names values).length + 1 := by
  simp [stages]

theorem length_script (t : Topics) (values : Bool) :
    (script t values).length = (names values).length + 1 := by
  simp [script]

/-- Each stage makes the call of the script that stands at its place. -/
theorem call?_of_stages {call : Call} (h : (stages t values)[n]? = some stage)
    (called : stage.call? = some call) : (script t values)[n]? = some call := by
  have same : ((stages t values).map Stage.call?)[n]? = ((script t values).map some)[n]? := by
    rw [map_call?_stages]
  simp only [List.getElem?_map, h, Option.map_some, called] at same
  obtain ⟨_, made, he⟩ := Option.map_eq_some_iff.1 same.symm
  cases he
  exact made

theorem turnAfter_eq_wait : turnAfter t values n = .wait stage ↔
    (stages t values)[n]? = some stage := by
  unfold turnAfter
  split <;> simp_all

theorem turnAfter_eq_finish {result : Result} : turnAfter t values n = .finish result ↔
    result = .ok () ∧ (script t values).length ≤ n := by
  unfold turnAfter
  rw [length_script, ← length_stages t values]
  split
  · rename_i h
    have bound := (List.getElem?_eq_some_iff.1 h).1
    simp
    omega
  · rename_i h
    have bound := List.getElem?_eq_none_iff.1 h
    simp [bound, eq_comm]

/-- The announcement is the last call of a script, and the only message in it. -/
theorem publish_iff {message : Message} : (script t values)[n]? = some (.publish message) ↔
    n = (names values).length ∧ message = announcement t := by
  constructor
  · intro h
    obtain ⟨bound, made⟩ := List.getElem?_eq_some_iff.1 h
    rw [length_script] at bound
    by_cases early : n < (names values).length
    · simp [script, List.getElem_append_left, early, Topics.subscription] at made
    · obtain rfl : n = (names values).length := by omega
      simpa [script, eq_comm] using made
  · rintro ⟨rfl, rfl⟩
    simp [script]

/-! ## One segment -/

theorem subscribeTo_eq (m : Moment) (g : Gateway) (name : TopicName) : subscribeTo m g name =
    .wait g (.subscribing name ⟨m.topics.base ++ name.path, m.topics.fits_path name⟩) := by
  simp only [subscribeTo, m.topics.topic_eq]

theorem announce_eq (m : Moment) (g : Gateway) :
    announce m g = .wait { g with ready := true } (.announcing (announcement m.topics)) := by
  simp only [announce, m.topics.topic_eq]
  rfl

/-- A handshake begins with its first call. -/
theorem begin_turn (m : Moment) (g : Gateway) (values : Bool) :
    (begin m g).turn = turnAfter m.topics values 0 := by
  simp only [begin, subscribeTo_eq]
  rfl

/-- A confirmation leads to the next call of the script. The readiness is turned on with the one of
the last subscription. -/
theorem resume_confirmed {r : Reply} (at_place : (stages m.topics values)[n]? = some stage)
    (marked : n = 1 → g.valueTopics = values) (confirms : r.link = .ok ()) :
    resume m g stage (.reply r) =
      { gateway := { g with ready := g.ready || n + 1 == (names values).length }
        turn := turnAfter m.topics values (n + 1) } := by
  cases values with
  | false =>
    rcases n with _ | _ | _ | n
    · cases at_place
      simp [resume, confirms, proceed, subscribeTo_eq, turnAfter, stages, names, Segment.wait]
    · cases at_place
      have unmarked : ¬g.valueTopics = true := by simp [marked]
      simp only [resume, confirms, proceed, if_neg unmarked, announce_eq]
      simp [turnAfter, stages, names, Segment.wait]
    · cases at_place
      simp [resume, confirms, turnAfter, stages, names, Segment.finish]
    · cases at_place
  | true =>
    rcases n with _ | _ | _ | _ | _ | n
    · cases at_place
      simp [resume, confirms, proceed, subscribeTo_eq, turnAfter, stages, names, Segment.wait]
    · cases at_place
      have marks : g.valueTopics = true := marked rfl
      simp only [resume, confirms, proceed, if_pos marks, subscribeTo_eq]
      simp [turnAfter, stages, names, Segment.wait]
    · cases at_place
      simp [resume, confirms, proceed, subscribeTo_eq, turnAfter, stages, names, Segment.wait]
    · cases at_place
      simp [resume, confirms, proceed, announce_eq, turnAfter, stages, names, Segment.wait]
    · cases at_place
      simp [resume, confirms, turnAfter, stages, names, Segment.finish]
    · cases at_place

/-- The first failure ends a handshake, and leaves the readiness as it is. -/
theorem resume_refused {r : Reply} {e : LinkFault} (refuses : r.link = .error e) :
    resume m g stage (.reply r) = .finish g (.error (.link e)) := by
  cases stage <;> simp [resume, refuses]

end Greeting

end GattGateway
