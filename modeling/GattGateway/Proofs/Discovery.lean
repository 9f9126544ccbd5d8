import GattGateway.Proofs.Connections
import GattGateway.Proofs.Grouping
import GattGateway.Proofs.Identifiers

/-!
# What a session reaches

A session is made of the characteristics that the radio discovered last. An identifier reaches the
last of those that stand for its number, however the radio reported them.
-/
namespace GattGateway

open Segment

/-- The characteristics of a connection, if the wait for a call ends with them. -/
def Wake.discovered? (w : Wake) (call? : Option Call) :
    Option (Connection × List Characteristic) :=
  match call?, w with
  | some (.discover c), .reply r => r.discovered.toOption.map (c, ·)
  | _, _ => none

/-- The session after a segment: the one just discovered, else the one before, unless it has been
given up. -/
def Renews (found? : Option (Connection × List Characteristic)) (g g' : Gateway) : Prop :=
  g'.session = none ∨
    g'.session = (found?.map fun (c, cs) => Session.ofDiscovery c cs).or g.session

section

variable {found? : Option (Connection × List Characteristic)} {m : Moment} {w : Wake}
  {g g' : Gateway} {e e' : Option Engagement}

theorem Renews.of_eq (h : g'.session = g.session) : Renews none g g' := .inr h

theorem Resting.discovered? (h : Resting e) : w.discovered? (e.bind (·.call?)) = none := by
  rcases h with rfl | rfl <;> rfl

theorem Teardown.discovered? (s : Stage) : w.discovered? s.call? = none := by
  cases s <;> rfl

theorem Teardown.Stops.renews {first : Nat} {next : Option Stage} (h : Stops g first g' next) :
    Renews none g g' := by
  cases h with
  | stops forwarding before => exact .of_eq rfl
  | hangsUp session quiet => exact .inl rfl
  | releases session last => exact .of_eq rfl

theorem Teardown.Resumes.renews {s : Stage} {next : Option Stage} (h : Resumes g s w g' next) :
    Renews none g g' := by
  cases h with
  | waits unanswered => exact .of_eq rfl
  | stopped rest => exact rest.renews
  | late rest => exact rest.renews
  | hungUp last => exact .of_eq rfl
  | off powered => exact .of_eq rfl

/-- An attempt stores a session when the characteristics have been discovered. -/
theorem Dial.resume_renews {s : Stage} :
    Renews (w.discovered? s.call?) g (resume m g s w).gateway := by
  have fails {fault : Fault} : Renews none g (fail g fault).gateway :=
    .of_eq (fail_bond.imp (fun _ _ h => h.1) fun _ _ h => h.1).gateway
  cases w with
  | signal => cases s <;> exact .of_eq rfl
  | timeout =>
    cases s with
    | calling peer deadline => exact fails
    | _ => exact .of_eq rfl
  | reply r =>
    cases s with
    | poweringUp peer =>
      simp only [resume]
      split
      · exact .of_eq rfl
      · exact fails
    | calling peer deadline =>
      simp only [resume]
      split
      · exact .of_eq rfl
      · exact fails
    | discovering connection =>
      cases hr : r.discovered with
      | ok cs => exact .inr (by simp [Wake.discovered?, Stage.call?, resume, finish, hr,
          Except.toOption])
      | error fault => exact .inr (by simp [Wake.discovered?, Stage.call?, resume, wait, hr,
          Except.toOption])
    | closing connection fault => exact fails
    | poweringDown fault =>
      simp only [resume]
      split
      · exact .of_eq rfl
      · exact .of_eq rfl

/-- Whatever a strand does, the session is the one just discovered or the one before. -/
theorem Acts.renews (h : Acts m w g e g' e') : Renews (w.discovered? (e.bind (·.call?))) g g' := by
  induction h with
  | aside rests h =>
    rw [rests.discovered?]
    exact .of_eq h.session
  | opens peer rests =>
    rw [rests.discovered?]
    exact .of_eq (Dial.begin_bond.imp (fun _ _ h => congrArg Gateway.session h.1)
      fun _ _ h => congrArg Gateway.session h.1).gateway
  | opensOn s woken => exact Dial.resume_renews
  | closes rests =>
    rw [rests.discovered?]
    exact Teardown.stopFrom_stops.renews
  | closesOn s woken =>
    have nothing := Teardown.discovered? (w := w) s
    rw [Option.bind_some, Engagement.call?, nothing]
    exact Teardown.resume_resumes.renews
  | forwards forwarded =>
    obtain ⟨worker, sub, -, rfl⟩ := Gateway.forward?_eq_some forwarded
    exact .of_eq rfl
  | retires => exact .of_eq rfl
  | seq first rests rest ih₁ ih₂ =>
    rw [rests.discovered?] at ih₂
    rcases ih₂ with none | same
    · exact .inl none
    · rw [Option.map_none, Option.none_or] at same
      rcases ih₁ with none | renewed
      · exact .inl (same.trans none)
      · exact .inr (same.trans renewed)

theorem Serving.Stage.discovered?_engagement (stage : Stage) :
    w.discovered? (stage.engagement?.bind (·.call?)) = w.discovered? stage.call? := by
  cases stage <;> rfl

end

/-! ## Every state of a run -/

/-- The characteristics that the radio discovers in a step. -/
def Step.discovered? (setup : Setup) (t : Step) : Option (Connection × List Characteristic) :=
  t.move.wake?.bind (·.discovered? ((t.move.strand? t.before).bind (·.call? setup)))

variable {setup : Setup} {past : List Step} {s s' : System} {m : Move} {told : List Event}

theorem System.Coherent.renews (h : s.Coherent) (hp : s.Publishes)
    (hm : Moved setup s m s' told) :
    Renews (Step.discovered? setup ⟨s, m, told, s'⟩) s.gateway s'.gateway := by
  by_cases hs : ∃ w, m = .serving w
  · obtain ⟨w, rfl⟩ := hs
    cases hm with
    | serving up woken ran =>
      subst ran
      have reaches := Serving.resume_reaches
        (m := (s.answered s.serving.call? w).moment setup) (woken_of_wakes woken)
      have discovers := Serving.Stage.discovered?_engagement (w := w) s.serving
      rcases reaches with acts | ⟨-, acts⟩
      · have renews := acts.renews
        rw [discovers] at renews
        exact renews
      · have renews := acts.renews
        rw [discovers] at renews
        exact renews
  · obtain ⟨-, session, -⟩ := (h.serving_or_idles hm).resolve_left hs
    have nothing : Step.discovered? setup ⟨s, m, told, s'⟩ = none := by
      by_contra hn
      obtain ⟨found, hc⟩ := Option.ne_none_iff_exists'.1 hn
      obtain ⟨w, hw, hc⟩ := Option.bind_eq_some_iff.1 hc
      unfold Wake.discovered? at hc
      split at hc
      · rename_i hcall
        exact hs (hp.serving_of_engages hcall rfl)
      · cases hc
    rw [nothing]
    exact .of_eq session

/-- The session is made of what was discovered last. -/
theorem Run.session_eq (h : Run setup past s) : s.gateway.session = none ∨
    s.gateway.session = (past.findSome? (·.discovered? setup)).map fun (c, cs) =>
      Session.ofDiscovery c cs := by
  induction h with
  | start online => exact .inl rfl
  | step run moved ih =>
    rcases run.coherent.renews run.publishes (System.moved_of_move? moved) with none | renewed
    · exact .inl none
    · rw [renewed, List.findSome?_cons]
      cases Step.discovered? setup _ with
      | some found => exact .inr rfl
      | none => exact ih

/-! ## The table of a session -/

/-- The characteristic that an identifier reaches: the last one discovered that stands for the same
number. -/
def reached? (cs : List Characteristic) (u : CanonicalUuid) : Option Characteristic :=
  (cs.filter fun c => c.uuid.number = (Uuid.long u.bytes).number).getLast?

theorem merged_new {α : Type} (xs : List α) : merged (fun _ new => new) xs = xs.getLast? := by
  cases xs with
  | nil => rfl
  | cons x xs =>
    induction xs using List.reverseRecOn with
    | nil => rfl
    | append_singleton xs y ih => rw [← List.cons_append, List.getLast?_concat]; simp [merged]

theorem Session.find?_ofDiscovery (connection : Connection) (cs : List Characteristic)
    (u : CanonicalUuid) :
    (ofDiscovery connection cs).find? u = (reached? cs u).map TableEntry.ofCharacteristic := by
  have same (c : Characteristic) : decide ((TableEntry.ofCharacteristic c).uuid = u) =
      decide (c.uuid.number = (Uuid.long u.bytes).number) := by
    rw [decide_eq_decide, ← canonical_eq_iff]
    exact Iff.rfl
  rw [find?, ofDiscovery, find?_foldl_upsert (fun _ _ h => h.symm), merged_new, List.filter_map,
    List.getLast?_map, reached?]
  simp only [Function.comp_def, same]

theorem Gateway.lookup?_eq {g : Gateway} {connection : Connection} {cs : List Characteristic}
    (h : g.session = some (.ofDiscovery connection cs)) (u : CanonicalUuid) :
    g.lookup? u =
      (reached? cs u).map fun c => (connection, TableEntry.ofCharacteristic c) := by
  have found := Session.find?_ofDiscovery connection cs u
  have connected : (Session.ofDiscovery connection cs).connection = connection := rfl
  cases hc : reached? cs u <;> simp [lookup?, h, found, connected, hc]

end GattGateway
