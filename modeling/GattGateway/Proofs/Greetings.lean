import GattGateway.Proofs.Connections
import GattGateway.Proofs.Readiness
import GattGateway.Proofs.Script

/-!
# Handshakes within a run

A handshake runs in the startup, or beside the loops, perhaps with others. Once it has begun it
waits still or has returned, and it goes on whenever one of its calls has been answered. Whatever
else happens in the meantime, it makes the calls of its script in their order, and ends with the
first failure.
-/
namespace GattGateway

open Segment

/-! ## Places -/

/-- Where a handshake runs: in the startup, or at a place among those beside the loops. -/
inductive Place
  | startup
  | beside (i : Nat)
  deriving DecidableEq, Repr

namespace Place

/-- What wakes the handshake at a place in a move, if it is the one that goes on. -/
def wake? (m : Move) : Place → Option Wake
  | .startup =>
    match m with
    | .startup w => some w
    | _ => none
  | .beside i =>
    match m with
    | .greeting j w => if j = i then some w else none
    | _ => none

/-- The stage of the handshake at a place. -/
def stage? (s : System) : Place → Option Greeting.Stage
  | .startup => s.startup.bind Startup.Stage.handshake?
  | .beside i => s.greetings[i]?

/-- Where a handshake is found after a step of something else. When one of those before it returns,
it moves up. -/
def behind (t : Step) : Place → Place
  | .startup => .startup
  | .beside i =>
    match t.move with
    | .greeting j _ =>
      if j < i ∧ t.after.greetings.length < t.before.greetings.length then .beside (i - 1)
      else .beside i
    | _ => .beside i

end Place

/-- The place of the handshake that begins in a step. -/
def Step.begins? (t : Step) : Option Place :=
  match t.move with
  | .startup (.reply r) =>
    match t.before.startup, r.link with
    | some .joining, .ok _ => some .startup
    | _, _ => none
  | .greet => some (.beside t.before.greetings.length)
  | .rejoin => some (.beside t.before.greetings.length)
  | _ => none

/-! ## The course of a handshake -/

/-- A call that has been answered. -/
structure Exchange where
  call : Call
  reply : Reply
  /-- The topics of values were marked as subscribed when the answer came. -/
  marked : Bool
  deriving DecidableEq, Repr

/-- The steps since a handshake has begun, the latest first, where it is by now, the calls that have
been answered, again the latest first, and what it has come to. -/
inductive Handshake (setup : Setup) :
    List Step → Place → List Exchange → Turn Greeting.Stage Greeting.Result → Prop
  | begins {t : Step} {place : Place} (begun : t.begins? = some place) :
      Handshake setup [t] place []
        (Greeting.begin (t.after.moment setup) t.before.gateway).turn
  | answered {t : Step} {steps : List Step} {place : Place} {answers : List Exchange}
      {stage : Greeting.Stage} {call : Call} {r : Reply}
      (course : Handshake setup steps place answers (.wait stage))
      (called : stage.call? = some call) (woken : place.wake? t.move = some (.reply r)) :
      Handshake setup (t :: steps) place (⟨call, r, t.before.gateway.valueTopics⟩ :: answers)
        (Greeting.resume (t.after.moment setup) t.before.gateway stage (.reply r)).turn
  | beside {t : Step} {steps : List Step} {place : Place} {answers : List Exchange}
      {stage : Greeting.Stage} (course : Handshake setup steps place answers (.wait stage))
      (other : place.wake? t.move = none) :
      Handshake setup (t :: steps) (place.behind t) answers (.wait stage)

section

variable {setup : Setup} {past steps : List Step} {place : Place} {s s' : System} {m : Move}
  {told : List Event} {answers : List Exchange} {turn : Turn Greeting.Stage Greeting.Result}
  {stage : Greeting.Stage} {w : Wake}

theorem Greeting.Stage.exists_call? (stage : Stage) : ∃ call, stage.call? = some call := by
  cases stage <;> exact ⟨_, rfl⟩

/-- The startup waits where its handshake does, and changes no more than it. -/
theorem Startup.of_settle {m : Moment} {segment : Segment Greeting.Stage Greeting.Result}
    {settled : Segment Stage Unit} (h : settle m segment = settled) :
    settled.gateway = segment.gateway ∧
      ∀ stage, segment.turn = .wait stage → settled.turn = .wait (.greeting stage) := by
  subst settled
  rcases segment with ⟨g, turn, events⟩
  cases turn with
  | wait stage =>
    refine ⟨rfl, fun stage waits => ?_⟩
    cases waits
    rfl
  | finish result => cases result <;> exact ⟨rfl, nofun⟩

namespace System

/-- A handshake that begins is found at its place. -/
theorem Moved.begins (hm : Moved setup s m s' told)
    (begun : Step.begins? ⟨s, m, told, s'⟩ = some place) :
    s'.gateway = (Greeting.begin (s'.moment setup) s.gateway).gateway ∧
      ∀ stage, (Greeting.begin (s'.moment setup) s.gateway).turn = .wait stage →
        place.stage? s' = some stage := by
  cases hm with
  | @startup before w segment present woken ran =>
    cases w with
    | reply r =>
      simp only [Step.begins?, present] at begun
      split at begun
      · rename_i joins ok
        cases joins
        cases begun
        simp only [Startup.resume, ok] at ran
        obtain ⟨same, waits⟩ := Startup.of_settle ran
        refine ⟨same, fun stage begins => ?_⟩
        simp [Place.stage?, waits stage begins, Turn.stage?, Startup.Stage.handshake?]
      · cases begun
    | signal => cases begun
    | timeout => cases begun
  | greet =>
    cases begun
    refine ⟨rfl, fun stage waits => ?_⟩
    have waits : (Greeting.begin (s.moment setup) s.gateway).turn = .wait stage := waits
    simp [Place.stage?, System.greet, waits, Turn.stage?]
  | rejoin offline =>
    cases begun
    refine ⟨rfl, fun stage waits => ?_⟩
    have waits : (Greeting.begin (s.reconnect.moment setup) s.reconnect.gateway).turn
        = .wait stage := waits
    have same : s.reconnect.greetings = s.greetings := rfl
    simp [Place.stage?, System.greet, waits, Turn.stage?, same]
  | _ => cases begun

/-- A handshake goes on with the answer to its call. -/
theorem Moved.resumes (hm : Moved setup s m s' told) (woken : place.wake? m = some w)
    (present : place.stage? s = some stage) :
    (∃ r, w = .reply r) ∧
      s'.gateway = (Greeting.resume (s'.moment setup) s.gateway stage w).gateway ∧
      ∀ next, (Greeting.resume (s'.moment setup) s.gateway stage w).turn = .wait next →
        place.stage? s' = some next := by
  cases place with
  | startup =>
    cases hm with
    | @startup before w' segment started ends ran =>
      cases woken
      simp only [Place.stage?, started, Option.bind_some] at present
      cases before with
      | greeting stage' =>
        cases present
        simp only [Startup.resume] at ran
        obtain ⟨same, waits⟩ := Startup.of_settle ran
        refine ⟨(woken_of_wakes ends).reply, same, fun next goes => ?_⟩
        simp [Place.stage?, waits next goes, Turn.stage?, Startup.Stage.handshake?]
      | _ => cases present
    | _ => cases woken
  | beside i =>
    cases hm with
    | @greeting j before w' segment running ends ran =>
      simp only [Place.wake?] at woken
      split_ifs at woken with hj
      cases woken
      subst j
      cases running.symm.trans present
      refine ⟨(woken_of_wakes ends).reply, congrArg Segment.gateway ran.symm, fun next goes => ?_⟩
      have goes : segment.turn = .wait next := ran ▸ goes
      have bound : i < s.greetings.length := (List.getElem?_eq_some_iff.1 present).1
      simp [Place.stage?, goes, Turn.stage?, bound]
    | _ => cases woken

/-- A handshake that waits stays where it is, or moves up. -/
theorem Moved.elsewhere (hm : Moved setup s m s' told) (other : place.wake? m = none)
    (present : place.stage? s = some stage) :
    (place.behind ⟨s, m, told, s'⟩).stage? s' = some stage := by
  cases place with
  | startup =>
    cases hm with
    | startup => cases other
    | _ => simpa [Place.stage?, Place.behind, System.greet, System.reconnect] using present
  | beside i =>
    have bound : i < s.greetings.length := (List.getElem?_eq_some_iff.1 present).1
    have present : s.greetings[i]? = some stage := present
    -- Those that begin stand behind those that wait.
    have behind (later : List Greeting.Stage) : (s.greetings ++ later)[i]? = some stage :=
      (List.getElem?_append_left bound).trans present
    cases hm with
    | @greeting j before w segment running ends ran =>
      have apart : j ≠ i := by
        rintro rfl
        simp [Place.wake?] at other
      have bound' : j < s.greetings.length := (List.getElem?_eq_some_iff.1 running).1
      cases next? : segment.turn.stage? with
      | some next => simp [Place.behind, Place.stage?, List.getElem?_set_ne apart, present]
      | none =>
        rcases Nat.lt_or_gt_of_ne apart with before | after
        · have up : i - 1 + 1 = i := Nat.sub_add_cancel (Nat.one_le_of_lt before)
          have at_place : (s.greetings.eraseIdx j)[i - 1]? = some stage := by
            rw [List.getElem?_eraseIdx_of_ge (Nat.le_sub_one_of_lt before), up, present]
          simp [Place.behind, Place.stage?, before, List.length_eraseIdx_of_lt bound', at_place,
            Nat.zero_lt_of_lt bound']
        · have at_place : (s.greetings.eraseIdx j)[i]? = some stage := by
            rw [List.getElem?_eraseIdx_of_lt after, present]
          simp [Place.behind, Place.stage?, Nat.lt_asymm after, at_place]
    | restore offline => exact present
    | greet => exact behind _
    | rejoin offline => exact behind _
    | _ => simpa [Place.stage?, Place.behind] using present

end System

namespace Handshake

/-- The latest step of a handshake leads to the present state. -/
theorem exists_last (course : Handshake setup steps place answers turn)
    (run : Run setup (steps ++ past) s) : ∃ t ∈ steps, t.after = s := by
  cases course <;> cases run <;> exact ⟨_, List.mem_cons_self, rfl⟩

/-- While a handshake waits it is found at its place. -/
theorem waiting (course : Handshake setup steps place answers (.wait stage))
    (run : Run setup (steps ++ past) s) : place.stage? s = some stage := by
  generalize hw : (Turn.wait stage : Turn Greeting.Stage Greeting.Result) = turn at course
  induction course generalizing s stage with
  | begins begun =>
    cases run with
    | step run moved => exact ((System.moved_of_move? moved).begins begun).2 stage hw.symm
  | answered course called woken ih =>
    cases run with
    | step run moved =>
      exact ((System.moved_of_move? moved).resumes woken (ih run rfl)).2.2 stage hw.symm
  | beside course other ih =>
    cases hw
    cases run with
    | step run moved => exact (System.moved_of_move? moved).elsewhere other (ih run rfl)

end Handshake

/-! ## What has been answered -/

namespace Greeting

variable {t : Topics} {values : Bool} {e : Exchange}

/-- The topics of values are marked, or not, when the subscription of disconnects is answered. -/
def Marked (t : Topics) (values : Bool) (answers : List Exchange) : Prop :=
  ∀ e ∈ answers, e.call = t.subscription .disconnect → e.marked = values

/-- The second call of a script subscribes disconnects. -/
theorem Marked.second (h : Marked t values (e :: answers))
    (next : (script t values)[answers.length]? = some e.call) (second : answers.length = 1) :
    e.marked = values := by
  rw [second] at next
  exact h e List.mem_cons_self (Option.some.inj (next.symm.trans rfl))

/-- How it stands with a handshake: so many calls of its script have been confirmed, or the latest
one has failed. -/
inductive Stands (t : Topics) (values : Bool) : List Exchange → Turn Stage Result → Prop
  | confirmed {answers : List Exchange}
      (calls : (answers.map Exchange.call).reverse <+: script t values)
      (confirmed : ∀ e ∈ answers, e.reply.link = .ok ()) :
      Stands t values answers (turnAfter t values answers.length)
  | refused {e : Exchange} {answers : List Exchange} {l : LinkFault}
      (calls : ((e :: answers).map Exchange.call).reverse <+: script t values)
      (confirmed : ∀ e ∈ answers, e.reply.link = .ok ()) (refuses : e.reply.link = .error l) :
      Stands t values (e :: answers) (.finish (.error (.link l)))

/-- A handshake that waits does so in the next call of its script. -/
theorem Stands.of_wait {call : Call} (h : Stands t values answers (.wait stage))
    (called : stage.call? = some call) :
    (∀ e ∈ answers, e.reply.link = .ok ()) ∧ (stages t values)[answers.length]? = some stage ∧
      (script t values)[answers.length]? = some call ∧
        (answers.map Exchange.call).reverse ++ [call] <+: script t values := by
  generalize hw : (Turn.wait stage : Turn Stage Result) = turn at h
  cases h with
  | confirmed calls confirmed =>
    have at_place := turnAfter_eq_wait.1 hw.symm
    have next := call?_of_stages at_place called
    obtain ⟨bound, rfl⟩ := List.getElem?_eq_some_iff.1 next
    have longer := List.concat_get_prefix calls (by simpa using bound)
    exact ⟨confirmed, at_place, next, by simpa using longer⟩
  | refused => cases hw

theorem subscription_path {name name' : TopicName}
    (h : t.subscription name = t.subscription name') : name.path = name'.path := by
  simpa [Topics.subscription] using h

/-- No call occurs twice in a script. -/
theorem script_nodup (t : Topics) (values : Bool) : (script t values).Nodup := by
  have apart : ((names values).map TopicName.path).Nodup := by
    cases values <;> decide
  refine List.nodup_append'.2 ⟨?_, List.nodup_singleton _, ?_⟩
  · refine List.Nodup.map_on ?_ apart.of_map
    intro name hname name' hname' same
    exact List.inj_on_of_nodup_map apart hname hname' (subscription_path same)
  · simp [Topics.subscription]

/-- Every topic of a handshake has been subscribed. -/
def Subscribed (t : Topics) (values : Bool) (answers : List Exchange) : Prop :=
  ∀ name ∈ names values, ∃ e ∈ answers, e.call = t.subscription name ∧ e.reply.link = .ok ()

theorem subscribed_iff (calls : (answers.map Exchange.call).reverse <+: script t values)
    (confirmed : ∀ e ∈ answers, e.reply.link = .ok ()) :
    Subscribed t values answers ↔ (names values).length ≤ answers.length := by
  have first : (names values).map t.subscription <+: script t values := List.prefix_append _ _
  constructor
  · intro subscribed
    have apart := (script_nodup t values).sublist first.sublist
    have among : (names values).map t.subscription ⊆ answers.map Exchange.call := by
      intro call hcall
      obtain ⟨name, hname, rfl⟩ := List.mem_map.1 hcall
      obtain ⟨e, he, same, -⟩ := subscribed name hname
      exact List.mem_map.2 ⟨e, he, same⟩
    simpa using (apart.subperm among).length_le
  · intro long name hname
    have made := List.prefix_of_prefix_length_le first calls (by simpa using long)
    have among := made.subset (List.mem_map_of_mem hname)
    obtain ⟨e, he, same⟩ := List.mem_map.1 (List.mem_reverse.1 among)
    exact ⟨e, he, same, confirmed e he⟩

/-- A failure subscribes nothing. -/
theorem subscribed_refused {l : LinkFault} (refuses : e.reply.link = .error l) :
    Subscribed t values (e :: answers) ↔ Subscribed t values answers := by
  simp [Subscribed, refuses]

end Greeting

namespace Handshake

open Greeting

variable {values : Bool}

/-- Every segment brings a handshake on along its script, or ends it. -/
theorem stands (course : Handshake setup steps place answers turn)
    (marked : Marked setup.topics values answers) : Stands setup.topics values answers turn := by
  induction course with
  | begins begun =>
    rw [begin_turn]
    exact .confirmed List.nil_prefix nofun
  | @answered t steps place answers stage call r course called woken ih =>
    obtain ⟨confirmed, at_place, next, calls⟩ :=
      (ih (List.forall_mem_cons.1 marked).2).of_wait called
    rw [← List.reverse_cons] at calls
    cases hr : r.link with
    | ok _ =>
      rw [resume_confirmed at_place (marked.second next) hr]
      exact .confirmed calls (List.forall_mem_cons.2 ⟨hr, confirmed⟩)
    | error l =>
      rw [resume_refused hr]
      exact .refused calls confirmed hr
  | beside course other ih => exact ih marked

/-- The topics of values are marked or not, once for each handshake. -/
theorem exists_marked (course : Handshake setup steps place answers turn) :
    ∃ values, Marked setup.topics values answers := by
  induction course with
  | begins begun => exact ⟨false, nofun⟩
  | @answered t steps place answers stage call r course called woken ih =>
    obtain ⟨values, marked⟩ := ih
    obtain ⟨-, -, -, calls⟩ := (course.stands marked).of_wait called
    by_cases second : call = setup.topics.subscription .disconnect
    · have apart := (script_nodup setup.topics values).sublist calls.sublist
      have unmade : call ∉ answers.map Exchange.call := by
        simpa using (List.nodup_append'.1 apart).2.2
      refine ⟨t.before.gateway.valueTopics, List.forall_mem_cons.2 ⟨fun _ => rfl, ?_⟩⟩
      intro e he same
      exact absurd (List.mem_map.2 ⟨e, he, same.trans second.symm⟩) unmade
    · exact ⟨values, List.forall_mem_cons.2 ⟨fun same => absurd same second, marked⟩⟩
  | beside course other ih => exact ih

/-- A handshake that waits goes on with any step. -/
theorem goesOn {t : Step} (course : Handshake setup steps place answers (.wait stage))
    (run : Run setup (t :: (steps ++ past)) s) :
    ∃ place answers turn, Handshake setup (t :: steps) place answers turn := by
  cases run with
  | @step _ before _ move told run moved =>
    cases woken : place.wake? move with
    | none => exact ⟨_, _, _, course.beside woken⟩
    | some w =>
      obtain ⟨⟨r, rfl⟩, -⟩ :=
        (System.moved_of_move? moved).resumes woken (course.waiting run)
      obtain ⟨call, called⟩ := stage.exists_call?
      exact ⟨_, _, _, course.answered called woken⟩

/-- What a handshake comes to in the steps since it has begun, if it has not returned before. -/
def follow? (setup : Setup) :
    List Step → Option (Place × List Exchange × Turn Greeting.Stage Greeting.Result)
  | [] => none
  | [t] => t.begins?.map fun place =>
      (place, [], (Greeting.begin (t.after.moment setup) t.before.gateway).turn)
  | t :: u :: steps =>
    match follow? setup (u :: steps) with
    | some (place, answers, .wait stage) =>
      match place.wake? t.move, stage.call? with
      | some (.reply r), some call =>
        some (place, ⟨call, r, t.before.gateway.valueTopics⟩ :: answers,
          (Greeting.resume (t.after.moment setup) t.before.gateway stage (.reply r)).turn)
      | none, _ => some (place.behind t, answers, .wait stage)
      | _, _ => none
    | _ => none

theorem of_follow? (h : follow? setup steps = some (place, answers, turn)) :
    Handshake setup steps place answers turn := by
  induction steps generalizing place answers turn with
  | nil => cases h
  | cons t steps ih =>
    cases steps with
    | nil =>
      obtain ⟨begun, hb, he⟩ := Option.map_eq_some_iff.1 h
      cases he
      exact .begins hb
    | cons u steps =>
      simp only [follow?] at h
      split at h
      · rename_i course
        split at h
        · cases h
          exact .answered (ih course) ‹_› ‹_›
        · cases h
          exact .beside (ih course) ‹_›
        · cases h
      · cases h

end Handshake

/-- A handshake that has begun waits still, or has returned. -/
theorem Run.handshakes {later earlier : List Step} {t : Step}
    (run : Run setup (later ++ t :: earlier) s) (begun : t.begins? = some place) :
    (∃ place answers stage, Handshake setup (later ++ [t]) place answers (.wait stage)) ∨
      ∃ steps s' place answers result, Run setup (steps ++ earlier) s' ∧
        Handshake setup steps place answers (.finish result) := by
  -- What comes of a segment of the handshake.
  have turns {steps : List Step} {s : System} (run : Run setup (steps ++ earlier) s)
      (course : ∃ place answers turn, Handshake setup steps place answers turn) :
      (∃ place answers stage, Handshake setup steps place answers (.wait stage)) ∨
        ∃ steps s' place answers result, Run setup (steps ++ earlier) s' ∧
          Handshake setup steps place answers (.finish result) := by
    obtain ⟨place, answers, turn, course⟩ := course
    cases turn with
    | wait stage => exact .inl ⟨place, answers, stage, course⟩
    | finish result => exact .inr ⟨steps, s, place, answers, result, run, course⟩
  induction later generalizing s with
  | nil =>
    have run : Run setup ([t] ++ earlier) s := run
    exact turns run ⟨place, [], _, .begins begun⟩
  | cons u later ih =>
    have run' : Run setup ((u :: later ++ [t]) ++ earlier) s := by simpa using run
    have goes : Run setup (u :: ((later ++ [t]) ++ earlier)) s := run'
    cases run with
    | step run moved =>
      rcases ih run with ⟨place, answers, stage, course⟩ | returned
      · exact turns run' (course.goesOn goes)
      · exact .inr returned

end

end GattGateway
