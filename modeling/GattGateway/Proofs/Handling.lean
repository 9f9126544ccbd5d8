import GattGateway.Proofs.Handler

/-!
# Messages one at a time

Accepted messages are taken up in the order of their arrival, none before the broker has been
greeted. Each is handled to its end, with a report if its handler has failed, before the next one is
taken up.
-/
namespace GattGateway

open Segment
open Handler (Result)

/-! ## What comes of a message -/

namespace Step

variable (setup : Setup) (topics : Topics) (t : Step)

/-- The segment of a handler that runs in a step. -/
def handler? : Option Handler.Step :=
  match t.move with
  | .serving w => Handler.segment? ((t.before.answered t.before.serving.call? w).moment setup)
      t.before.gateway t.before.serving w
  | _ => none

/-- The result with which a handler ends in a step. -/
def verdict? : Option Result := (t.handler? setup).bind (·.turn.result?)

/-- The message that the serving loop sends to the topic of errors in a step. -/
def reports? : Option Message :=
  match t.asks? with
  | some (.publish message) =>
    if message.topic.text = topics.base ++ TopicName.error.path then some message else none
  | _ => none

/-- The result with which the handshake of the startup ends in a step. -/
def greets? : Option Greeting.Result :=
  match t.move, t.before.startup with
  | .startup w, some (.greeting stage) =>
    (Greeting.resume ((t.before.answered stage.call? w).moment setup) t.before.gateway stage
      w).turn.result?
  | _, _ => none

end Step

/-- The results of handlers in steps that stand in the order in which they are taken. -/
def verdicts (setup : Setup) (steps : List Step) : List Result :=
  steps.filterMap (·.verdict? setup)

/-- The messages that the serving loop sends to the topic of errors in such steps. -/
def reports (topics : Topics) (steps : List Step) : List Message :=
  steps.filterMap (·.reports? topics)

/-- What the handling of a message has come to in the steps since it was taken up: its handler has
ended at most once, and a fault with which it has ended is told once and sent to the topic of errors
once. No other error is told or sent. -/
structure Handled (setup : Setup) (steps : List Step) (verdict? : Option Result) : Prop where
  verdicts : verdicts setup steps = verdict?.toList
  errors : reported steps = ((Handler.fault? verdict?).map fun e => .error e.message).toList
  reports : reports setup.topics steps =
    ((Handler.fault? verdict?).map fun e => setup.topics.note .error (Text.utf8 e.message)).toList

/-- How far the loop has got with a message, for each end that its handler may have come to. -/
def Serving.Stage.Follows (topics : Topics) (verdict? : Option Result) : Stage → Prop
  | .receiving => verdict?.isSome = true
  | .reporting message => ∃ e, verdict? = some (.error e) ∧
      message = topics.note .error (Text.utf8 e.message)
  | _ => verdict? = none

section

variable {setup : Setup} {topics : Topics} {steps : List Step} {t : Step}
  {verdict? : Option Result} {stage : Serving.Stage}

theorem verdicts_concat :
    verdicts setup (steps ++ [t]) = verdicts setup steps ++ (t.verdict? setup).toList := by
  cases h : t.verdict? setup <;> simp [verdicts, h]

theorem reports_concat :
    reports topics (steps ++ [t]) = reports topics steps ++ (t.reports? topics).toList := by
  cases h : t.reports? topics <;> simp [reports, h]

theorem Serving.Stage.follows_of_handles (h : stage.handles = true) :
    stage.Follows topics verdict? ↔ verdict? = none := by
  cases stage <;> first | exact Iff.rfl | cases h

/-- A handler publishes nothing on the topic of errors. -/
theorem Serving.Stage.Addressed.not_error (h : stage.Addressed topics)
    (hs : stage.handles = true) {message : Message}
    (hc : stage.call? = some (.publish message)) : ¬message.On topics .error := by
  intro on
  rcases h.publishes hc with ⟨rfl, -⟩ | ⟨name, ho, hn⟩
  · cases hs
  · exact absurd (ho.stem_eq on ▸ hn) (by decide)

theorem Step.reports?_eq_none (hc : t.asks? = stage.call?) (h : stage.Addressed topics)
    (hs : stage.handles = true) : t.reports? topics = none := by
  unfold reports?
  rw [hc]
  split
  · exact if_neg (h.not_error hs ‹_›)
  · rfl

/-- A step in which no handler ends and no error is told or sent changes nothing of the account. -/
theorem Handled.rests (h : Handled setup steps verdict?) (hv : t.verdict? setup = none)
    (ht : t.tells.filter Event.isError = []) (hr : t.reports? setup.topics = none) :
    Handled setup (steps ++ [t]) verdict? where
  verdicts := by
    rw [verdicts_concat, hv, h.verdicts]
    exact List.append_nil _
  errors := by
    rw [reported_concat, ht, h.errors]
    exact List.append_nil _
  reports := by
    rw [reports_concat, hr, h.reports]
    exact List.append_nil _

/-- What happens beside the serving loop. -/
theorem Handled.beside (h : Handled setup steps verdict?) (hs : ∀ w, t.move ≠ .serving w) :
    Handled setup (steps ++ [t]) verdict? := by
  rcases t with ⟨s, m, told, s'⟩
  cases m with
  | serving w => exact absurd rfl (hs w)
  | _ => exact h.rests rfl rfl rfl

/-- A handler ends. -/
theorem Handled.ends (h : Handled setup steps none) {verdict : Result}
    (hv : t.verdict? setup = some verdict)
    (ht : t.tells.filter Event.isError =
      ((Handler.fault? (some verdict)).map fun e => .error e.message).toList)
    (hr : (t.reports? setup.topics).toList = ((Handler.fault? (some verdict)).map fun e =>
      setup.topics.note .error (Text.utf8 e.message)).toList) :
    Handled setup (steps ++ [t]) (some verdict) where
  verdicts := by
    rw [verdicts_concat, hv, h.verdicts]
    rfl
  errors := by
    rw [reported_concat, ht, h.errors]
    rfl
  reports := by
    rw [reports_concat, hr, h.reports]
    rfl

/-- A step that runs a segment of a handler, with a report behind it if that has failed. -/
theorem Handled.concluded {m : Moment} {segment : Handler.Step} (h : Handled setup steps none)
    (topics : m.topics = setup.topics) (quiet : Handler.Quiet segment)
    (verdict : t.verdict? setup = segment.turn.result?)
    (tells : t.tells = (Handler.conclude m segment).events)
    (asks : t.asks? = (Handler.conclude m segment).turn.stage.call?)
    (addressed : (Handler.conclude m segment).turn.stage.Addressed setup.topics) :
    Handled setup (steps ++ [t]) segment.turn.result? ∧
      (Handler.conclude m segment).turn.stage.Follows setup.topics segment.turn.result? := by
  have errors : t.tells.filter Event.isError =
      ((Handler.fault? segment.turn.result?).map fun e => .error e.message).toList := by
    rw [tells]
    exact Handler.errors_conclude quiet
  rcases segment with ⟨g, turn, events⟩
  cases turn with
  | wait stage =>
    have handles : stage.handles = true := quiet.2
    exact ⟨h.rests verdict errors (Step.reports?_eq_none asks addressed handles),
      (Serving.Stage.follows_of_handles handles).2 rfl⟩
  | finish result =>
    cases result with
    | ok _ =>
      refine ⟨h.ends verdict errors ?_, rfl⟩
      rw [Step.reports?, asks]
      rfl
    | error e =>
      rw [Handler.conclude_error] at asks ⊢
      refine ⟨h.ends verdict errors ?_, e, rfl, by rw [topics]⟩
      rw [Step.reports?, asks, topics]
      simp [Turn.stage, Serving.Stage.call?, Topics.note, Handler.fault?]

end

/-! ## Startup -/

/-- Startup ends with a handshake that has succeeded. -/
theorem Startup.resume_finishes {m : Moment} {g : Gateway} {stage : Stage} {w : Wake}
    (h : (resume m g stage w).turn.stage? = none) : ∃ s, stage = .greeting s ∧
      (Greeting.resume m g s w).turn.result? = some (.ok ()) := by
  cases stage with
  | starting => cases w <;> cases h
  | resting deadline => cases w <;> cases h
  | joining =>
    cases w with
    | reply r =>
      obtain ⟨topic, -, begins⟩ := Greeting.begin_eq m g
      simp only [resume, begins] at h
      cases hr : r.link with
      | ok _ =>
        rw [hr] at h
        cases h
      | error e =>
        rw [hr] at h
        cases h
    | signal => cases h
    | timeout => cases h
  | greeting s =>
    refine ⟨s, rfl, ?_⟩
    simp only [resume] at h
    generalize Greeting.resume m g s w = segment at h ⊢
    rcases segment with ⟨g', turn, events⟩
    cases turn with
    | wait stage => cases h
    | finish result =>
      cases result with
      | ok _ => rfl
      | error e => cases h

variable {setup : Setup} {past later earlier steps : List Step} {s s' : System} {mv : Move}
  {told : List Event} {t : Step} {r : Request} {verdict? : Option Result}

/-- Once the gateway is up, the broker has been greeted. -/
theorem Run.greeted (h : Run setup past s) (up : s.startup = none) :
    ∃ t ∈ past, t.greets? setup = some (.ok ()) := by
  induction h with
  | start online => cases up
  | @step past s s' mv told run moved ih =>
    have before (hs : s.startup = none) :
        ∃ t ∈ ⟨s, mv, told, s'⟩ :: past, t.greets? setup = some (.ok ()) := by
      obtain ⟨t, ht, greets⟩ := ih hs
      exact ⟨t, List.mem_cons_of_mem _ ht, greets⟩
    cases System.moved_of_move? moved with
    | @startup stage w segment present woken ran =>
      subst ran
      obtain ⟨stage, rfl, finishes⟩ := Startup.resume_finishes up
      refine ⟨_, List.mem_cons_self, ?_⟩
      simp only [Step.greets?, present]
      exact finishes
    | serving up' woken ran => exact before up'
    | autoscan up' woken ran => exact before up'
    | worker up' woken ran => exact before up'
    | greeting present woken ran => exact before (by simpa using up)
    | _ => exact before up

/-- The loop takes nothing up before the gateway is up. -/
theorem Run.up_or_receiving (h : Run setup past s) :
    s.startup = none ∨ s.serving = .receiving := by
  refine Run.invariant (P := fun s => s.startup = none ∨ s.serving = .receiving)
    (fun _ => .inr rfl) (fun {s m s' told} before hm => ?_) h
  cases hm with
  | startup present woken ran => exact .inr (by simpa [present] using before)
  | serving up woken ran => exact .inl (by simpa using up)
  | greeting present woken ran => simpa using before
  | _ => exact before

/-! ## One message after the other -/

/-- A step of the loop that runs a segment of a handler. -/
theorem System.Moved.concludes {w : Wake} {segment : Handler.Step}
    (hm : Moved setup s (.serving w) s' told)
    (runs : Handler.segment? ((s.answered s.serving.call? w).moment setup) s.gateway s.serving w =
      some segment) :
    s'.gateway = (Handler.conclude ((s.answered s.serving.call? w).moment setup) segment).gateway ∧
      s'.serving =
        (Handler.conclude ((s.answered s.serving.call? w).moment setup) segment).turn.stage ∧
      told = (Handler.conclude ((s.answered s.serving.call? w).moment setup) segment).events ∧
      Step.verdict? setup ⟨s, .serving w, told, s'⟩ = segment.turn.result? := by
  have verdict : Step.verdict? setup ⟨s, .serving w, told, s'⟩ = segment.turn.result? := by
    rw [Step.verdict?, show Step.handler? setup ⟨s, .serving w, told, s'⟩ = some segment from runs]
    rfl
  cases hm with
  | serving up woken ran =>
    rw [Handler.resume_of_segment? runs] at ran
    subst ran
    exact ⟨rfl, rfl, rfl, verdict⟩

theorem System.Moved.handled {w : Wake} {segment : Handler.Step}
    (hm : Moved setup s (.serving w) s' told) (addressed : s'.serving.Addressed setup.topics)
    (runs : Handler.segment? ((s.answered s.serving.call? w).moment setup) s.gateway s.serving w =
      some segment) (h : Handled setup steps none) :
    Handled setup (steps ++ [⟨s, .serving w, told, s'⟩]) segment.turn.result? ∧
      s'.serving.Follows setup.topics segment.turn.result? := by
  obtain ⟨-, serving, events, verdict⟩ := hm.concludes runs
  rw [serving] at addressed ⊢
  exact h.concluded rfl (Handler.quiet_of_segment? runs) verdict events
    (congrArg Serving.Stage.call? serving) addressed

/-- A step that takes up nothing goes on with the message at hand. What its handler has come to is
final. -/
theorem Run.handled_step (run : Run setup past s) (moved : s.move? setup mv = some (s', told))
    (untaken : Step.takes? ⟨s, mv, told, s'⟩ = none) (h : Handled setup steps verdict?)
    (follows : s.serving.Follows setup.topics verdict?) :
    ∃ verdict?', Handled setup (steps ++ [⟨s, mv, told, s'⟩]) verdict?' ∧
      s'.serving.Follows setup.topics verdict?' ∧
      (verdict?.isSome = true → verdict?' = verdict?) := by
  have hm := System.moved_of_move? moved
  by_cases hs : ∃ w, mv = .serving w
  · obtain ⟨w, rfl⟩ := hs
    -- While a handler is at work there is no verdict yet, and behind it the verdict is final.
    by_cases handles : s.serving.handles = true
    · obtain rfl := (Serving.Stage.follows_of_handles handles).1 follows
      obtain ⟨handled, follows⟩ := hm.handled (run.step moved).addressed.serving
        (Handler.segment?_of_handles handles) h
      exact ⟨_, handled, follows, fun ended => nomatch ended⟩
    · cases hm with
      | serving up woken ran =>
        subst ran
        generalize hstage : s.serving = stage at *
        cases stage with
        | receiving =>
          obtain ⟨r, inbox, rfl, hpop⟩ := System.takes_of_receiving hstage (hstage ▸ woken)
          simp [Step.takes?, hstage, hpop] at untaken
        | reporting message =>
          obtain ⟨r, rfl⟩ := (System.woken_of_wakes woken).reply
          obtain ⟨e, rfl, -⟩ := follows
          refine ⟨_, h.rests ?_ rfl rfl, rfl, fun _ => rfl⟩
          simp [Step.verdict?, Step.handler?, Handler.segment?, hstage, Serving.Stage.handles]
        | _ => exact absurd rfl handles
  · obtain ⟨same, -⟩ := (run.coherent.serving_or_idles hm).resolve_left hs
    refine ⟨verdict?, h.beside fun w hw => hs ⟨w, hw⟩, ?_, fun _ => rfl⟩
    rw [same]
    exact follows

/-- While a message is handled, and until the next one is taken up. A message that is no command is
done with at once. -/
theorem Run.handled (h : Run setup (later ++ t :: earlier) s) (taken : t.takes? = some r)
    (alone : ∀ u ∈ later, u.takes? = none) :
    ∃ verdict?, Handled setup (t :: later.reverse) verdict? ∧
      s.serving.Follows setup.topics verdict? ∧
      (setup.topics.route r.topic.text = none → verdict? = some (.ok ())) := by
  induction later generalizing s with
  | nil =>
    obtain ⟨hmove, hreceiving, inbox, hpop⟩ := Step.takes?_eq_some taken
    cases h with
    | @step past s s' m told run moved =>
      obtain rfl : m = .serving .signal := hmove
      have hreceiving : s.serving = .receiving := hreceiving
      have runs : Handler.segment? ((s.answered s.serving.call? .signal).moment setup) s.gateway
          s.serving .signal = some (Handler.dispatch
            ((s.answered s.serving.call? .signal).moment setup) { s.gateway with inbox } r) := by
        rw [hreceiving]
        exact Handler.segment?_of_pop? hpop
      have nothing : Handled setup [] none := ⟨rfl, rfl, rfl⟩
      obtain ⟨handled, follows⟩ := (System.moved_of_move? moved).handled
        (run.step moved).addressed.serving runs nothing
      refine ⟨_, handled, follows, fun unrouted => ?_⟩
      rw [Handler.dispatch_of_unrouted unrouted]
      rfl
  | cons u later ih =>
    rw [List.cons_append] at h
    cases h with
    | @step past s s' m told run moved =>
      obtain ⟨verdict?, handled, follows, ignored⟩ :=
        ih run fun t ht => alone t (List.mem_cons_of_mem _ ht)
      obtain ⟨verdict?', handled, follows, final⟩ :=
        run.handled_step moved (alone _ List.mem_cons_self) handled follows
      rw [List.reverse_cons, ← List.cons_append]
      refine ⟨verdict?', handled, follows, fun unrouted => ?_⟩
      rw [final (by rw [ignored unrouted]; rfl), ignored unrouted]

/-- Whatever the reply to a report is, the loop waits for the next message. -/
theorem Run.reporting_ends (h : Run setup past s) {message : Message}
    (hs : s.serving = .reporting message) (r : Reply) :
    s.move? setup (.serving (.reply r)) = some ({ s with serving := .receiving }, []) := by
  have up : s.startup = none := h.up_or_receiving.resolve_right (by simp [hs])
  have woken : s.wakes setup (.serving (.reporting message)) (.reply r) = true := rfl
  have unchanged : s.answered (Serving.Stage.reporting message).call? (.reply r) = s := rfl
  simp only [System.move?, up, hs, woken, unchanged]
  rfl

/-- A loop that waits for a message can take up the first one of the inbox. -/
theorem System.takes_next {rs : List Request} (up : s.startup = none)
    (hs : s.serving = .receiving) (hq : s.gateway.inbox.requests = r :: rs) :
    ∃ s' told, s.move? setup (.serving .signal) = some (s', told) ∧
      Step.takes? ⟨s, .serving .signal, told, s'⟩ = some r := by
  have filled : s.wakes setup (.serving .receiving) .signal = true := by
    change (!s.gateway.inbox.requests.isEmpty) = true
    rw [hq]
    rfl
  have woken : s.wakes setup (.serving s.serving) .signal = true := hs ▸ filled
  obtain ⟨r', inbox, -, hpop⟩ := takes_of_receiving hs woken
  obtain ⟨rfl, -⟩ := List.cons.inj (hq.symm.trans (Inbox.pop?_eq_some_iff.1 hpop))
  refine ⟨_, _, if_pos (by rw [up, woken]; rfl), ?_⟩
  simp only [Step.takes?, hs, hpop, Option.map_some]

/-- A message of the broker as it is offered to the inbox in a run. -/
theorem Run.offers (h : Run setup past s) (ht : t ∈ past) {topic : String} {payload : Text.Bytes}
    (hm : t.move = .message topic payload) : t.Offers topic payload := by
  obtain ⟨later, earlier, rfl⟩ := List.append_of_mem ht
  cases h.of_suffix (List.suffix_append later (t :: earlier)) with
  | @step past s s' m told run moved =>
    obtain rfl : m = .message topic payload := hm
    exact System.offers moved

/-- Messages are handled one at a time, in the order in which they are accepted. -/
structure InOrder (setup : Setup) (past : List Step) (s : System) : Prop where
  /-- A message is accepted if and only if it fits and finds room, and else changes nothing. -/
  offers : ∀ t ∈ past, ∀ topic payload, t.move = .message topic payload → t.Offers topic payload
  /-- What is taken up is what has been accepted, up to what still waits. -/
  queue : accepted past.reverse = taken past.reverse ++ s.gateway.inbox.requests
  /-- Nothing is taken up before the handshake of the startup has succeeded, nor while a message is
  handled or reported. -/
  takes : ∀ t earlier, t :: earlier <:+ past → t.takes?.isSome = true →
    t.before.serving = .receiving ∧ ∃ u ∈ earlier, u.greets? setup = some (.ok ())
  /-- How far the message at hand has got. -/
  present : ∀ later t earlier r, past = later ++ t :: earlier → t.takes? = some r →
    (∀ u ∈ later, u.takes? = none) → ∃ verdict?, Handled setup (t :: later.reverse) verdict? ∧
      s.serving.Follows setup.topics verdict? ∧
      (setup.topics.route r.topic.text = none → verdict? = some (.ok ()))
  /-- Every handling has come to its end before the next message is taken up. -/
  ended : ∀ next later t earlier, next :: (later ++ t :: earlier) <:+ past →
    next.takes?.isSome = true → t.takes?.isSome = true → (∀ u ∈ later, u.takes? = none) →
      ∃ verdict, Handled setup (t :: later.reverse) (some verdict)
  /-- The loop goes on after every report, whether that has failed or not. -/
  goesOn : ∀ message, s.serving = .reporting message → ∀ r,
    s.move? setup (.serving (.reply r)) = some ({ s with serving := .receiving }, [])
  /-- A loop that waits can take up the message that has waited longest. -/
  takesNext : s.startup = none → s.serving = .receiving → ∀ r rs,
    s.gateway.inbox.requests = r :: rs → ∃ s' told,
      s.move? setup (.serving .signal) = some (s', told) ∧
      Step.takes? ⟨s, .serving .signal, told, s'⟩ = some r

/-- However messages arrive and calls end, they are handled in order. -/
theorem Run.inOrder (h : Run setup past s) : InOrder setup past s where
  offers t ht topic payload hm := h.offers ht hm
  queue := h.accepted_eq
  takes t earlier hsuffix taken := by
    obtain ⟨r, taken⟩ := Option.isSome_iff_exists.1 taken
    obtain ⟨hmove, hreceiving, -⟩ := Step.takes?_eq_some taken
    cases h.of_suffix hsuffix with
    | @step past s s' m told run moved =>
      obtain rfl : m = .serving .signal := hmove
      cases System.moved_of_move? moved with
      | serving up woken ran => exact ⟨hreceiving, run.greeted up⟩
  present later t earlier r hpast taken alone := by
    subst past
    exact h.handled taken alone
  ended next later t earlier hsuffix again taken alone := by
    obtain ⟨r', again⟩ := Option.isSome_iff_exists.1 again
    obtain ⟨r, taken⟩ := Option.isSome_iff_exists.1 taken
    obtain ⟨-, hreceiving, -⟩ := Step.takes?_eq_some again
    cases h.of_suffix hsuffix with
    | @step past s s' m told run moved =>
      obtain ⟨verdict?, handled, follows, -⟩ := run.handled taken alone
      have hreceiving : s.serving = .receiving := hreceiving
      rw [hreceiving] at follows
      obtain ⟨verdict, rfl⟩ := Option.isSome_iff_exists.1 follows
      exact ⟨verdict, handled⟩
  goesOn message hs := h.reporting_ends hs
  takesNext up hs r rs hq := System.takes_next up hs hq

/-- A message that cannot be handled is reported, in vain, and the one behind it is taken up. -/
theorem inOrder_after_failed_report : ∃ next later t earlier s,
    Run .sample (next :: (later ++ t :: earlier)) s ∧
    taken (next :: (later ++ t :: earlier)).reverse =
      [⟨⟨"ble/gateway/connect", by decide⟩, [], by decide⟩,
        ⟨⟨"ble/other", by decide⟩, [1], by decide⟩] ∧
    Handled .sample (t :: later.reverse) (some (.error .invalidPayload)) ∧
    reported (t :: later.reverse) = [.error "Invalid payload"] ∧
    InOrder .sample (next :: (later ++ t :: earlier)) s := by
  obtain ⟨later, t, earlier, s, run, hp⟩ := Run.exists_cut .sample false
    (Move.bringUp ++ [.message "ble/gateway/connect" [], .message "ble/other" [1],
      .serving .signal, .serving (.reply (.linkFault .publish)), .serving .signal]) 2
    (fun later t earlier =>
      taken (later ++ t :: earlier).reverse ==
        [⟨⟨"ble/gateway/connect", by decide⟩, [], by decide⟩,
          ⟨⟨"ble/other", by decide⟩, [1], by decide⟩] &&
      later.head?.any (·.takes?.isSome) && t.takes?.isSome && later.tail.all (·.takes?.isNone) &&
      verdicts .sample (t :: later.tail.reverse) == [.error .invalidPayload])
    (by decide +kernel)
  simp only [Bool.and_eq_true, beq_iff_eq, List.all_eq_true, Option.isNone_iff_eq_none,
    Option.any_eq_true] at hp
  obtain ⟨⟨⟨⟨both, next, hnext, again⟩, taken⟩, alone⟩, verdict⟩ := hp
  obtain ⟨rest, rfl⟩ := List.head?_eq_some_iff.1 hnext
  have inOrder := run.inOrder
  obtain ⟨found, handled⟩ :=
    inOrder.ended next rest t earlier (List.suffix_refl _) again taken alone
  obtain rfl : found = .error .invalidPayload := by
    have same := handled.verdicts.symm.trans verdict
    simpa using same
  exact ⟨next, rest, t, earlier, s, run, both, handled, handled.errors, inOrder⟩

end GattGateway
