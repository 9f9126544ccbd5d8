import GattGateway.Proofs.Greetings
import GattGateway.Proofs.Restoration
import GattGateway.Proofs.ScanCycles

/-!
# What a handshake leaves

Readiness is the work of handshakes wherever nobody uses the radio. A handshake that has no rival
turns it off when it begins and on when the last of its topics has been subscribed, so that one
that has returned has left the gateway ready exactly if nothing has failed but, perhaps, the
announcement.
-/
namespace GattGateway

open Segment

/-! ## What leaves the readiness alone -/

/-- The startup leaves the gateway alone unless it greets the broker. -/
theorem Startup.resume_kept {m : Moment} {g : Gateway} {w : Wake} {stage : Stage}
    (before : stage.handshake? = none)
    (behind : (resume m g stage w).turn.stage?.bind Stage.handshake? = none) :
    (resume m g stage w).gateway = g := by
  cases stage with
  | greeting s => cases before
  | joining =>
    cases w with
    | reply r =>
      simp only [resume] at behind ⊢
      split at behind
      · obtain ⟨topic, -, begins⟩ := Greeting.begin_eq m g
        rw [begins] at behind
        cases behind
      · rfl
    | _ => rfl
  | _ => cases w <;> rfl

/-- The loop that scans leaves the gateway alone while it does not hold the radio. -/
theorem Autoscan.Advances.kept {m : Moment} {g g' : Gateway} {stage next : Stage}
    {told : List Event} (h : Advances m g stage g' told next) (before : stage.holdsRadio = false)
    (behind : next.holdsRadio = false) : g' = g := by
  cases h with
  | rests => rfl
  | searches searches => simp [Stage.holdsRadio_of_searches searches] at before
  | completes publishes =>
    subst publishes
    cases before
  | ends reports =>
    subst reports
    cases before
  | _ => cases behind

namespace Serving

variable {m : Moment} {g : Gateway} {w : Wake} {taken scans : Bool} {stage : Stage} {peer : Peer}

theorem ready_of_untouched {s : Step}
    (h : s.Leads fun g' _ next => Untouched g g' next.dials next.recovers) :
    s.Leads fun g' _ next => next.holdsRadio = true ∨ g'.ready = g.ready :=
  h.imp fun _ _ _ hl => .inr hl.ready

theorem acquire_ready {wasPaused : Bool} {giveUp deadline : Instant}
    (h : Agrees taken scans g (.acquiring peer wasPaused giveUp deadline)) :
    (acquire m g peer wasPaused giveUp).Leads fun g' _ next =>
      next.holdsRadio = true ∨ g'.ready = g.ready := by
  refine (acquire_leads h).imp fun g' _ next hl => ?_
  rcases hl.2 with ⟨holds, -⟩ | ⟨-, -, rfl⟩ | ⟨-, rfl, -⟩
  · exact .inl holds
  · exact .inr rfl
  · exact .inr rfl

theorem dispatch_ready {r : Request} (h : Agrees taken scans g .receiving) :
    (dispatch m g r).Leads fun g' _ next => next.holdsRadio = true ∨ g'.ready = g.ready := by
  unfold dispatch
  split
  · exact .inr rfl
  · rename_i command hcommand
    cases command with
    | connect peer =>
      have waits : Agrees taken scans { g with paused := true }
        (.acquiring peer g.paused (m.now + m.timing.busyWait) 0) := h.acquiring
      exact acquire_ready waits
    | disconnect =>
      exact ready_of_untouched (leave_untouched Teardown.begin_events Teardown.begin_flags)
    | write uuid data =>
      simp only [handle]
      split <;> exact .inr rfl
    | read uuid =>
      simp only [handle]
      split
      · exact .inr rfl
      · exact ready_of_untouched answer_untouched
  · exact ready_of_untouched report_untouched

/-- The loop that serves leaves the readiness alone where it does not use the radio, unless it
begins to. -/
theorem resume_ready (h : Agrees taken scans g stage) (rests : stage.holdsRadio = false) :
    (resume m g stage w).Leads fun g' _ next =>
      next.holdsRadio = true ∨ g'.ready = g.ready := by
  cases stage with
  | receiving =>
    cases w with
    | signal =>
      simp only [resume]
      split
      · rename_i inbox _
        exact dispatch_ready (h.undisturbed (.of_inbox g inbox))
      · exact .inr rfl
    | _ => exact .inr rfl
  | acquiring peer wasPaused giveUp deadline =>
    cases w with
    | timeout => exact acquire_ready h
    | _ => exact .inr rfl
  | leaving s =>
    exact ready_of_untouched (leave_untouched Teardown.resume_events Teardown.resume_flags)
  | parting message | writing connection handle data | reading uuid connection handle
  | answering uuid value message | reporting message =>
    exact resume_single rfl (.inr rfl) (fun _ => .inr rfl)
      (fun _ => ready_of_untouched report_untouched) fun _ _ => ready_of_untouched answer_untouched
  | _ => cases rests

end Serving

/-- Nobody holds the radio, and there is no handshake beside the one in progress. -/
structure System.Unrivalled (s : System) : Prop where
  free : s.gateway.busy = false
  single : s.handshakes.length ≤ 1

section

variable {setup : Setup} {past steps : List Step} {place : Place} {s s' : System} {m : Move}
  {told : List Event} {answers : List Exchange} {turn : Turn Greeting.Stage Greeting.Result}
  {stage : Greeting.Stage} {values : Bool}

instance (s : System) : Decidable s.Unrivalled :=
  decidable_of_iff (s.gateway.busy = false ∧ s.handshakes.length ≤ 1)
    ⟨fun ⟨free, single⟩ => ⟨free, single⟩, fun ⟨free, single⟩ => ⟨free, single⟩⟩

theorem Place.mem_handshakes (h : place.stage? s = some stage) : stage ∈ s.handshakes := by
  cases place with
  | startup => exact System.mem_handshakes.2 (.inl h)
  | beside i => exact System.mem_handshakes.2 (.inr (List.mem_of_getElem? h))

namespace System

theorem length_handshakes (s : System) : s.handshakes.length =
    (s.startup.bind Startup.Stage.handshake?).toList.length + s.greetings.length := by
  rw [handshakes, List.length_append]

theorem length_greet (s : System) :
    (s.greet setup).handshakes.length = s.handshakes.length + 1 := by
  obtain ⟨topic, -, begins⟩ := Greeting.begin_eq (s.moment setup) s.gateway
  simp [length_handshakes, greet, begins, wait, Turn.stage?, Nat.add_assoc]

/-- A handshake beside the loops is the only one. -/
theorem Unrivalled.single_beside (h : s.Unrivalled) (among : stage ∈ s.greetings) :
    s.startup.bind Startup.Stage.handshake? = none ∧ s.greetings.length = 1 := by
  have single := h.single
  have some := List.length_pos_of_mem among
  rw [length_handshakes] at single
  cases startup : s.startup.bind Startup.Stage.handshake? with
  | none =>
    rw [startup, Option.toList_none, List.length_nil] at single
    exact ⟨rfl, by omega⟩
  | some greeting =>
    rw [startup, Option.toList_some, List.length_singleton] at single
    omega

theorem Coherent.rests (h : s.Coherent) (free : s.gateway.busy = false) :
    s.autoscan.holdsRadio = false ∧ s.serving.holdsRadio = false := by
  have busy := h.busy
  rw [free] at busy
  exact Bool.or_eq_false_iff.1 busy.symm

/-- Where nobody uses the radio only handshakes change the readiness. -/
theorem Moved.readiness_kept (hm : Moved setup s m s' told) (coherent : s.Coherent)
    (alone : s.Unrivalled) (alone' : s'.Unrivalled) (present : place.stage? s = some stage)
    (other : place.wake? m = none) : s'.gateway.ready = s.gateway.ready := by
  obtain ⟨rests, idles⟩ := coherent.rests alone.free
  obtain ⟨rests', idles'⟩ := (coherent.moved hm).rests alone'.free
  have found : stage ∈ s.handshakes := place.mem_handshakes present
  -- Another handshake that goes on or begins would be the second one, before the step or behind it.
  cases hm with
  | @autoscan w segment up woken ran =>
    have kept : segment.gateway = s.gateway :=
      (coherent.advances (.autoscan up woken ran)).kept rests rests'
    rw [kept]
  | @serving w segment up woken ran =>
    have ready := Serving.resume_ready (m := (s.answered s.serving.call? w).moment setup)
      coherent idles (w := w)
    rw [ran] at ready
    exact ready.resolve_left (by simpa using idles')
  | @worker i w segment up woken ran =>
    have kept : segment.Leads fun g' _ _ => Forwarding.Kept s.gateway g' :=
      ran ▸ Forwarding.resume_leads
    rw [kept.rest]
  | @startup before w segment started woken ran =>
    cases place with
    | startup => cases other
    | beside i =>
      obtain ⟨unmet, -⟩ := alone.single_beside (List.mem_of_getElem? present)
      obtain ⟨unmet', -⟩ := alone'.single_beside (by simpa using List.mem_of_getElem? present)
      subst ran
      have kept := Startup.resume_kept (by simpa [started] using unmet) unmet'
      exact congrArg Gateway.ready kept
  | @greeting j other' w segment running ends ran =>
    have among := List.mem_of_getElem? running
    obtain ⟨unmet, only⟩ := alone.single_beside among
    cases place with
    | startup => cases unmet.symm.trans present
    | beside i =>
      obtain ⟨bound, -⟩ := List.getElem?_eq_some_iff.1 present
      obtain ⟨bound', -⟩ := List.getElem?_eq_some_iff.1 running
      have same : j = i := by omega
      simp [Place.wake?, same] at other
  | greet =>
    have more := alone'.single
    rw [length_greet] at more
    have present := List.length_pos_of_mem found
    omega
  | rejoin offline =>
    have more := alone'.single
    rw [length_greet] at more
    have present : 0 < s.reconnect.handshakes.length := List.length_pos_of_mem found
    omega
  | _ => rfl

end System

/-! ## The readiness under a handshake -/

open Greeting

/-- Under a handshake that has no rival the gateway is ready exactly when all its topics have been
subscribed. -/
theorem Handshake.ready_iff (course : Handshake setup steps place answers turn)
    (run : Run setup (steps ++ past) s) (marked : Marked setup.topics values answers)
    (alone : ∀ t ∈ steps, t.after.Unrivalled) :
    s.gateway.ready = true ↔ Subscribed setup.topics values answers := by
  -- Both sides change with the last confirmation only: the left one by the segment that follows it,
  -- the right one because no call of the script occurs twice.
  induction course generalizing s with
  | @begins t place begun =>
    cases run with
    | @step _ before _ move told run moved =>
      obtain ⟨topic, -, begins⟩ := begin_eq (s.moment setup) before.gateway
      have unsubscribed : Subscribed setup.topics values [] ↔ (names values).length ≤ 0 :=
        subscribed_iff List.nil_prefix nofun
      rw [((System.moved_of_move? moved).begins begun).1, begins, unsubscribed]
      simp [names, wait]
  | @answered t steps place answers stage call r course called woken ih =>
    have earlier : Marked setup.topics values answers := (List.forall_mem_cons.1 marked).2
    cases run with
    | @step _ before _ move told run moved =>
      have ready := ih run earlier (List.forall_mem_cons.1 alone).2
      rw [((System.moved_of_move? moved).resumes woken (course.waiting run)).2.1]
      obtain ⟨confirmed, at_place, next, calls⟩ := (course.stands earlier).of_wait called
      cases hr : r.link with
      | ok _ =>
        rw [subscribed_iff ((List.prefix_append _ _).trans calls) confirmed] at ready
        have confirmed' : ∀ e ∈ (⟨call, r, before.gateway.valueTopics⟩ : Exchange) :: answers,
            e.reply.link = .ok () := List.forall_mem_cons.2 ⟨hr, confirmed⟩
        rw [resume_confirmed at_place (marked.second next) hr,
          subscribed_iff (by simpa using calls) confirmed']
        simp only [Bool.or_eq_true, beq_iff_eq, ready, List.length_cons]
        omega
      | error l =>
        rw [resume_refused hr, subscribed_refused hr]
        exact ready
  | beside course other ih =>
    obtain ⟨last, earlier⟩ := List.forall_mem_cons.1 alone
    cases run with
    | step run moved =>
      obtain ⟨t, ht, rfl⟩ := course.exists_last run
      have kept := (System.moved_of_move? moved).readiness_kept run.coherent (earlier t ht) last
        (course.waiting run) other
      rw [kept]
      exact ih run marked earlier

/-! ## What it does and returns -/

/-- What a handshake does, whatever comes of its calls and however long they take. -/
structure Conducted (t : Topics) (values : Bool) (answers : List Exchange)
    (turn : Turn Stage Result) : Prop where
  /-- The calls are those of its script, in this order. -/
  calls : (answers.map Exchange.call).reverse <+: script t values
  /-- It goes on only after a confirmation. -/
  earlier : ∀ e ∈ answers.tail, e.reply.link = .ok ()
  waits : ∀ stage, turn = .wait stage → (∀ e ∈ answers, e.reply.link = .ok ()) ∧
    ∃ call, stage.call? = some call ∧
      (answers.map Exchange.call).reverse ++ [call] <+: script t values
  /-- It announces the gateway, and publishes nothing else, after all its topics have been
  subscribed. -/
  announces : ∀ stage message, turn = .wait stage → stage.call? = some (.publish message) →
    message = announcement t ∧ Subscribed t values answers
  succeeds : turn = .finish (.ok ()) ↔
    (∀ e ∈ answers, e.reply.link = .ok ()) ∧ (answers.map Exchange.call).reverse = script t values
  fails : ∀ f, turn = .finish (.error f) ↔
    ∃ e l, answers.head? = some e ∧ e.reply.link = .error l ∧ f = .link l

/-- How a handshake that has no rival leaves the readiness. -/
structure Readied (t : Topics) (values : Bool) (answers : List Exchange)
    (turn : Turn Stage Result) (g : Gateway) : Prop where
  /-- The gateway is ready as soon as all topics have been subscribed, and not before. -/
  ready : g.ready = true ↔ Subscribed t values answers
  /-- When the handshake returns the gateway is ready unless something else has failed than the
  announcement. -/
  returned : ∀ result, turn = .finish result → (g.ready = true ↔ result = .ok () ∨
    ∃ e l, answers.head? = some e ∧ e.call = .publish (announcement t) ∧
      e.reply.link = .error l ∧ result = .error (.link l))

namespace Greeting

variable {t : Topics} {result : Result}

theorem turnAfter_eq_ok {calls : List Call} (made : calls <+: script t values) :
    turnAfter t values calls.length = .finish (.ok ()) ↔ calls = script t values := by
  rw [turnAfter_eq_finish]
  constructor
  · rintro ⟨-, complete⟩
    exact made.eq_of_length_le complete
  · intro all
    rw [all]
    exact ⟨rfl, le_rfl⟩

/-- The last call of a handshake announces the gateway exactly if all its topics have been
subscribed before. -/
theorem subscribed_iff_announces {e : Exchange}
    (calls : ((e :: answers).map Exchange.call).reverse <+: script t values)
    (confirmed : ∀ e ∈ answers, e.reply.link = .ok ()) :
    Subscribed t values answers ↔ e.call = .publish (announcement t) := by
  rw [List.map_cons, List.reverse_cons] at calls
  have next : (script t values)[answers.length]? = some e.call := by
    obtain ⟨rest, whole⟩ := calls
    simp [← whole]
  obtain ⟨bound, -⟩ := List.getElem?_eq_some_iff.1 next
  rw [length_script] at bound
  rw [subscribed_iff ((List.prefix_append _ _).trans calls) confirmed]
  constructor
  · intro complete
    have last : (script t values)[answers.length]? = some (.publish (announcement t)) :=
      publish_iff.2 ⟨Nat.le_antisymm (Nat.le_of_lt_succ bound) complete, rfl⟩
    exact Option.some.inj (next.symm.trans last)
  · intro announces
    rw [announces] at next
    exact (publish_iff.1 next).1.ge

theorem Stands.conducted (h : Stands t values answers turn) :
    Conducted t values answers turn where
  calls := by
    cases h with
    | confirmed calls _ => exact calls
    | refused calls _ _ => exact calls
  earlier := by
    cases h with
    | confirmed _ confirmed => exact fun e he => confirmed e (List.mem_of_mem_tail he)
    | refused _ confirmed _ => exact confirmed
  waits := by
    rintro stage rfl
    obtain ⟨call, called⟩ := stage.exists_call?
    obtain ⟨confirmed, -, -, calls⟩ := h.of_wait called
    exact ⟨confirmed, call, called, calls⟩
  announces := by
    rintro stage message rfl publishes
    obtain ⟨confirmed, -, next, calls⟩ := h.of_wait publishes
    obtain ⟨complete, announces⟩ := publish_iff.1 next
    refine ⟨announces, (subscribed_iff ?_ confirmed).2 complete.ge⟩
    exact (List.prefix_append _ _).trans calls
  succeeds := by
    cases h with
    | confirmed calls confirmed =>
      have complete := turnAfter_eq_ok calls
      rw [List.length_reverse, List.length_map] at complete
      rw [complete, and_iff_right confirmed]
    | refused calls confirmed refuses => simp [refuses]
  fails f := by
    cases h with
    | @confirmed answers calls confirmed =>
      refine ⟨fun fails => ?_, ?_⟩
      · cases (turnAfter_eq_finish.1 fails).1
      · rintro ⟨e, l, latest, refuses, -⟩
        cases (confirmed e (List.mem_of_head? latest)).symm.trans refuses
    | refused calls confirmed refuses => simp [refuses, eq_comm]

theorem Stands.returned (h : Stands t values answers (.finish result)) :
    Subscribed t values answers ↔ result = .ok () ∨
      ∃ e l, answers.head? = some e ∧ e.call = .publish (announcement t) ∧
        e.reply.link = .error l ∧ result = .error (.link l) := by
  generalize hr : (Turn.finish result : Turn Stage Result) = turn at h
  cases h with
  | confirmed calls confirmed =>
    obtain ⟨succeeds, complete⟩ := turnAfter_eq_finish.1 hr.symm
    rw [length_script] at complete
    simp only [succeeds, true_or, iff_true]
    exact (subscribed_iff calls confirmed).2 (Nat.le_of_succ_le complete)
  | refused calls confirmed refuses =>
    cases hr
    rw [subscribed_refused refuses, subscribed_iff_announces calls confirmed]
    simp [refuses]

end Greeting

/-- Whatever comes of its calls a handshake subscribes its topics in order up to the first failure,
and announces the gateway when it has subscribed them all. Where it has no rival, the gateway is
unready until then and ready from then on, and a handshake that fails before leaves it unready. -/
theorem Run.handshake_readies (run : Run setup (steps ++ past) s)
    (course : Handshake setup steps place answers turn) : ∃ values,
      Marked setup.topics values answers ∧ Conducted setup.topics values answers turn ∧
        ((∀ t ∈ steps, t.after.Unrivalled) →
          Readied setup.topics values answers turn s.gateway) := by
  obtain ⟨values, marked⟩ := course.exists_marked
  have stands := course.stands marked
  refine ⟨values, marked, stands.conducted, fun alone => ?_⟩
  have ready := course.ready_iff run marked alone
  refine ⟨ready, ?_⟩
  rintro result rfl
  exact ready.trans stands.returned

/-! ## To try handshakes with -/

/-- The last steps that moves from the start lead to, where they are those of a handshake. -/
theorem Run.exists_handshake (setup : Setup) (online : Bool) (ms : List Move) (n : Nat)
    (p : List Step → List Exchange → Turn Stage Result → System → Bool)
    (h : (System.trace? setup [] (.initial online) ms).any (fun reached =>
      (Handshake.follow? setup (reached.1.take n)).any fun found =>
        p (reached.1.take n) found.2.1 found.2.2 reached.2) = true) :
    ∃ steps past s place answers turn, Run setup (steps ++ past) s ∧
      Handshake setup steps place answers turn ∧ p steps answers turn s = true := by
  obtain ⟨past, s, run, hp⟩ := Run.exists_of_any h
  obtain ⟨⟨place, answers, turn⟩, course, hp⟩ := (Option.any_eq_true _ _).1 hp
  rw [← List.take_append_drop n past] at run
  exact ⟨_, _, s, place, answers, turn, run, .of_follow? course, hp⟩

/-- A session is open when the link comes up again, and the last topic of values is refused. -/
theorem handshake_readies_refused : ∃ steps past s place answers values,
    Run .sample (steps ++ past) s ∧
    Handshake .sample steps place answers (.finish (.error (.link .subscribe))) ∧
    (∀ t ∈ steps, t.after.Unrivalled) ∧ answers.length = 4 ∧ s.gateway.ready = false ∧
    Marked Setup.sample.topics values answers ∧
    Conducted Setup.sample.topics values answers (.finish (.error (.link .subscribe))) ∧
    Readied Setup.sample.topics values answers (.finish (.error (.link .subscribe))) s.gateway := by
  obtain ⟨steps, past, s, place, answers, turn, run, course, hp⟩ :=
    Run.exists_handshake .sample false (Move.connectTo [.sample] ++ [.drop, .rejoin,
      .greeting 0 (.reply .done), .tick 700, .greeting 0 (.reply .done),
      .greeting 0 (.reply .done), .greeting 0 (.reply (.linkFault .subscribe))]) 6
    (fun steps answers turn s => decide (∀ t ∈ steps, t.after.Unrivalled) &&
      answers.length == 4 && turn == .finish (.error (.link .subscribe)) && !s.gateway.ready)
    (by decide +kernel)
  simp only [Bool.and_eq_true, decide_eq_true_eq, beq_iff_eq, Bool.not_eq_true'] at hp
  obtain ⟨⟨⟨alone, four⟩, rfl⟩, unready⟩ := hp
  obtain ⟨values, marked, conducted, readied⟩ := run.handshake_readies course
  exact ⟨steps, past, s, place, answers, values, run, course, alone, four, unready, marked,
    conducted, readied alone⟩

/-- A handshake that is refused nothing but the announcement fails with the gateway ready. One that
another handshake overlaps can succeed with the gateway unready. -/
theorem not_ready_iff_succeeded :
    (¬∀ steps past s place answers result, Run .sample (steps ++ past) s →
      Handshake .sample steps place answers (.finish result) →
      (∀ t ∈ steps, t.after.Unrivalled) → (s.gateway.ready = true ↔ result = .ok ())) ∧
    ¬∀ steps past s place answers result, Run .sample (steps ++ past) s →
      Handshake .sample steps place answers (.finish result) →
      (∀ t ∈ steps, t.after.gateway.busy = false) →
      (s.gateway.ready = true ↔ result = .ok ()) := by
  constructor
  · intro h
    obtain ⟨steps, past, s, place, answers, turn, run, course, hp⟩ :=
      Run.exists_handshake .sample true [.greet, .greeting 0 (.reply .done),
        .greeting 0 (.reply .done), .greeting 0 (.reply (.linkFault .publish))] 4
      (fun steps _ turn s => decide (∀ t ∈ steps, t.after.Unrivalled) &&
        turn == .finish (.error (.link .publish)) && s.gateway.ready)
      (by decide +kernel)
    simp only [Bool.and_eq_true, decide_eq_true_eq, beq_iff_eq] at hp
    obtain ⟨⟨alone, rfl⟩, ready⟩ := hp
    cases (h steps past s place answers _ run course alone).1 ready
  · intro h
    obtain ⟨steps, past, s, place, answers, turn, run, course, hp⟩ :=
      Run.exists_handshake .sample true [.greet, .greeting 0 (.reply .done),
        .greeting 0 (.reply .done), .greet, .greeting 0 (.reply .done)] 5
      (fun steps _ turn s => decide (∀ t ∈ steps, t.after.gateway.busy = false) &&
        turn == .finish (.ok ()) && !s.gateway.ready)
      (by decide +kernel)
    simp only [Bool.and_eq_true, decide_eq_true_eq, beq_iff_eq, Bool.not_eq_true'] at hp
    obtain ⟨⟨free, rfl⟩, unready⟩ := hp
    have ready := (h steps past s place answers _ run course free).2 rfl
    simp [unready] at ready

end

end GattGateway
