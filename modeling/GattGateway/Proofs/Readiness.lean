import GattGateway.Proofs.Coherence
import GattGateway.Proofs.Handshake
import GattGateway.Proofs.Marks

/-!
# What the readiness says

A gateway that is ready and can reach the broker should have its topics of commands subscribed on
the present link. Handshakes keep to this. The two loops keep to it exactly as long as they turn the
readiness on with all topics subscribed, and subscribe the topics of values on one link.
-/
namespace GattGateway

open Segment

def Startup.Stage.handshake? : Stage → Option Greeting.Stage
  | .greeting s => some s
  | _ => none

namespace System

/-- The handshakes in progress, the one of the startup among them. -/
def handshakes (s : System) : List Greeting.Stage :=
  (s.startup.bind Startup.Stage.handshake?).toList ++ s.greetings

theorem mem_handshakes {s : System} {stage : Greeting.Stage} : stage ∈ s.handshakes ↔
    s.startup.bind Startup.Stage.handshake? = some stage ∨ stage ∈ s.greetings := by
  simp [handshakes]

/-- A topic has been subscribed since the link last came up. -/
def confirmed (setup : Setup) (s : System) (name : TopicName) : Bool :=
  match setup.topics.topic name with
  | .ok topic => topic ∈ s.subscribed
  | .error _ => false

/-- While the broker can be reached, readiness means that all topics needed are subscribed. -/
def Sound (setup : Setup) (s : System) : Prop :=
  s.online = true → s.gateway.ready = true →
    ∀ name ∈ s.gateway.needed, s.confirmed setup name = true

end System

/-- Whether a move keeps to one handshake after each reconnect. -/
def Move.isTended : Move → Bool
  | .restore => false
  | .greet => false
  | _ => true

/-- The broker is greeted once after each reconnect, and never twice at a time. -/
structure Tended (past : List Step) (s : System) : Prop where
  moves : ∀ t ∈ past, t.move.isTended = true
  single : ∀ t ∈ Run.states past s, t.handshakes.length ≤ 1

namespace Step

/-- One of the loops turns the readiness on although a topic is missing on the link. -/
structure RecoversEarly (setup : Setup) (t : Step) : Prop where
  loop : (∃ w, t.move = .autoscan w) ∨ ∃ w, t.move = .serving w
  online : t.after.online = true
  turned : t.before.gateway.ready = false ∧ t.after.gateway.ready = true
  missing : ∃ name ∈ t.after.gateway.needed, t.after.confirmed setup name = false

/-- A ready gateway has the topic of read commands subscribed on a link where that of write commands
is missing. -/
structure CompletesEarly (setup : Setup) (t : Step) : Prop where
  completes : ∃ w, t.move = .serving w ∧ t.before.serving.Completes w
  online : t.after.online = true
  ready : t.before.gateway.ready = true ∧ t.after.gateway.ready = true
  values : t.after.gateway.valueTopics = true
  missing : t.after.confirmed setup .writeFilter = false

end Step

variable {setup : Setup} {past : List Step} {s s' : System} {m : Move} {told : List Event}

/-! ## Replies of the broker -/

namespace System

variable {call? : Option Call} {w : Wake} {name : TopicName}

theorem answered_online (h : call? ≠ some .openLink) : (s.answered call? w).online = s.online := by
  unfold answered
  split
  · exact absurd rfl h
  · split <;> rfl
  · rfl

theorem confirmed_answered (h : call? ≠ some .openLink) (hc : s.confirmed setup name = true) :
    (s.answered call? w).confirmed setup name = true := by
  unfold answered
  split
  · exact absurd rfl h
  · split
    · unfold confirmed at hc ⊢
      split at hc
      · simp_all
      · cases hc
    · exact hc
  · exact hc

theorem confirmed_subscribe {topic : Topic} {r : Reply} (ht : setup.topics.topic name = .ok topic)
    (hr : r.link = .ok ()) :
    (s.answered (some (.subscribe topic)) (.reply r)).confirmed setup name = true := by
  simp [answered, hr, confirmed, ht]

end System

/-! ## What every move keeps -/

/-- What is known of the handshakes, of the subscriptions at hand and of the readiness. -/
structure System.Tracked (setup : Setup) (s : System) : Prop where
  handshakes : ∀ stage ∈ s.handshakes,
    stage.Rests setup.topics fun name => s.online = true → s.confirmed setup name = true
  serving : s.serving.Named setup.topics
  sound : s.Sound setup

namespace System

theorem tracked_initial (online : Bool) : (initial online).Tracked setup where
  handshakes := nofun
  serving := trivial
  sound := fun _ hr => nomatch hr

/-- What changes neither the flags nor the view of the broker. -/
theorem Tracked.frame (h : s.Tracked setup) (hh : s'.handshakes = s.handshakes)
    (ho : s'.online = s.online) (hs : s'.subscribed = s.subscribed)
    (hserving : s'.serving = s.serving) (hr : s'.gateway.ready = s.gateway.ready)
    (hv : s'.gateway.valueTopics = s.gateway.valueTopics) : s'.Tracked setup where
  handshakes := by
    simp only [hh, ho, confirmed, hs]
    exact h.handshakes
  serving := by
    rw [hserving]
    exact h.serving
  sound := by
    simp only [Sound, ho, hr, Gateway.needed, hv, confirmed, hs]
    exact h.sound

theorem call?_ne_openLink (stage : Greeting.Stage) : stage.call? ≠ some .openLink := by
  cases stage <;> simp [Greeting.Stage.call?]

theorem Tracked.named {call? : Option Call} {w : Wake} {s₁ : System} (h : s.Tracked setup)
    (hs₁ : s.answered call? w = s₁) : s₁.serving.Named setup.topics := by
  rw [← hs₁, answered_serving]
  exact h.serving

/-- What a handshake rests on still holds after a reply to some other call than for the link. -/
theorem Tracked.rests {call? : Option Call} {w : Wake} {s₁ : System} {stage : Greeting.Stage}
    (h : s.Tracked setup) (hcall : call? ≠ some .openLink) (hs₁ : s.answered call? w = s₁)
    (hs : stage ∈ s.handshakes) :
    stage.Rests setup.topics fun name => s₁.online = true → s₁.confirmed setup name = true := by
  obtain ⟨hnamed, hdone⟩ := h.handshakes stage hs
  subst hs₁
  refine ⟨hnamed, fun name hn ho => confirmed_answered hcall (hdone name hn ?_)⟩
  rwa [answered_online hcall] at ho

/-- One segment of a handshake, after the reply to its call. -/
theorem Tracked.handshake {stage : Greeting.Stage} {w : Wake} (h : s.Tracked setup)
    (hs : stage ∈ s.handshakes) {s₁ : System} (hs₁ : s.answered stage.call? w = s₁) :
    (Greeting.resume (s₁.moment setup) s.gateway stage w).Ends
      (fun g' stage' => { s₁ with gateway := g' }.Sound setup ∧
        stage'.Rests setup.topics fun name => s₁.online = true → s₁.confirmed setup name = true)
      fun g' _ => { s₁ with gateway := g' }.Sound setup := by
  have hcall := call?_ne_openLink stage
  have honline : s₁.online = s.online := hs₁ ▸ answered_online hcall
  have hmono {name : TopicName} (hc : s.confirmed setup name = true) :
      s₁.confirmed setup name = true := hs₁ ▸ confirmed_answered hcall hc
  have hrests := h.rests hcall hs₁ hs
  have hnew (name topic r) (hsub : stage = .subscribing name topic) (hw : w = .reply r)
      (hr : r.link = .ok ()) : s₁.online = true → s₁.confirmed setup name = true := by
    subst hsub hw hs₁
    exact fun _ => confirmed_subscribe hrests.named.1 hr
  have hsound {g' : Gateway} (hk : Greeting.Kept s.gateway g')
      (hv : Greeting.Vouches (fun name => s₁.online = true → s₁.confirmed setup name = true)
        s.gateway g') : { s₁ with gateway := g' }.Sound setup := by
    intro ho hr name hn
    rcases hv hr with hr | hall
    · have hn' : name ∈ s.gateway.needed := by
        rw [hk] at hn
        exact hn
      exact hmono (h.sound (honline ▸ ho) hr name hn')
    · exact hall name hn ho
  exact ((Greeting.resume_rests (m := s₁.moment setup) hrests hnew).and Greeting.resume_ends).imp
    (fun g' stage' he => ⟨hsound he.2 he.1.1, he.1.2⟩) fun g' _ he => hsound he.2 he.1

/-- A handshake that runs beside the loops. -/
theorem Tracked.greeting {i : Nat} {stage : Greeting.Stage} {w : Wake} {s₁ : System}
    {segment : Segment Greeting.Stage Greeting.Result} (h : s.Tracked setup)
    (present : s.greetings[i]? = some stage) (hs₁ : s.answered stage.call? w = s₁)
    (ran : Greeting.resume (s₁.moment setup) s.gateway stage w = segment) :
    { s₁ with
      gateway := segment.gateway
      greetings := match segment.turn.stage? with
        | some next => s.greetings.set i next
        | none => s.greetings.eraseIdx i }.Tracked setup := by
  have hmem : stage ∈ s.handshakes := mem_handshakes.2 (.inr (List.mem_of_getElem? present))
  have hend := h.handshake hmem hs₁
  have hother {other : Greeting.Stage} (ho : other ∈ s.handshakes) :=
    h.rests (call?_ne_openLink stage) hs₁ ho
  have hserving := h.named hs₁
  have hstartup : s₁.startup = s.startup := by rw [← hs₁, answered_startup]
  rw [ran] at hend
  rcases segment with ⟨g', turn, events⟩
  cases turn with
  | wait next =>
    obtain ⟨hsound, hnext⟩ := hend
    refine ⟨fun other ho => ?_, hserving, hsound⟩
    rcases mem_handshakes.1 ho with ho | ho
    · exact hother (mem_handshakes.2 (.inl (hstartup ▸ ho)))
    · rcases List.mem_or_eq_of_mem_set ho with ho | rfl
      · exact hother (mem_handshakes.2 (.inr ho))
      · exact hnext
  | finish result =>
    refine ⟨fun other ho => ?_, hserving, hend⟩
    rcases mem_handshakes.1 ho with ho | ho
    · exact hother (mem_handshakes.2 (.inl (hstartup ▸ ho)))
    · exact hother (mem_handshakes.2 (.inr (List.mem_of_mem_eraseIdx ho)))

/-- A handshake that has just begun, beside no other. -/
theorem tracked_of_begin {topic : Topic} (ht : setup.topics.topic .connect = .ok topic)
    (hs : .subscribing .connect topic ∈ s.handshakes) (hsingle : s.handshakes.length ≤ 1)
    (hserving : s.serving.Named setup.topics) (hr : s.gateway.ready = false) :
    s.Tracked setup where
  handshakes other ho := by
    have : other = .subscribing .connect topic := by
      match hh : s.handshakes, hsingle with
      | [], _ => simp [hh] at ho
      | [only], _ => simp_all
    subst this
    exact ⟨⟨ht, by simp⟩, nofun⟩
  serving := hserving
  sound := by
    intro _ hready
    simp [hr] at hready

/-- The startup while it greets the broker. -/
theorem Tracked.startup_greeting {stage : Greeting.Stage} {w : Wake} {s₁ : System}
    {segment : Segment Startup.Stage Unit} (h : s.Tracked setup)
    (present : s.startup = some (.greeting stage)) (hs₁ : s.answered stage.call? w = s₁)
    (ran : Startup.settle (s₁.moment setup) (Greeting.resume (s₁.moment setup) s.gateway stage w)
      = segment) :
    { s₁ with gateway := segment.gateway, startup := segment.turn.stage? }.Tracked setup := by
  have hmem : stage ∈ s.handshakes := mem_handshakes.2 (.inl (by rw [present]; rfl))
  have hend : segment.Ends
      (fun g' stage' => { s₁ with gateway := g' }.Sound setup ∧
        ∀ next, stage'.handshake? = some next → next.Rests setup.topics
          fun name => s₁.online = true → s₁.confirmed setup name = true)
      fun g' _ => { s₁ with gateway := g' }.Sound setup := by
    rw [← ran]
    refine (h.handshake hmem hs₁).andThen (fun g' next hn => ⟨hn.1, ?_⟩) fun g' result hn => ?_
    · rintro _ ⟨rfl⟩
      exact hn.2
    · cases result with
      | ok _ => exact hn
      | error e => exact ⟨hn, nofun⟩
  have hother {other : Greeting.Stage} (ho : other ∈ s₁.greetings) := by
    rw [← hs₁, answered_greetings] at ho
    exact h.rests (call?_ne_openLink stage) hs₁ (mem_handshakes.2 (.inr ho))
  have hserving := h.named hs₁
  rcases segment with ⟨g', turn, events⟩
  cases turn with
  | wait next =>
    obtain ⟨hsound, hnext⟩ := hend
    refine ⟨fun other ho => ?_, hserving, hsound⟩
    rcases mem_handshakes.1 ho with ho | ho
    · exact hnext other ho
    · exact hother ho
  | finish result =>
    refine ⟨fun other ho => ?_, hserving, hend⟩
    rcases mem_handshakes.1 ho with ho | ho
    · cases ho
    · exact hother ho

theorem Tracked.startup {stage : Startup.Stage} {w : Wake} {s₁ : System}
    {segment : Segment Startup.Stage Unit} (h : s.Tracked setup) (present : s.startup = some stage)
    (hs₁ : s.answered stage.call? w = s₁)
    (ran : Startup.resume (s₁.moment setup) s.gateway stage w = segment)
    (single : { s₁ with
      gateway := segment.gateway, startup := segment.turn.stage? }.handshakes.length ≤ 1) :
    { s₁ with gateway := segment.gateway, startup := segment.turn.stage? }.Tracked setup := by
  -- Where the startup greets nobody, neither before nor after, nothing has happened.
  have rests {stage' : Startup.Stage} (hg : segment = .wait s.gateway stage')
      (hb : stage.handshake? = none) (ha : stage'.handshake? = none) (hs : s₁ = s) :
      { s₁ with gateway := segment.gateway, startup := segment.turn.stage? }.Tracked setup := by
    subst hg hs
    refine h.frame ?_ rfl rfl rfl rfl rfl
    simp [System.handshakes, present, hb, ha, wait, Turn.stage?]
  cases stage with
  | starting =>
    subst hs₁
    cases w with
    | signal => exact rests ran.symm rfl rfl rfl
    | reply r => exact rests ran.symm rfl rfl rfl
    | timeout => exact rests ran.symm rfl rfl rfl
  | joining =>
    cases w with
    | reply r =>
      cases hr : r.link with
      | ok _ =>
        obtain ⟨topic, ht, hb⟩ := Greeting.begin_eq (s₁.moment setup) s.gateway
        have hg : segment = .wait { s.gateway with ready := false }
            (.greeting (.subscribing .connect topic)) := by
          rw [← ran]
          simp [Startup.resume, hr, hb, Startup.settle, andThen, wait]
        have hserving := h.named hs₁
        subst hg
        exact tracked_of_begin ht (mem_handshakes.2 (.inl rfl)) single hserving rfl
      | error e =>
        have hs : s₁ = s := by
          rw [← hs₁]
          simp [Startup.Stage.call?, answered, hr]
        simp only [Startup.resume, hr, Startup.rest] at ran
        exact rests ran.symm rfl rfl hs
    | signal =>
      subst hs₁
      exact rests ran.symm rfl rfl rfl
    | timeout =>
      subst hs₁
      exact rests ran.symm rfl rfl rfl
  | greeting stage => exact h.startup_greeting present hs₁ ran
  | resting deadline =>
    subst hs₁
    cases w with
    | signal => exact rests ran.symm rfl rfl rfl
    | reply r => exact rests ran.symm rfl rfl rfl
    | timeout => exact rests ran.symm rfl rfl rfl

/-! ## The loops -/

/-- What becomes of the flags in a step of a loop that turns the readiness on in time only. -/
theorem Tracked.loop {loop : Move} (h : s.Tracked setup)
    (hloop : (∃ w, loop = .autoscan w) ∨ ∃ w, loop = .serving w)
    (hn : ¬Step.RecoversEarly setup ⟨s, loop, told, s'⟩) (hh : s'.handshakes = s.handshakes)
    (ho : s'.online = s.online)
    (hc : ∀ name, s.confirmed setup name = true → s'.confirmed setup name = true)
    (hserving : s'.serving.Named setup.topics)
    (hneeded : s.gateway.ready = true → s'.online = true → s'.gateway.ready = true →
      ∀ name ∈ s'.gateway.needed, s'.confirmed setup name = true) : s'.Tracked setup where
  handshakes stage hs := by
    obtain ⟨hnamed, hdone⟩ := h.handshakes stage (hh ▸ hs)
    exact ⟨hnamed, fun name hname honline => hc name (hdone name hname (ho ▸ honline))⟩
  serving := hserving
  sound honline hready name hname := by
    cases hr : s.gateway.ready with
    | true => exact hneeded hr honline hready name hname
    | false =>
      by_contra hmissing
      exact hn ⟨hloop, honline, ⟨hr, hready⟩, name, hname, by simpa using hmissing⟩

theorem needed_mono {g g' : Gateway} (h : g'.valueTopics = true → g.valueTopics = true)
    {name : TopicName} (hname : name ∈ g'.needed) : name ∈ g.needed := by
  rw [Gateway.mem_needed] at hname ⊢
  exact hname.imp id (Or.imp id (And.imp h id))

theorem serving_call?_ne_openLink (stage : Serving.Stage) : stage.call? ≠ some .openLink := by
  have teardown (s : Teardown.Stage) : s.call? ≠ some .openLink := by
    cases s <;> simp [Teardown.Stage.call?]
  cases stage with
  | clearing peer s => exact teardown s
  | dialling peer s => cases s <;> simp [Serving.Stage.call?, Dial.Stage.call?]
  | unwinding e s => exact teardown s
  | leaving s => exact teardown s
  | _ => simp [Serving.Stage.call?]

theorem Tracked.moved (h : s.Tracked setup) (hcoherent : s.Coherent)
    (hm : Moved setup s m s' told) (tended : m.isTended = true)
    (single : s'.handshakes.length ≤ 1) (hr : ¬Step.RecoversEarly setup ⟨s, m, told, s'⟩)
    (hv : ¬Step.CompletesEarly setup ⟨s, m, told, s'⟩) : s'.Tracked setup := by
  cases hm with
  | startup present woken ran => exact h.startup present rfl ran single
  | greeting present woken ran => exact h.greeting present rfl ran
  | @autoscan w segment up woken ran =>
    have hk := (hcoherent.autoscan_kept (.autoscan up woken ran)).2
    refine h.loop (.inl ⟨w, rfl⟩) hr rfl rfl (fun _ hc => hc) h.serving
      fun hready honline _ name hname => ?_
    refine h.sound honline hready name (needed_mono (fun hvalues => ?_) hname)
    rw [hk.rest] at hvalues
    exact hvalues
  | @serving w segment up woken ran =>
    have hcall := serving_call?_ne_openLink s.serving
    have hmarks := Serving.resume_marks (m := (s.answered s.serving.call? w).moment setup)
      (g := s.gateway) (w := w) h.serving
    rw [ran] at hmarks
    refine h.loop (.inr ⟨w, rfl⟩) hr (by simp [System.handshakes]) (answered_online hcall)
      (fun name hc => confirmed_answered hcall hc) ?_ fun hready honline hready' name hname => ?_
    · rcases hmarks with hmarks | ⟨-, hmarks⟩
      · exact hmarks.named
      · exact hmarks.named
    · have hold (hname : name ∈ s.gateway.needed) :=
        confirmed_answered (w := w) hcall
          (h.sound ((answered_online hcall).symm.trans honline) hready name hname)
      rcases hmarks with hmarks | ⟨hcompletes, -⟩
      · exact hold (needed_mono hmarks.values hname)
      · rcases Gateway.mem_needed.1 hname with rfl | rfl | ⟨hvalues, rfl | rfl⟩
        · exact hold (Gateway.mem_needed.2 (.inl rfl))
        · exact hold (Gateway.mem_needed.2 (.inr (.inl rfl)))
        · by_contra hmissing
          exact hv ⟨⟨w, rfl, hcompletes⟩, honline, ⟨hready, hready'⟩, hvalues,
            by simpa using hmissing⟩
        · obtain ⟨peer, ds, topic, r, hs, rfl, hok⟩ := hcompletes
          have hserving := h.serving
          rw [hs] at hserving
          simp only [hs]
          exact confirmed_subscribe hserving.1 hok
  | @worker _ _ segment up woken ran =>
    have hk : segment.Leads fun g' _ _ => Forwarding.Kept s.gateway g' :=
      ran ▸ Forwarding.resume_leads
    exact h.frame rfl rfl rfl rfl (by rw [hk.rest]) (by rw [hk.rest])
  | hear r => exact h.frame rfl rfl rfl rfl rfl rfl
  | message inbox => exact h.frame rfl rfl rfl rfl rfl rfl
  | drop =>
    refine ⟨fun stage hs => ?_, h.serving, nofun⟩
    exact ⟨(h.handshakes stage hs).named, fun _ _ ho => nomatch ho⟩
  | restore offline => cases tended
  | greet => cases tended
  | rejoin offline =>
    obtain ⟨topic, ht, hb⟩ := Greeting.begin_eq (s.reconnect.moment setup) s.reconnect.gateway
    simp only [System.greet, hb] at single ⊢
    exact tracked_of_begin ht (mem_handshakes.2 (.inr (by simp [wait, Turn.stage?]))) single
      h.serving rfl
  | peers alive => exact h.frame rfl rfl rfl rfl rfl rfl
  | tick d => exact h.frame rfl rfl rfl rfl rfl rfl

end System

/-! ## Every state of a run -/

theorem Tended.of_mem_states {t : System} {earlier : List Step} (h : Tended past s)
    (ht : t ∈ Run.states past s) (hs : earlier <:+ past) : Tended earlier t where
  moves u hu := h.moves u (hs.subset hu)
  single u hu := by
    rcases List.mem_cons.1 hu with rfl | hu
    · exact h.single u ht
    · obtain ⟨v, hv, rfl⟩ := List.mem_map.1 hu
      exact h.single _ (List.mem_cons_of_mem _ (List.mem_map_of_mem (hs.subset hv)))

theorem Run.tracked (h : Run setup past s) (ht : Tended past s)
    (hn : ∀ t ∈ past, ¬t.RecoversEarly setup ∧ ¬t.CompletesEarly setup) : s.Tracked setup := by
  induction h with
  | start online => exact System.tracked_initial online
  | step run moved ih =>
    obtain ⟨hr, hv⟩ := hn _ List.mem_cons_self
    have ht' := ht.of_mem_states (List.mem_cons_of_mem _ List.mem_cons_self) (List.suffix_cons _ _)
    exact (ih ht' fun t hmem => hn t (List.mem_cons_of_mem _ hmem)).moved run.coherent
      (System.moved_of_move? moved) (ht.moves _ List.mem_cons_self) (ht.single _ List.mem_cons_self)
      hr hv

/-- Readiness is sound in all states of a run exactly if no loop turns it on with a topic missing,
and none subscribes the topics of values one on each side of a reconnect. -/
theorem Run.sound_iff (h : Run setup past s) (ht : Tended past s) :
    (∀ t ∈ Run.states past s, t.Sound setup) ↔
      ∀ t ∈ past, ¬t.RecoversEarly setup ∧ ¬t.CompletesEarly setup := by
  constructor
  · intro hs t hmem
    have hsound := hs _ (h.after_mem_states hmem)
    refine ⟨fun hr => ?_, fun hv => ?_⟩
    · obtain ⟨name, hname, hmissing⟩ := hr.missing
      have := hsound hr.online hr.turned.2 name hname
      simp [hmissing] at this
    · have hname : .writeFilter ∈ t.after.gateway.needed :=
        Gateway.mem_needed.2 (.inr (.inr ⟨hv.values, .inl rfl⟩))
      have := hsound hv.online hv.ready.2 _ hname
      simp [hv.missing] at this
  · intro hn t hmem
    obtain ⟨earlier, run, hsuffix⟩ := h.of_mem_states hmem
    exact (run.tracked (ht.of_mem_states hmem hsuffix) fun u hu => hn u (hsuffix.subset hu)).sound

/-! ## A link that is lost during a scan -/

/-- The link is lost and comes up again during a scan, and the recovery after the scan finds it up
while the handshake still waits for its first subscription. -/
def earlyRecovery : List Move :=
  [.startup .signal, .startup (.reply .done), .startup (.reply .done), .startup (.reply .done),
    .startup (.reply .done), .autoscan .signal, .autoscan (.reply .done), .drop, .rejoin,
    .tick 8500, .autoscan .timeout, .autoscan (.reply .done), .autoscan (.reply .done)]

/-- The link is lost and comes up again between the two subscriptions of a connect sequence. -/
def lateCompletion : List Move :=
  [.startup .signal, .startup (.reply .done), .startup (.reply .done), .startup (.reply .done),
    .startup (.reply .done),
    .message "ble/gateway/connect" (Text.utf8 "\x7b\"address\":\"00:11:22:33:44:55\"\x7d"),
    .serving .signal, .serving (.reply .done), .serving (.reply (.connection 1)),
    .serving (.reply (.characteristics [])), .serving (.reply .done), .drop, .rejoin,
    .greeting 0 (.reply .done), .greeting 0 (.reply .done), .greeting 0 (.reply .done),
    .serving (.reply .done)]

/-- Whether a run keeps to one handshake after each reconnect. -/
def isTended (past : List Step) (s : System) : Bool :=
  past.all (·.move.isTended) && (Run.states past s).all (·.handshakes.length ≤ 1)

theorem tended_of_isTended (h : isTended past s = true) : Tended past s := by
  simp only [isTended, Bool.and_eq_true, List.all_eq_true, decide_eq_true_eq] at h
  exact ⟨h.1, h.2⟩

theorem earlyRecovery_unsound : ∃ past s, Run .sample past s ∧ Tended past s ∧
    s.online = true ∧ s.gateway.ready = true ∧ s.confirmed .sample .connect = false := by
  have hm : (System.trace? .sample [] (.initial false) earlyRecovery).any
      (fun (past, s) => isTended past s && s.online && s.gateway.ready &&
        !s.confirmed .sample .connect) = true := by
    decide +kernel
  obtain ⟨past, s, run, hs⟩ := Run.exists_of_any hm
  simp only [Bool.and_eq_true, Bool.not_eq_true'] at hs
  obtain ⟨⟨⟨ht, ho⟩, hr⟩, hc⟩ := hs
  exact ⟨past, s, run, tended_of_isTended ht, ho, hr, hc⟩

theorem lateCompletion_unsound : ∃ past s, Run .sample past s ∧ Tended past s ∧
    s.online = true ∧ s.gateway.ready = true ∧ s.gateway.valueTopics = true ∧
      s.confirmed .sample .writeFilter = false := by
  have hm : (System.trace? .sample [] (.initial false) lateCompletion).any
      (fun (past, s) => isTended past s && s.online && s.gateway.ready && s.gateway.valueTopics &&
        !s.confirmed .sample .writeFilter) = true := by
    decide +kernel
  obtain ⟨past, s, run, hs⟩ := Run.exists_of_any hm
  simp only [Bool.and_eq_true, Bool.not_eq_true'] at hs
  obtain ⟨⟨⟨⟨ht, ho⟩, hr⟩, hv⟩, hc⟩ := hs
  exact ⟨past, s, run, tended_of_isTended ht, ho, hr, hv, hc⟩

theorem not_always_sound : ¬∀ past s, Run .sample past s → Tended past s → s.Sound .sample := by
  intro h
  obtain ⟨past, s, run, ht, ho, hr, hc⟩ := earlyRecovery_unsound
  have := h past s run ht ho hr .connect (Gateway.mem_needed.2 (.inl rfl))
  simp [hc] at this

theorem earlyRecovery_recovers : ∃ past s, Run .sample past s ∧ Tended past s ∧
    ∃ t ∈ past, t.RecoversEarly .sample ∨ t.CompletesEarly .sample := by
  obtain ⟨past, s, run, ht, ho, hr, hc⟩ := earlyRecovery_unsound
  refine ⟨past, s, run, ht, ?_⟩
  by_contra hn
  have hsound := (run.sound_iff ht).2
    (fun t hmem => not_or.1 fun he => hn ⟨t, hmem, he⟩) s List.mem_cons_self
  have := hsound ho hr .connect (Gateway.mem_needed.2 (.inl rfl))
  simp [hc] at this

end GattGateway
