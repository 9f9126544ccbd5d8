import GattGateway.Proofs.Discovery
import GattGateway.Proofs.Workers

/-!
# What workers subscribe to

After a connect command the characteristics to forward are chosen by what was announced of each of
them, and each is subscribed to by what the session reaches under its identifier. The two agree
unless an identifier stands for a characteristic that can push and, behind it, for one that cannot.
-/
namespace GattGateway

open Segment

/-- A subscription of this kind suits a characteristic: it can push, by notifications if it offers
them, and by indications only if it offers nothing but those. -/
structure Characteristic.Suits (c : Characteristic) (indicate : Bool) : Prop where
  pushes : c.properties.pushes = true
  notified : c.properties.has .notify = true → indicate = false
  indicated : indicate = true →
    c.properties.has .indicate = true ∧ c.properties.has .notify = false

theorem Characteristic.suits_iff (c : Characteristic) :
    c.Suits (!c.properties.has .notify) ↔ c.properties.pushes = true := by
  refine ⟨Suits.pushes, fun h => ⟨h, by simp, fun hi => ?_⟩⟩
  have unnotified : c.properties.has .notify = false := by simpa using hi
  exact ⟨by simpa [Properties.pushes, unnotified] using h, unnotified⟩

/-- A subscription is for an identifier under which a characteristic that can push was discovered,
and on the characteristic that the identifier reaches. -/
structure Subscription.Stems (sub : Subscription) (cs : List Characteristic) : Prop where
  chosen : ∃ d ∈ cs, d.properties.pushes = true ∧ d.uuid.canonical = sub.uuid
  reached : ∃ c, reached? cs sub.uuid = some c ∧ sub.handle = c.handle ∧
    sub.indicate = !c.properties.has .notify

/-- What has been discovered, and on which connection. -/
abbrev Discoveries := List (Connection × List Characteristic)

def Subscription.StemsFrom (sub : Subscription) (found : Discoveries) : Prop :=
  ∃ cs, (sub.connection, cs) ∈ found ∧ sub.Stems cs

/-- Whatever has been handed to a worker stems from a discovery. -/
def Gateway.Stems (g : Gateway) (found : Discoveries) : Prop :=
  ∀ w sub, (g.slot w).assigned = some sub → sub.StemsFrom found

/-- The announced characteristics are those of the session. -/
def Gateway.Lists (g : Gateway) (found : Discoveries) (ds : List Descriptor) : Prop :=
  ∃ c cs, (c, cs) ∈ found ∧ g.session = some (.ofDiscovery c cs) ∧ ds = cs.map (·.descriptor)

/-- What is still to be handed out is what the session was made of. -/
def Serving.Stage.Lists (g : Gateway) (found : Discoveries) : Serving.Stage → Prop
  | .recovering _ (.ok ds) _ => g.Lists found ds
  | .subscribing _ ds _ _ => g.Lists found ds
  | _ => True

variable {found : Discoveries} {m : Moment} {w : Wake} {g g' : Gateway}

theorem Subscription.StemsFrom.imp {sub : Subscription} {found' : Discoveries}
    (h : sub.StemsFrom found) (hf : found ⊆ found') : sub.StemsFrom found' := by
  obtain ⟨cs, hc, stems⟩ := h
  exact ⟨cs, hf hc, stems⟩

theorem Gateway.Lists.imp {ds : List Descriptor} {found' : Discoveries} (h : g.Lists found ds)
    (hf : found ⊆ found') : g.Lists found' ds := by
  obtain ⟨c, cs, hc, rest⟩ := h
  exact ⟨c, cs, hf hc, rest⟩

theorem Gateway.Lists.of_session {ds : List Descriptor} (h : g.Lists found ds)
    (hs : g'.session = g.session) : g'.Lists found ds := by
  unfold Gateway.Lists
  rw [hs]
  exact h

/-- A gateway whose slots hold nothing but what they held. -/
theorem Gateway.Stems.of_assigned (h : g.Stems found)
    (ha : ∀ w, (g'.slot w).assigned = (g.slot w).assigned) : g'.Stems found :=
  fun w sub hs => h w sub ((ha w).symm.trans hs)

theorem Gateway.Stems.of_slots (h : g.Stems found) (hs : g'.slots = g.slots) : g'.Stems found :=
  h.of_assigned fun w => by simp only [Gateway.slot, hs]

theorem Gateway.Stems.setSlot {i : Worker} {s : Slot} (h : g.Stems found)
    (hs : ∀ sub, s.assigned = some sub → sub.StemsFrom found) : (g.setSlot i s).Stems found := by
  intro v sub hv
  rw [slot_setSlot] at hv
  split_ifs at hv
  · exact hs sub hv
  · exact h v sub hv

/-! ## Handing out -/

/-- What is handed to a worker is on the characteristic that its identifier reaches. -/
theorem Gateway.forward?_reaches {uuid : CanonicalUuid} {connection : Connection}
    {cs : List Characteristic} (hs : g.session = some (.ofDiscovery connection cs))
    (h : g.forward? uuid = some g') :
    ∃ i c, reached? cs uuid = some c ∧
      g' = g.setSlot i (.assign ⟨connection, c.handle, uuid, !c.properties.has .notify⟩) := by
  unfold forward? at h
  rw [lookup?_eq hs] at h
  cases hc : reached? cs uuid with
  | none => simp [hc] at h
  | some c =>
    simp only [hc, Option.map_some] at h
    split_ifs at h
    cases hi : workers.find? fun i => (g.slot i).isIdle with
    | none => simp [hi] at h
    | some i =>
      simp only [hi, Option.some.injEq] at h
      exact ⟨i, c, rfl, h.symm⟩

theorem Gateway.Stems.forwardAll {ds : List Descriptor} {connection : Connection}
    {cs : List Characteristic} (h : g.Stems found) (hc : (connection, cs) ∈ found)
    (hs : g.session = some (.ofDiscovery connection cs))
    (hds : ∀ d ∈ ds, ∃ c ∈ cs, c.descriptor = d) : (g.forwardAll ds).Stems found := by
  induction ds generalizing g with
  | nil => exact h
  | cons d ds ih =>
    have hcons : g.forwardAll (d :: ds) =
        (if d.properties.pushes then (g.forward? d.uuid).getD g else g).forwardAll ds := rfl
    have rest := fun d hd => hds d (List.mem_cons_of_mem _ hd)
    rw [hcons]
    split_ifs with hp
    · cases hf : g.forward? d.uuid with
      | none => exact ih h hs rest
      | some g' =>
        obtain ⟨i, c, hr, rfl⟩ := forward?_reaches hs hf
        obtain ⟨e, he, rfl⟩ := hds d List.mem_cons_self
        refine ih (h.setSlot ?_) hs rest
        rintro sub ⟨⟩
        exact ⟨cs, hc, ⟨e, he, hp, rfl⟩, c, hr, rfl, rfl⟩
    · exact ih h hs rest

/-! ## Teardowns and attempts -/

theorem Gateway.assigned_setSlot {i : Worker} {s : Slot} (h : s.assigned = (g.slot i).assigned)
    (v : Worker) : ((g.setSlot i s).slot v).assigned = (g.slot v).assigned := by
  rw [slot_setSlot]
  split_ifs with hv
  · subst v
    exact h
  · rfl

theorem Teardown.Stops.assigned {first : Nat} {next : Option Stage} (h : Stops g first g' next)
    (v : Worker) : (g'.slot v).assigned = (g.slot v).assigned := by
  cases h with
  | stops forwarding before => exact Gateway.assigned_setSlot (by rfl) v
  | hangsUp session quiet => rfl
  | releases session last => rfl

theorem Teardown.Resumes.assigned {stage : Stage} {next : Option Stage}
    (h : Resumes g stage w g' next) (v : Worker) :
    (g'.slot v).assigned = (g.slot v).assigned := by
  cases h with
  | waits unanswered => rfl
  | stopped rest => exact (rest.assigned v).trans (Gateway.assigned_setSlot (by rfl) v)
  | late rest => exact (rest.assigned v).trans (Gateway.assigned_setSlot (by rfl) v)
  | hungUp last => rfl
  | off powered => rfl

theorem Gateway.Stems.teardown (h : g.Stems found) :
    (Teardown.begin m g).Ends (fun g' _ => g'.Stems found) fun g' _ => g'.Stems found :=
  ends_of_gateway (h.of_assigned Teardown.stopFrom_stops.assigned)

theorem Gateway.Stems.teardown_resume {stage : Teardown.Stage} (h : g.Stems found) :
    (Teardown.resume m g stage w).Ends (fun g' _ => g'.Stems found) fun g' _ => g'.Stems found :=
  ends_of_gateway (h.of_assigned Teardown.resume_resumes.assigned)

/-- An attempt that succeeds finds the characteristics of the session that it stores. -/
theorem Dial.resume_lists {stage : Stage}
    (new : ∀ x, w.discovered? stage.call? = some x → x ∈ found) :
    (resume m g stage w).Ends (fun _ _ => True)
      fun g' result => ∀ ds, result = .ok ds → g'.Lists found ds := by
  have fails {fault : Fault} : (fail g fault).Ends (fun _ _ => True)
      fun g' result => ∀ ds, result = .ok ds → g'.Lists found ds := by
    unfold fail
    dsimp only
    split_ifs
    · trivial
    · nofun
  cases w with
  | signal => cases stage <;> trivial
  | timeout =>
    cases stage with
    | calling peer deadline => exact fails
    | _ => trivial
  | reply r =>
    cases stage with
    | poweringUp peer =>
      simp only [resume]
      split
      · trivial
      · exact fails
    | calling peer deadline =>
      simp only [resume]
      split
      · trivial
      · exact fails
    | discovering connection =>
      simp only [resume]
      split
      · rename_i cs hr
        rintro ds ⟨⟩
        refine ⟨connection, cs, new _ ?_, rfl, rfl⟩
        simp [Wake.discovered?, Stage.call?, hr, Except.toOption]
      · trivial
    | closing connection fault => exact fails
    | poweringDown fault =>
      simp only [resume]
      split
      · nofun
      · nofun

/-! ## The serving loop -/

namespace Serving

theorem report_lists {fault : Fault} (h : g.Stems found) :
    (report m g fault).Leads fun g' _ stage => g'.Stems found ∧ stage.Lists g' found := by
  unfold report
  rw [leads_telling]
  split
  · exact ⟨h, trivial⟩
  · exact ⟨h, trivial⟩

theorem unwind_lists {fault : Fault} {s : Segment Teardown.Stage Unit} (silent : s.events = [])
    (h : s.Ends (fun g' _ => g'.Stems found) fun g' _ => g'.Stems found) :
    (unwind m fault s).Leads fun g' _ stage => g'.Stems found ∧ stage.Lists g' found :=
  h.leads silent (fun _ _ hs => ⟨hs, trivial⟩) fun _ _ hs => report_lists (hs.of_slots rfl)

theorem abandon_lists {fault : Fault} (h : g.Stems found) :
    (abandon m g fault).Leads fun g' _ stage => g'.Stems found ∧ stage.Lists g' found :=
  unwind_lists Teardown.begin_events h.teardown

theorem announce_lists {peer : Peer} {ds : List Descriptor} (h : g.Stems found)
    (hl : g.Lists found ds) :
    (announce m g peer ds).Leads fun g' _ stage => g'.Stems found ∧ stage.Lists g' found := by
  obtain ⟨c, cs, hc, hs, rfl⟩ := hl
  have handed := h.forwardAll hc hs fun d hd => List.mem_map.1 hd
  unfold announce
  dsimp only
  split
  · exact ⟨handed, trivial⟩
  · exact abandon_lists handed

theorem subscribeTo_lists {peer : Peer} {ds : List Descriptor} {name : TopicName}
    (h : g.Stems found) (hl : g.Lists found ds) :
    (subscribeTo m g peer ds name).Leads fun g' _ stage =>
      g'.Stems found ∧ stage.Lists g' found := by
  unfold subscribeTo
  split
  · exact ⟨h, hl⟩
  · exact abandon_lists h

theorem settle_lists {peer : Peer} {result : Dial.Result}
    {s : Segment Recovery.Stage Recovery.Outcome} (silent : s.events = []) (h : g.Stems found)
    (hl : ∀ ds, result = .ok ds → g.Lists found ds)
    (hs : s.Ends (fun g' _ => g.Aside g') fun g' _ => g.Aside g') :
    (settle m peer result s).Leads fun g' _ stage => g'.Stems found ∧ stage.Lists g' found := by
  refine hs.leads silent (fun g' _ ha => ⟨h.of_slots ha.slots, ?_⟩) fun g' outcome ha => ?_
  · cases result with
    | ok ds => exact (hl ds rfl).of_session ha.session
    | error fault => trivial
  · have stems := h.of_slots ha.slots
    cases result with
    | error fault => exact abandon_lists stems
    | ok ds =>
      have lists := (hl ds rfl).of_session ha.session
      dsimp only
      split_ifs
      · exact abandon_lists stems
      · exact announce_lists stems lists
      · exact subscribeTo_lists stems lists

theorem dial_lists {peer : Peer} {s : Segment Dial.Stage Dial.Result} (silent : s.events = [])
    (h : s.Ends (fun g' _ => g'.Stems found)
      fun g' result => g'.Stems found ∧ ∀ ds, result = .ok ds → g'.Lists found ds) :
    (dial m peer s).Leads fun g' _ stage => g'.Stems found ∧ stage.Lists g' found :=
  h.leads silent (fun _ _ hs => ⟨hs, trivial⟩) fun _ _ hr =>
    settle_lists Recovery.poll_events hr.1 hr.2
      (Recovery.begin_ends.imp (fun _ _ hk => hk.aside) fun _ _ hk => hk.aside)

theorem clear_lists {peer : Peer} {s : Segment Teardown.Stage Unit} (silent : s.events = [])
    (h : s.Ends (fun g' _ => g'.Stems found) fun g' _ => g'.Stems found) :
    (clear m peer s).Leads fun g' _ stage => g'.Stems found ∧ stage.Lists g' found :=
  h.leads silent (fun _ _ hs => ⟨hs, trivial⟩) fun _ _ hs =>
    dial_lists Dial.begin_events (Dial.begin_bond.imp
      (fun _ _ hb => by rw [hb.1]; exact hs.of_slots rfl)
      fun _ _ hb => ⟨by rw [hb.1]; exact hs.of_slots rfl, by rw [hb.2]; nofun⟩)

theorem acquire_lists {peer : Peer} {wasPaused : Bool} {giveUp : Instant} (h : g.Stems found) :
    (acquire m g peer wasPaused giveUp).Leads fun g' _ stage =>
      g'.Stems found ∧ stage.Lists g' found := by
  unfold acquire
  split_ifs
  · exact clear_lists Teardown.begin_events
      (Gateway.Stems.teardown (g := { g with busy := true }) (h.of_slots rfl))
  · exact report_lists (h.of_slots rfl)
  · exact ⟨h, trivial⟩

theorem send_lists {name : TopicName} {payload : Text.Bytes} {next : Message → Stage}
    (h : g.Stems found) (hn : ∀ message g', (next message).Lists g' found) :
    (send m g name payload next).Leads fun g' _ stage =>
      g'.Stems found ∧ stage.Lists g' found := by
  unfold send
  split
  · exact ⟨h, hn _ _⟩
  · exact report_lists h

theorem leave_lists {s : Segment Teardown.Stage Unit} (silent : s.events = [])
    (h : s.Ends (fun g' _ => g'.Stems found) fun g' _ => g'.Stems found) :
    (leave m s).Leads fun g' _ stage => g'.Stems found ∧ stage.Lists g' found :=
  h.leads silent (fun _ _ hs => ⟨hs, trivial⟩) fun _ _ hs =>
    send_lists (hs.of_slots rfl) fun _ _ => trivial

theorem answer_lists {uuid : CanonicalUuid} {value : Text.Bytes} (h : g.Stems found) :
    (answer m g uuid value).Leads fun g' _ stage => g'.Stems found ∧ stage.Lists g' found :=
  send_lists h fun _ _ => trivial

theorem dispatch_lists {r : Request} (h : g.Stems found) :
    (dispatch m g r).Leads fun g' _ stage => g'.Stems found ∧ stage.Lists g' found := by
  unfold dispatch
  split
  · exact ⟨h, trivial⟩
  · rename_i command _
    cases command with
    | connect peer => exact acquire_lists (h.of_slots rfl)
    | disconnect => exact leave_lists Teardown.begin_events h.teardown
    | write uuid data =>
      simp only [handle]
      split
      · exact ⟨h, trivial⟩
      · exact ⟨h, trivial⟩
    | read uuid =>
      simp only [handle]
      split
      · exact ⟨h, trivial⟩
      · exact answer_lists h
  · exact report_lists h

theorem resume_lists {stage : Stage} (h : g.Stems found) (hl : stage.Lists g found)
    (new : ∀ x, w.discovered? stage.call? = some x → x ∈ found) :
    (resume m g stage w).Leads fun g' _ stage => g'.Stems found ∧ stage.Lists g' found := by
  cases stage with
  | receiving =>
    cases w with
    | signal =>
      simp only [resume]
      split
      · exact dispatch_lists (h.of_slots rfl)
      · exact ⟨h, trivial⟩
    | reply r => exact ⟨h, trivial⟩
    | timeout => exact ⟨h, trivial⟩
  | acquiring peer wasPaused giveUp deadline =>
    cases w with
    | timeout => exact acquire_lists h
    | signal => exact ⟨h, trivial⟩
    | reply r => exact ⟨h, trivial⟩
  | clearing peer s => exact clear_lists Teardown.resume_events h.teardown_resume
  | dialling peer s =>
    refine dial_lists Dial.resume_events ((Dial.resume_bond.and (Dial.resume_lists new)).imp ?_ ?_)
    · exact fun _ _ hb => h.of_slots hb.1.2
    · exact fun _ _ hb => ⟨h.of_slots hb.1.2, hb.2⟩
  | recovering peer result s =>
    refine settle_lists Recovery.resume_events h ?_
      (Recovery.resume_ends.imp (fun _ _ hk => hk.aside) fun _ _ hk => hk.aside)
    rintro ds rfl
    exact hl
  | subscribing peer ds name topic =>
    cases w with
    | reply r =>
      simp only [resume]
      split
      · split_ifs
        · exact subscribeTo_lists h hl
        · exact announce_lists (h.of_slots rfl) (hl.of_session rfl)
      · exact abandon_lists h
    | signal => exact ⟨h, hl⟩
    | timeout => exact ⟨h, hl⟩
  | announcing peer characteristics message =>
    cases w with
    | reply r =>
      simp only [resume]
      split
      · exact ⟨h.of_slots rfl, trivial⟩
      · exact abandon_lists h
    | signal => exact ⟨h, trivial⟩
    | timeout => exact ⟨h, trivial⟩
  | unwinding fault s => exact unwind_lists Teardown.resume_events h.teardown_resume
  | leaving s => exact leave_lists Teardown.resume_events h.teardown_resume
  | parting message | writing connection handle data | reading uuid connection handle
  | answering uuid value message | reporting message =>
    exact resume_single rfl ⟨h, trivial⟩ (fun _ => ⟨h, trivial⟩) (fun _ => report_lists h)
      fun _ _ => answer_lists h

end Serving

/-! ## Every state of a run -/

/-- Handed out or served, a subscription stems from a discovery. -/
structure System.Stems (s : System) (found : Discoveries) : Prop where
  gateway : s.gateway.Stems found
  stage : s.serving.Lists s.gateway found
  served : ∀ i sub, (s.workers i).subscription? = some sub → sub.StemsFrom found

/-- What has been discovered in a run, the latest first. -/
def discoveries (setup : Setup) (past : List Step) : Discoveries :=
  past.filterMap (·.discovered? setup)

section

variable {setup : Setup} {past : List Step} {s s' : System} {mv : Move} {told : List Event}
  {connection : Connection} {handle : Handle} {indicate : Bool}

theorem Serving.Stage.Lists.imp {stage : Serving.Stage} {found' : Discoveries}
    (h : stage.Lists g found) (hf : found ⊆ found') (hs : g'.session = g.session) :
    stage.Lists g' found' := by
  unfold Lists at h ⊢
  split
  · exact (Gateway.Lists.imp h hf).of_session hs
  · exact (Gateway.Lists.imp h hf).of_session hs
  · trivial

/-- A move is one of the serving loop or of a worker, or leaves the session and the slots alone. -/
theorem System.Moved.serving_or_worker_or_aside (hm : System.Moved setup s mv s' told) :
    (∃ w, mv = .serving w) ∨ (∃ i w, mv = .worker i w) ∨
      s'.serving = s.serving ∧ s'.workers = s.workers ∧ s.gateway.Aside s'.gateway := by
  cases hm with
  | serving up woken ran => exact .inl ⟨_, rfl⟩
  | worker up woken ran => exact .inr (.inl ⟨_, _, rfl⟩)
  | startup present woken ran =>
    subst ran
    exact .inr (.inr ⟨by simp, by simp, Greeting.Kept.aside Startup.resume_ends.gateway⟩)
  | autoscan up woken ran =>
    subst ran
    exact .inr (.inr ⟨rfl, rfl, Autoscan.resume_aside⟩)
  | greeting present woken ran =>
    subst ran
    exact .inr (.inr ⟨by simp, by simp, Greeting.Kept.aside Greeting.resume_ends.gateway⟩)
  | greet => exact .inr (.inr ⟨rfl, rfl, Greeting.Kept.aside Greeting.begin_ends.gateway⟩)
  | rejoin offline =>
    exact .inr (.inr ⟨rfl, rfl, Greeting.Kept.aside Greeting.begin_ends.gateway⟩)
  | message inbox => exact .inr (.inr ⟨rfl, rfl, rfl, rfl, rfl⟩)
  | _ => exact .inr (.inr ⟨rfl, rfl, .refl _⟩)

/-- A worker serves what was assigned to its slot, or what it served. -/
theorem System.Stems.worker {i : Worker} {stage : Forwarding.Stage} (h : s.Stems found)
    (hw : Forwarding.Works s.gateway i (s.workers i) g stage) :
    g.Stems found ∧ g.session = s.gateway.session ∧
      ∀ sub, stage.subscription? = some sub → sub.StemsFrom found := by
  cases hw with
  | @takes sub rests assigned slot serves =>
    subst slot
    refine ⟨h.gateway.setSlot (by nofun), rfl, fun sub' hs => ?_⟩
    rw [serves] at hs
    cases hs
    exact h.gateway i sub assigned
  | goesOn same serves =>
    subst same
    exact ⟨h.gateway, rfl, fun sub hs => h.served i sub (serves.symm.trans hs)⟩
  | exits cancelled serves slot rests =>
    subst slot
    refine ⟨h.gateway.setSlot fun sub hs => h.gateway i sub hs, rfl, fun sub hs => ?_⟩
    rw [rests] at hs
    cases hs

theorem System.Stems.moved {found' : Discoveries} (h : s.Stems found)
    (hm : System.Moved setup s mv s' told) (older : found ⊆ found')
    (new : ∀ x, Step.discovered? setup ⟨s, mv, told, s'⟩ = some x → x ∈ found') :
    s'.Stems found' := by
  have gateway : s.gateway.Stems found' := fun w sub hs => (h.gateway w sub hs).imp older
  have stage : s.serving.Lists s.gateway found' := h.stage.imp older rfl
  have served := fun i sub hs => (h.served i sub hs).imp older
  rcases hm.serving_or_worker_or_aside with ⟨w, rfl⟩ | ⟨i, w, rfl⟩ | ⟨serving, workers, aside⟩
  · cases hm with
    | serving up woken ran =>
      subst ran
      obtain ⟨gateway', stage'⟩ := Serving.resume_lists
        (m := (s.answered s.serving.call? w).moment setup) gateway stage new
      exact ⟨gateway', stage', by simpa using served⟩
  · cases hm with
    | worker up woken ran =>
      subst ran
      have works : (Forwarding.resume (s.moment setup) s.gateway i .broker (s.workers i) w).Leads
          fun g' _ stage' => Forwarding.Works s.gateway i (s.workers i) g' stage' :=
        Forwarding.resume_works
      obtain ⟨gateway', session, served'⟩ := System.Stems.worker ⟨gateway, stage, served⟩ works
      refine ⟨gateway', stage.imp (List.Subset.refl _) session, fun j sub hs => ?_⟩
      by_cases hj : j = i
      · subst j
        simp only [Function.update_self] at hs
        exact served' sub hs
      · simp only [Function.update_of_ne hj] at hs
        exact served j sub hs
  · refine ⟨gateway.of_slots aside.slots, ?_, ?_⟩
    · rw [serving]
      exact stage.imp (List.Subset.refl _) aside.session
    · rw [workers]
      exact served

theorem Run.stems (h : Run setup past s) : s.Stems (discoveries setup past) := by
  induction h with
  | start online =>
    refine ⟨fun w sub hs => ?_, trivial, nofun⟩
    rw [System.initial, Gateway.slot_initial] at hs
    cases hs
  | @step past s s' mv told run moved ih =>
    apply ih.moved (System.moved_of_move? moved)
    · intro x hx
      obtain ⟨t, ht, hd⟩ := List.mem_filterMap.1 hx
      exact List.mem_filterMap.2 ⟨t, List.mem_cons_of_mem _ ht, hd⟩
    · exact fun x hx => List.mem_filterMap.2 ⟨_, List.mem_cons_self, hx⟩

/-- Only workers ask for pushed values. -/
theorem Run.worker_of_enablePush (h : Run setup past s)
    (hc : .enablePush connection handle indicate ∈ s.calls setup) :
    ∃ i sub, (s.workers i).subscription? = some sub ∧ sub.connection = connection ∧
      sub.handle = handle ∧ sub.indicate = indicate := by
  obtain ⟨strand, hs, hcall⟩ := List.mem_filterMap.1 hc
  have loops {stage : Teardown.Stage} :
      stage.call? ≠ some (.enablePush connection handle indicate) := by
    cases stage <;> simp [Teardown.Stage.call?]
  have greets {stage : Greeting.Stage} :
      stage.call? ≠ some (.enablePush connection handle indicate) := by
    cases stage <;> simp [Greeting.Stage.call?]
  simp only [System.strands, List.mem_append, List.mem_cons, List.mem_map] at hs
  rcases hs with (⟨stage, -, rfl⟩ | rfl | rfl | ⟨i, -, rfl⟩) | ⟨stage, -, rfl⟩
  · cases stage with
    | greeting stage => exact absurd hcall greets
    | _ => cases hcall
  · generalize s.autoscan = stage at hcall
    cases stage with
    | sweeping stage => cases stage <;> cases hcall
    | _ => cases hcall
  · generalize s.serving = stage at hcall
    cases stage with
    | clearing peer stage | unwinding fault stage | leaving stage => exact absurd hcall loops
    | dialling peer stage => cases stage <;> cases hcall
    | _ => cases hcall
  · have publishes := h.publishes i
    refine ⟨i, ?_⟩
    generalize s.workers i = stage at hcall publishes
    cases stage with
    | enabling sub =>
      cases hcall
      exact ⟨sub, rfl, rfl, rfl, rfl⟩
    | delivering sub value call =>
      obtain ⟨message, rfl⟩ := publishes
      cases hcall
    | _ => cases hcall
  · exact absurd hcall greets

/-- Whatever the radio discovers and whatever happens meanwhile: a worker that asks for pushed
values asks for those of the last characteristic discovered under the identifier of one that can
push, by notifications if that last one offers them. So its subscription suits the characteristic
if and only if that one can push, too. -/
theorem Run.subscription_reaches (h : Run setup past s)
    (hc : .enablePush connection handle indicate ∈ s.calls setup) :
    ∃ cs, (connection, cs) ∈ discoveries setup past ∧
      ∃ d ∈ cs, d.properties.pushes = true ∧
        ∃ c ∈ cs, reached? cs d.uuid.canonical = some c ∧ c.handle = handle ∧
          indicate = !c.properties.has .notify ∧
          (c.Suits indicate ↔ c.properties.pushes = true) := by
  obtain ⟨i, sub, hs, rfl, rfl, rfl⟩ := h.worker_of_enablePush hc
  obtain ⟨cs, hcs, ⟨d, hd, pushes, hu⟩, c, hr, hh, hi⟩ := h.stems.served i sub hs
  have mem : c ∈ cs := List.mem_of_mem_filter (List.mem_of_getLast? hr)
  refine ⟨cs, hcs, d, hd, pushes, c, mem, hu ▸ hr, hh.symm, hi, ?_⟩
  rw [hi]
  exact c.suits_iff

end

/-! ## One identifier for two characteristics -/

/-- A characteristic with the identifier of the other one that can only be read. -/
def Characteristic.mute : Characteristic := ⟨.short 0x2A37, ⟨Property.read.mask⟩, 2⟩

/-- A session with these characteristics is opened, and a worker takes up what it is to forward. -/
def subscribeAfter (cs : List Characteristic) : List Move :=
  Move.bringUp ++
    [.connectSample, .serving .signal, .serving (.reply .done), .serving (.reply (.connection 1)),
    .serving (.reply (.characteristics cs)), .serving (.reply .done), .serving (.reply .done),
    .worker 0 .signal]

theorem subscription_reaches_last : ∃ past s, Run .sample past s ∧
    .enablePush 1 3 false ∈ s.calls .sample ∧
      ∃ cs, (1, cs) ∈ discoveries .sample past ∧
        ∃ d ∈ cs, d.properties.pushes = true ∧
          ∃ c ∈ cs, reached? cs d.uuid.canonical = some c ∧ c.handle = 3 ∧
            false = !c.properties.has .notify ∧ (c.Suits false ↔ c.properties.pushes = true) := by
  have hm : (System.trace? .sample [] (.initial false) (subscribeAfter [.mute, .sample])).any
      (fun (_, s) => .enablePush 1 3 false ∈ s.calls .sample) = true := by
    decide +kernel
  obtain ⟨past, s, run, hs⟩ := Run.exists_of_any hm
  have hc : .enablePush 1 3 false ∈ s.calls .sample := by simpa using hs
  exact ⟨past, s, run, hc, run.subscription_reaches hc⟩

/-- The characteristic that can push is chosen, and the one behind it is subscribed to. -/
theorem not_always_suited : ¬∀ (setup : Setup) (past : List Step) (s : System), Run setup past s →
    ∀ connection handle indicate, .enablePush connection handle indicate ∈ s.calls setup →
      ∃ cs, (connection, cs) ∈ discoveries setup past ∧
        ∃ c ∈ cs, c.handle = handle ∧ c.Suits indicate := by
  have hm : (System.trace? .sample [] (.initial false) (subscribeAfter [.sample, .mute])).any
      (fun (past, s) => .enablePush 1 2 true ∈ s.calls .sample &&
        discoveries .sample past == [(1, [.sample, .mute])]) = true := by
    decide +kernel
  obtain ⟨past, s, run, hs⟩ := Run.exists_of_any hm
  simp only [Bool.and_eq_true, decide_eq_true_eq, beq_iff_eq] at hs
  obtain ⟨hc, hd⟩ := hs
  intro always
  obtain ⟨cs, hcs, c, hmem, hh, suits⟩ := always .sample past s run 1 2 true hc
  rw [hd, List.mem_singleton] at hcs
  cases hcs
  rcases List.mem_cons.1 hmem with rfl | hmem
  · cases hh
  · obtain rfl := List.mem_singleton.1 hmem
    exact absurd suits.pushes (by decide)

end GattGateway
