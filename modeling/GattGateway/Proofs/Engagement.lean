import GattGateway.Gateway.Errand
import GattGateway.Proofs.Autoscan
import GattGateway.Proofs.Bystanders
import GattGateway.Proofs.Serving
import GattGateway.Proofs.System

/-!
# What a strand does with the peer

Connecting, handing characteristics to workers and disconnecting are all that ever changes the
session, the link to the peer and, workers apart, the slots. Every segment of the serving loop and
of a client's operation is a sequence of such acts, and what a strand has under way between two of
its segments is its engagement.
-/
namespace GattGateway

open Segment

inductive Engagement
  | opening (s : Dial.Stage)
  | closing (s : Teardown.Stage)
  /-- A connect sequence goes on between the two. -/
  | settling

def Serving.Stage.engagement? : Stage → Option Engagement
  | .clearing _ s => some (.closing s)
  | .dialling _ s => some (.opening s)
  | .recovering _ _ _ => some .settling
  | .subscribing _ _ _ _ => some .settling
  | .announcing _ _ _ => some .settling
  | .unwinding _ s => some (.closing s)
  | .leaving s => some (.closing s)
  | _ => none

def Errand.Stage.engagement? : Stage → Option Engagement
  | .dialling s => some (.opening s)
  | .clearing s => some (.closing s)
  | _ => none

/-- The engagement after a segment of an operation, given the one that follows its end. -/
def Segment.engagement? {σ ρ : Type} (s : Segment σ ρ) (lift : σ → Engagement)
    (next : Option Engagement) : Option Engagement :=
  (s.turn.stage?.map lift).or next

section

variable {σ ρ : Type} {s : Segment σ ρ} {lift : σ → Engagement} {next : Option Engagement}

theorem Segment.ends_of_engagement? {P : Gateway → Option Engagement → Prop}
    (h : P s.gateway (s.engagement? lift next)) :
    s.Ends (fun g stage => P g (some (lift stage))) fun g _ => P g next := by
  rcases s with ⟨g, turn, events⟩
  cases turn <;> exact h

theorem Segment.Ends.engagement? {P : Gateway → Option Engagement → Prop}
    (h : s.Ends (fun g stage => P g (some (lift stage))) fun g _ => P g next) :
    P s.gateway (s.engagement? lift next) := by
  rcases s with ⟨g, turn, events⟩
  cases turn <;> exact h

theorem forall_mem_engagement? {P : Engagement → Prop}
    (waits : ∀ stage, s.turn.stage? = some stage → P (lift stage)) (finishes : ∀ x ∈ next, P x) :
    ∀ x ∈ s.engagement? lift next, P x := by
  rcases s with ⟨g, turn, events⟩
  cases turn with
  | wait stage =>
    rintro x ⟨⟩
    exact waits stage rfl
  | finish result => exact finishes

end

namespace Gateway

/-- The session, the link and the slots are as they were. -/
structure Aside (g g' : Gateway) : Prop where
  session : g'.session = g.session
  link : g'.peerLink = g.peerLink
  slots : g'.slots = g.slots

theorem Aside.refl (g : Gateway) : g.Aside g := ⟨rfl, rfl, rfl⟩

theorem Aside.trans {g g' g'' : Gateway} (h : g.Aside g') (h' : g'.Aside g'') : g.Aside g'' :=
  ⟨h'.session.trans h.session, h'.link.trans h.link, h'.slots.trans h.slots⟩

theorem Aside.slot {g g' : Gateway} (h : g.Aside g') (w : Worker) : g'.slot w = g.slot w := by
  simp only [Gateway.slot, h.slots]

end Gateway

/-- Nothing is under way that changes the bond or waits for a worker. -/
def Resting (e : Option Engagement) : Prop := e = none ∨ e = some .settling

/-- What a strand does in the segment that it runs when it is woken, from one engagement to the
next. -/
inductive Acts (m : Moment) (w : Wake) :
    Gateway → Option Engagement → Gateway → Option Engagement → Prop
  | aside {g g' : Gateway} {e : Option Engagement} (rests : Resting e) (h : g.Aside g') :
      Acts m w g e g' e
  | opens {g : Gateway} {e : Option Engagement} (peer : Peer) (rests : Resting e) :
      Acts m w g e (Dial.begin m g peer).gateway ((Dial.begin m g peer).engagement? .opening e)
  | opensOn {g : Gateway} (s : Dial.Stage) (woken : Woken false s.deadline? w) :
      Acts m w g (some (.opening s)) (Dial.resume m g s w).gateway
        ((Dial.resume m g s w).engagement? .opening (some .settling))
  | closes {g : Gateway} {e : Option Engagement} (rests : Resting e) :
      Acts m w g e (Teardown.begin m g).gateway ((Teardown.begin m g).engagement? .closing e)
  | closesOn {g : Gateway} (s : Teardown.Stage) (woken : Woken (s.signalled g) s.deadline? w) :
      Acts m w g (some (.closing s)) (Teardown.resume m g s w).gateway
        ((Teardown.resume m g s w).engagement? .closing (some .settling))
  | forwards {g g' : Gateway} {uuid : CanonicalUuid} (forwarded : g.forward? uuid = some g') :
      Acts m w g (some .settling) g' (some .settling)
  | retires {g : Gateway} : Acts m w g (some .settling) g none
  | seq {g₀ g₁ g₂ : Gateway} {e₀ e₁ e₂ : Option Engagement} (first : Acts m w g₀ e₀ g₁ e₁)
      (rests : Resting e₁) (rest : Acts m w g₁ e₁ g₂ e₂) : Acts m w g₀ e₀ g₂ e₂

namespace Acts

variable {m : Moment} {w : Wake} {g₀ g g' : Gateway} {e₀ e : Option Engagement}

theorem refl (g : Gateway) (rests : Resting e) : Acts m w g e g e := .aside rests (.refl g)

theorem andAside (h : Acts m w g₀ e₀ g e) (rests : Resting e) (ha : g.Aside g') :
    Acts m w g₀ e₀ g' e :=
  h.seq rests (.aside rests ha)

theorem retired (h : Acts m w g₀ e₀ g e) (rests : Resting e) : Acts m w g₀ e₀ g none := by
  rcases rests with rfl | rfl
  · exact h
  · exact h.seq (.inr rfl) .retires

/-- A strand that does not connect hands nothing out. -/
theorem from_none (h : Acts m w g none g' e) : e ≠ some .settling := by
  generalize hn : (none : Option Engagement) = e₁ at h
  induction h with
  | aside rests h =>
    subst hn
    nofun
  | @opens g e peer rests =>
    subst hn
    simp [Segment.engagement?]
  | opensOn s woken => cases hn
  | @closes g e rests =>
    subst hn
    simp [Segment.engagement?]
  | closesOn s woken => cases hn
  | forwards forwarded => cases hn
  | retires => cases hn
  | seq first rests rest ih₁ ih₂ => exact ih₂ (rests.resolve_right (ih₁ hn)).symm

end Acts

/-- What a strand comes to in a segment. A connect sequence whose attempt was refused goes on
without having anything to hand out. -/
def Reaches (m : Moment) (w : Wake) (g : Gateway) (e : Option Engagement) (g' : Gateway)
    (e' : Option Engagement) : Prop :=
  Acts m w g e g' e' ∨ e' = some .settling ∧ Acts m w g e g' none

theorem Reaches.settling {m : Moment} {w : Wake} {g₀ g : Gateway} {e₀ e : Option Engagement}
    (h : Acts m w g₀ e₀ g e) (rests : Resting e) : Reaches m w g₀ e₀ g (some .settling) := by
  rcases rests with rfl | rfl
  · exact .inr ⟨rfl, h⟩
  · exact .inl h

variable {m : Moment} {w : Wake} {g₀ g g' : Gateway} {e₀ e : Option Engagement}

theorem Recovery.Kept.aside (h : Recovery.Kept m g g') : g.Aside g' :=
  ⟨by rw [h.rest], by rw [h.rest], by rw [h.rest]⟩

theorem Greeting.Kept.aside (h : Greeting.Kept g g') : g.Aside g' :=
  ⟨by rw [h], by rw [h], by rw [h]⟩

/-! ## The serving loop -/

namespace Serving

theorem report_reaches {fault : Fault} (h : Acts m w g₀ e₀ g e) (rests : Resting e) :
    (report m g fault).Leads fun g' _ stage => Reaches m w g₀ e₀ g' stage.engagement? := by
  have h' := h.retired rests
  unfold report
  rw [leads_telling]
  split
  · exact .inl h'
  · exact .inl h'

theorem send_reaches {name : TopicName} {payload : Text.Bytes} {next : Message → Stage}
    (h : Acts m w g₀ e₀ g e) (rests : Resting e)
    (hn : ∀ message, (next message).engagement? = none) :
    (send m g name payload next).Leads fun g' _ stage =>
      Reaches m w g₀ e₀ g' stage.engagement? := by
  unfold send
  split
  · rw [leads_wait, hn]
    exact .inl (h.retired rests)
  · exact report_reaches h rests

theorem answer_reaches {uuid : CanonicalUuid} {value : Text.Bytes} (h : Acts m w g₀ e₀ g e)
    (rests : Resting e) :
    (answer m g uuid value).Leads fun g' _ stage => Reaches m w g₀ e₀ g' stage.engagement? :=
  send_reaches h rests fun _ => rfl

theorem unwind_reaches {fault : Fault} {s : Segment Teardown.Stage Unit} (silent : s.events = [])
    (rests : Resting e)
    (h : s.Ends (fun g s => Acts m w g₀ e₀ g (some (.closing s))) fun g _ => Acts m w g₀ e₀ g e) :
    (unwind m fault s).Leads fun g' _ stage => Reaches m w g₀ e₀ g' stage.engagement? :=
  h.leads silent (fun _ _ ha => .inl ha)
    fun _ _ ha => report_reaches (ha.andAside rests ⟨rfl, rfl, rfl⟩) rests

theorem abandon_reaches {fault : Fault} (h : Acts m w g₀ e₀ g e) (rests : Resting e) :
    (abandon m g fault).Leads fun g' _ stage => Reaches m w g₀ e₀ g' stage.engagement? :=
  unwind_reaches Teardown.begin_events rests
    (ends_of_engagement? (P := Acts m w g₀ e₀) (h.seq rests (.closes rests)))

theorem forwardAll_acts (ds : List Descriptor) :
    Acts m w g (some .settling) (g.forwardAll ds) (some .settling) := by
  have settles : Resting (some .settling) := .inr rfl
  induction ds generalizing g with
  | nil => exact .refl g settles
  | cons d ds ih =>
    have hd : Acts m w g (some .settling)
        (if d.properties.pushes then (g.forward? d.uuid).getD g else g) (some .settling) := by
      split_ifs
      · cases hf : g.forward? d.uuid with
        | some g' => exact .forwards hf
        | none => exact .refl g settles
      · exact .refl g settles
    exact hd.seq settles ih

theorem announce_reaches {peer : Peer} {ds : List Descriptor}
    (h : Acts m w g₀ e₀ g (some .settling)) :
    (announce m g peer ds).Leads fun g' _ stage => Reaches m w g₀ e₀ g' stage.engagement? := by
  have h' := h.seq (.inr rfl) (forwardAll_acts ds)
  unfold announce
  dsimp only
  split
  · exact .inl h'
  · exact abandon_reaches h' (.inr rfl)

theorem subscribeTo_reaches {peer : Peer} {ds : List Descriptor} {name : TopicName}
    (h : Acts m w g₀ e₀ g (some .settling)) :
    (subscribeTo m g peer ds name).Leads fun g' _ stage =>
      Reaches m w g₀ e₀ g' stage.engagement? := by
  unfold subscribeTo
  split
  · exact .inl h
  · exact abandon_reaches h (.inr rfl)

theorem settle_reaches {peer : Peer} {found : Dial.Result}
    {s : Segment Recovery.Stage Recovery.Outcome} (silent : s.events = []) (rests : Resting e)
    (hf : ∀ ds, found = .ok ds → e = some .settling)
    (h : s.Ends (fun g _ => Acts m w g₀ e₀ g e) fun g _ => Acts m w g₀ e₀ g e) :
    (settle m peer found s).Leads fun g' _ stage => Reaches m w g₀ e₀ g' stage.engagement? := by
  refine h.leads silent (fun _ _ ha => .settling ha rests) fun g outcome ha => ?_
  cases found with
  | error fault => exact abandon_reaches ha rests
  | ok ds =>
    obtain rfl := hf ds rfl
    dsimp only
    split_ifs
    · exact abandon_reaches ha rests
    · exact announce_reaches ha
    · exact subscribeTo_reaches ha

theorem dial_reaches {peer : Peer} {s : Segment Dial.Stage Dial.Result} (silent : s.events = [])
    (rests : Resting e)
    (h : s.Ends (fun g s => Acts m w g₀ e₀ g (some (.opening s)))
      fun g found => Acts m w g₀ e₀ g e ∧ ∀ ds, found = .ok ds → e = some .settling) :
    (dial m peer s).Leads fun g' _ stage => Reaches m w g₀ e₀ g' stage.engagement? := by
  refine h.leads silent (fun _ _ ha => .inl ha) fun g found ha => ?_
  have recovers {g' : Gateway} (hk : Recovery.Kept m g g') : Acts m w g₀ e₀ g' e :=
    ha.1.andAside rests hk.aside
  exact settle_reaches Recovery.poll_events rests ha.2
    (Recovery.begin_ends.imp (fun _ _ hk => recovers hk) fun _ _ hk => recovers hk)

theorem clear_reaches {peer : Peer} {s : Segment Teardown.Stage Unit} (silent : s.events = [])
    (rests : Resting e)
    (h : s.Ends (fun g s => Acts m w g₀ e₀ g (some (.closing s))) fun g _ => Acts m w g₀ e₀ g e) :
    (clear m peer s).Leads fun g' _ stage => Reaches m w g₀ e₀ g' stage.engagement? := by
  refine h.leads silent (fun _ _ ha => .inl ha) fun g _ ha => ?_
  have ha' : Acts m w g₀ e₀ { g with ready := false } e := ha.andAside rests ⟨rfl, rfl, rfl⟩
  refine dial_reaches Dial.begin_events rests (((ends_of_engagement? (P := Acts m w g₀ e₀)
    (ha'.seq rests (.opens peer rests))).and Dial.begin_bond).imp (fun _ _ hb => hb.1) ?_)
  rintro g found ⟨hb, -, rfl⟩
  exact ⟨hb, nofun⟩

theorem acquire_reaches {peer : Peer} {wasPaused : Bool} {giveUp : Instant}
    (h : Acts m w g₀ none g none) :
    (acquire m g peer wasPaused giveUp).Leads fun g' _ stage =>
      Reaches m w g₀ none g' stage.engagement? := by
  have rests : Resting none := .inl rfl
  unfold acquire
  split_ifs
  · have h' : Acts m w g₀ none { g with busy := true } none := h.andAside rests ⟨rfl, rfl, rfl⟩
    exact clear_reaches Teardown.begin_events rests
      (ends_of_engagement? (P := Acts m w g₀ none) (h'.seq rests (.closes rests)))
  · exact report_reaches (h.andAside rests ⟨rfl, rfl, rfl⟩) rests
  · exact .inl h

theorem leave_reaches {s : Segment Teardown.Stage Unit} (silent : s.events = [])
    (rests : Resting e)
    (h : s.Ends (fun g s => Acts m w g₀ e₀ g (some (.closing s))) fun g _ => Acts m w g₀ e₀ g e) :
    (leave m s).Leads fun g' _ stage => Reaches m w g₀ e₀ g' stage.engagement? :=
  h.leads silent (fun _ _ ha => .inl ha)
    fun _ _ ha => send_reaches (ha.andAside rests ⟨rfl, rfl, rfl⟩) rests fun _ => rfl

theorem handle_reaches {command : Command} (h : Acts m w g₀ none g none) :
    (handle m g command).Leads fun g' _ stage => Reaches m w g₀ none g' stage.engagement? := by
  have rests : Resting none := .inl rfl
  cases command with
  | connect peer => exact acquire_reaches (h.andAside rests ⟨rfl, rfl, rfl⟩)
  | disconnect =>
    exact leave_reaches Teardown.begin_events rests
      (ends_of_engagement? (P := Acts m w g₀ none) (h.seq rests (.closes rests)))
  | write uuid data =>
    simp only [handle]
    split
    · exact .inl h
    · exact .inl h
  | read uuid =>
    simp only [handle]
    split
    · exact .inl h
    · exact answer_reaches h rests

theorem dispatch_reaches {r : Request} (h : Acts m w g₀ none g none) :
    (dispatch m g r).Leads fun g' _ stage => Reaches m w g₀ none g' stage.engagement? := by
  unfold dispatch
  split
  · exact .inl h
  · exact handle_reaches h
  · exact report_reaches h (.inl rfl)

theorem resume_reaches {stage : Stage} (woken : Woken (stage.signalled g) stage.deadline? w) :
    (resume m g stage w).Leads fun g' _ stage' =>
      Reaches m w g stage.engagement? g' stage'.engagement? := by
  have rests : Resting none := .inl rfl
  have settles : Resting (some .settling) := .inr rfl
  have waits (rests : Resting stage.engagement?) :
      Reaches m w g stage.engagement? g stage.engagement? := .inl (.refl g rests)
  -- A teardown under way goes on, and the sequence that it belongs to after it.
  have closing {s : Teardown.Stage} (he : stage.engagement? = some (.closing s))
      (hs : Woken (s.signalled g) s.deadline? w) :
      (Teardown.resume m g s w).Ends
        (fun g' s => Acts m w g stage.engagement? g' (some (.closing s)))
        fun g' _ => Acts m w g stage.engagement? g' (some .settling) := by
    rw [he]
    exact ends_of_engagement? (P := Acts m w g (some (.closing s))) (.closesOn s hs)
  cases stage with
  | receiving =>
    cases w with
    | signal =>
      simp only [resume]
      split
      · exact dispatch_reaches (.aside rests ⟨rfl, rfl, rfl⟩)
      · exact waits rests
    | reply r => exact waits rests
    | timeout => exact waits rests
  | acquiring peer wasPaused giveUp deadline =>
    cases w with
    | timeout => exact acquire_reaches (.refl g rests)
    | signal => exact waits rests
    | reply r => exact waits rests
  | clearing peer s =>
    exact clear_reaches Teardown.resume_events settles (closing rfl woken)
  | dialling peer s =>
    exact dial_reaches Dial.resume_events settles
      ((ends_of_engagement? (P := Acts m w g (some (.opening s))) (.opensOn s woken)).imp
        (fun _ _ ha => ha) fun _ _ ha => ⟨ha, fun _ _ => rfl⟩)
  | recovering peer found s =>
    exact settle_reaches Recovery.resume_events settles (fun _ _ => rfl)
      (Recovery.resume_ends.imp (fun _ _ hk => .aside settles hk.aside)
        fun _ _ hk => .aside settles hk.aside)
  | subscribing peer ds name topic =>
    cases w with
    | reply r =>
      simp only [resume]
      split
      · split_ifs
        · exact subscribeTo_reaches (.refl g settles)
        · exact announce_reaches (.aside settles ⟨rfl, rfl, rfl⟩)
      · exact abandon_reaches (.refl g settles) settles
    | signal => exact waits settles
    | timeout => exact waits settles
  | announcing peer characteristics message =>
    cases w with
    | reply r =>
      simp only [resume]
      split
      · have ha : Acts m (.reply r) g (some .settling) { g with busy := false } (some .settling) :=
          .aside settles ⟨rfl, rfl, rfl⟩
        exact .inl (ha.retired settles)
      · exact abandon_reaches (.refl g settles) settles
    | signal => exact waits settles
    | timeout => exact waits settles
  | unwinding fault s => exact unwind_reaches Teardown.resume_events settles (closing rfl woken)
  | leaving s => exact leave_reaches Teardown.resume_events settles (closing rfl woken)
  | parting message | writing connection handle data | reading uuid connection handle
  | answering uuid value message | reporting message =>
    exact resume_single rfl (waits rests) (fun _ => .inl (.refl g rests))
      (fun _ => report_reaches (.refl g rests) rests)
      fun _ _ => answer_reaches (.refl g rests) rests

end Serving

/-! ## Scans -/

namespace Sweep

theorem close_aside {heard : Except RadioFault Collector} :
    (close g heard).Ends (fun g' _ => g.Aside g') fun g' _ => g.Aside g' := by
  unfold close
  dsimp only
  split_ifs
  · exact ⟨rfl, rfl, rfl⟩
  · exact ⟨rfl, rfl, rfl⟩

theorem begin_aside : (begin m g).Ends (fun g' _ => g.Aside g') fun g' _ => g.Aside g' := by
  unfold begin
  dsimp only
  split_ifs
  · exact .refl g
  · exact ⟨rfl, rfl, rfl⟩
  · exact ⟨rfl, rfl, rfl⟩

theorem resume_aside {s : Stage} {w : Wake} :
    (resume m g s w).Ends (fun g' _ => g.Aside g') fun g' _ => g.Aside g' := by
  unfold resume
  split
  · split
    · exact ⟨rfl, rfl, rfl⟩
    · exact close_aside
  · exact .refl g
  · exact .refl g
  · exact close_aside
  · split
    · exact ⟨rfl, rfl, rfl⟩
    · exact .refl g
  · exact .refl g

end Sweep

namespace Autoscan

theorem report_aside {fault : Fault} (h : g₀.Aside g) :
    (report m g fault).Leads fun g' _ _ => g₀.Aside g' := by
  unfold report
  dsimp only
  rw [leads_telling]
  split
  · exact h
  · exact h.trans ⟨rfl, rfl, rfl⟩

theorem publish_aside {found : Sweep.Result} (h : g₀.Aside g) :
    (publish m g found).Leads fun g' _ _ => g₀.Aside g' := by
  cases found with
  | error fault => exact report_aside h
  | ok ds =>
    simp only [publish]
    split
    · exact h
    · exact report_aside h

theorem recover_aside {found : Sweep.Result} {s : Segment Recovery.Stage Recovery.Outcome}
    (silent : s.events = [])
    (h : s.Ends (fun g' _ => g₀.Aside g') fun g' _ => g₀.Aside g') :
    (recover m found s).Leads fun g' _ _ => g₀.Aside g' :=
  h.leads silent (fun _ _ ha => ha) fun _ _ ha => publish_aside ha

theorem sweep_aside {s : Segment Sweep.Stage Sweep.Result} (silent : s.events = [])
    (h : s.Ends (fun g' _ => g₀.Aside g') fun g' _ => g₀.Aside g') :
    (sweep m s).Leads fun g' _ _ => g₀.Aside g' :=
  h.leads silent (fun _ _ ha => ha) fun _ _ ha =>
    recover_aside Recovery.poll_events (Recovery.begin_ends.imp
      (fun _ _ hk => ha.trans hk.aside) fun _ _ hk => ha.trans hk.aside)

theorem consider_aside : (consider m g).Leads fun g' _ _ => g.Aside g' := by
  unfold consider
  split_ifs
  · exact .refl g
  · exact .refl g
  · exact .refl g
  · unfold start
    rw [leads_telling]
    have ha : g.Aside { g with busy := true, lastScan := some m.now, ready := false } :=
      ⟨rfl, rfl, rfl⟩
    exact sweep_aside Sweep.begin_events (Sweep.begin_aside.imp (fun _ _ hs => ha.trans hs)
      fun _ _ hs => ha.trans hs)

theorem resume_aside {stage : Stage} {w : Wake} :
    (resume m g stage w).Leads fun g' _ _ => g.Aside g' := by
  unfold resume
  split
  · exact consider_aside
  · exact consider_aside
  · exact sweep_aside Sweep.resume_events Sweep.resume_aside
  · exact recover_aside Recovery.resume_events
      (Recovery.resume_ends.imp (fun _ _ hk => hk.aside) fun _ _ hk => hk.aside)
  · split
    · exact ⟨rfl, rfl, rfl⟩
    · exact report_aside (.refl g)
  · exact ⟨rfl, rfl, rfl⟩
  · exact .refl g

end Autoscan

/-! ## Operations of clients -/

namespace Errand

@[simp] theorem Stage.engagement?_hear (r : Report) (stage : Stage) :
    (stage.hear r).engagement? = stage.engagement? := by
  cases stage <;> rfl

/-- What comes of a segment of a client's operation. -/
def Comes (m : Moment) (w : Wake) (g : Gateway) (e : Option Engagement) (s : Step) : Prop :=
  s.Ends (fun g' stage => Acts m w g e g' stage.engagement?) fun g' _ => Acts m w g e g' none

theorem aside_comes {σ ρ : Type} {s : Segment σ ρ} {lift : σ → Stage} {next : ρ → Result}
    (hl : ∀ stage, (lift stage).engagement? = none)
    (h : s.Ends (fun g' _ => g.Aside g') fun g' _ => g.Aside g') :
    Comes m w g none (s.andThen lift fun g r => .finish g (next r)) := by
  have rests : Resting none := .inl rfl
  refine h.andThen (fun g' stage ha => ?_) fun _ _ ha => .aside rests ha
  rw [hl]
  exact .aside rests ha

theorem dial_comes {s : Segment Dial.Stage Dial.Result} (rests : Resting e)
    (h : Acts m w g e₀ s.gateway (s.engagement? .opening e)) : Comes m w g e₀ (dial s) :=
  (ends_of_engagement? (P := Acts m w g e₀) h).andThen (fun _ _ ha => ha)
    fun _ _ ha => ha.retired rests

theorem clear_comes {s : Segment Teardown.Stage Unit} (rests : Resting e)
    (h : Acts m w g e₀ s.gateway (s.engagement? .closing e)) : Comes m w g e₀ (clear s) :=
  (ends_of_engagement? (P := Acts m w g e₀) h).andThen (fun _ _ ha => ha)
    fun _ _ ha => ha.retired rests

theorem start_comes {task : Task} : Comes m w g none (start m g task) := by
  have rests : Resting none := .inl rfl
  cases task with
  | greet =>
    exact aside_comes (fun _ => rfl) (Greeting.begin_ends.imp (fun _ _ hk => hk.aside)
      fun _ _ hk => hk.aside)
  | scan => exact aside_comes (fun _ => rfl) Sweep.begin_aside
  | connect peer => exact dial_comes rests (.opens peer rests)
  | disconnect => exact clear_comes rests (.closes rests)
  | read uuid =>
    simp only [start]
    split
    · exact .refl g rests
    · exact .refl g rests
  | write uuid data =>
    simp only [start]
    split
    · exact .refl g rests
    · exact .refl g rests

theorem resume_comes {stage : Stage} (woken : Woken (stage.signalled g) stage.deadline? w) :
    Comes m w g stage.engagement? (resume m g stage w) := by
  have rests : Resting none := .inl rfl
  have settles : Resting (some .settling) := .inr rfl
  have waits (he : stage.engagement? = none) :
      Acts m w g stage.engagement? g stage.engagement? := .refl g (.inl he)
  cases stage with
  | starting task =>
    cases w with
    | signal => exact start_comes
    | reply r => exact waits rfl
    | timeout => exact waits rfl
  | greeting s =>
    exact aside_comes (fun _ => rfl) (Greeting.resume_ends.imp (fun _ _ hk => hk.aside)
      fun _ _ hk => hk.aside)
  | sweeping s => exact aside_comes (fun _ => rfl) Sweep.resume_aside
  | dialling s => exact dial_comes settles (.opensOn s woken)
  | clearing s => exact clear_comes settles (.closesOn s woken)
  | reading connection handle =>
    cases w with
    | reply r =>
      simp only [resume]
      split
      · exact waits rfl
      · exact waits rfl
    | signal => exact waits rfl
    | timeout => exact waits rfl
  | writing connection handle data =>
    cases w with
    | reply r =>
      simp only [resume]
      split
      · exact waits rfl
      · exact waits rfl
    | signal => exact waits rfl
    | timeout => exact waits rfl

end Errand

end GattGateway
