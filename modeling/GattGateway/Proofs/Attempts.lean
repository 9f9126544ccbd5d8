import GattGateway.Proofs.Clients
import GattGateway.Proofs.Courses
import GattGateway.Proofs.Identifiers

/-!
# What an attempt to connect comes to

An attempt is refused where the radio is in use. Otherwise it either connects the link and stores
the session that it has opened, or it leaves the link disconnected and the stored session as it was:
what it has opened until then is closed again, whatever becomes of closing it.
-/
namespace GattGateway.Dial

open Segment

def routine : Routine Stage Result where
  call? _ s := s.call?
  deadline? := Stage.deadline?
  hear _ s := s
  resume := resume

variable (setup : Setup) (peer : Peer) (waits : List Wait)

/-- The peer has answered the call within the time that it is given. -/
def Obtained (c : Connection) : Prop :=
  Comes waits (.dial peer) fun x =>
    ∃ r, x.AnswersWithin setup.timing.connectTimeout r ∧ r.dialled = .ok c

/-- The call has not come back within the time that it is given. -/
def Exceeded : Prop := Comes waits (.dial peer) fun x => x.Exceeds setup.timing.connectTimeout

/-- The radio could not be switched on, or the peer not be connected or its characteristics not be
discovered. -/
def Failed (e : RadioFault) : Prop :=
  (Comes waits .powerOn fun x => ∃ r, x.Answers r ∧ r.radio = .error e) ∨
    (Comes waits (.dial peer) fun x =>
      ∃ r, x.AnswersWithin setup.timing.connectTimeout r ∧ r.dialled = .error e) ∨
    ∃ c, Comes waits (.discover c) fun x => ∃ r, x.Answers r ∧ r.discovered = .error e

/-- How a characteristic is announced: the sixteen bytes of the number that its identifier stands
for, and its properties. -/
structure Announces (c : Characteristic) (d : Descriptor) : Prop where
  uuid : numeral 256 (d.uuid.bytes.toList.map UInt8.toNat) = c.uuid.number
  properties : d.properties = c.properties

/-- The link is connected, the new connection is stored with what has been discovered, and every
characteristic is announced in the order of the discovery. -/
structure Opened (g : Gateway) (ds : List Descriptor) : Prop where
  link : g.peerLink = .connected
  opened : ∃ c cs, Obtained setup peer waits c ∧
    (Comes waits (.discover c) fun x => ∃ r, x.Answers r ∧ r.discovered = .ok cs) ∧
    g.session = some (.ofDiscovery c cs) ∧ g.session.map Session.connection = some c ∧
    List.Forall₂ Announces cs ds

/-- Nothing is left of the attempt. -/
structure Undone (g₀ g : Gateway) : Prop where
  link : g.peerLink = .disconnected
  session : g.session = g₀.session
  closed : ∀ c, Obtained setup peer waits c → ∃ x ∈ waits, x.call = .hangUp c
  powered : g.powered = true →
    Comes waits .powerOff fun x => ∃ r e, x.Answers r ∧ r.radio = .error e

/-- What an attempt that was not refused has come to, after these calls. -/
structure Attempted (g₀ g : Gateway) (found : Result) : Prop where
  opened : ∀ ds, found = .ok ds → Opened setup peer waits g ds
  undone : ∀ e, found = .error e → Undone setup peer waits g₀ g
  fault : ∀ e, found = .error e → e = .connectTimeout ∨ ∃ f, e = .radio f
  timeout : found = .error .connectTimeout ↔ Exceeded setup peer waits
  failed : ∀ f, found = .error (.radio f) ↔ Failed setup peer waits f

/-! ## Along the course -/

/-- The peer has answered, and nothing has failed. -/
structure Rung (c : Connection) : Prop where
  obtained : ∀ c', Obtained setup peer waits c' ↔ c' = c
  inTime : ¬Exceeded setup peer waits
  sound : ∀ f, ¬Failed setup peer waits f

/-- The attempt is lost, and what it had opened is closed. -/
structure Lost (e : Fault) : Prop where
  closed : ∀ c, Obtained setup peer waits c → ∃ x ∈ waits, x.call = .hangUp c
  fault : e = .connectTimeout ∨ ∃ f, e = .radio f
  timeout : e = .connectTimeout ↔ Exceeded setup peer waits
  failed : ∀ f, e = .radio f ↔ Failed setup peer waits f

/-- How far an attempt has come where it waits. -/
def Stage.Went (g₀ : Gateway) (now : Instant) (g : Gateway) : Stage → Prop
  | .poweringUp p => g.session = g₀.session ∧ p = peer ∧ waits = []
  | .calling p deadline => g.session = g₀.session ∧ p = peer ∧ PoweredUp waits ∧
      deadline = now + setup.timing.connectTimeout
  | .discovering c => g.session = g₀.session ∧ Rung setup peer waits c
  | .closing c f => g.session = g₀.session ∧ (∀ c', Obtained setup peer waits c' ↔ c' = c) ∧
      ¬Exceeded setup peer waits ∧ ∀ f', Failed setup peer waits f' ↔ f' = f
  | .poweringDown e => g.session = g₀.session ∧ Lost setup peer waits e ∧
      g.peerLink = .disconnected

variable {setup peer waits} {g₀ g : Gateway} {m : Moment} {x : Wait} {c : Connection}

theorem Stage.Went.spared {now : Instant} {g' : Gateway} {stage : Stage}
    (h : stage.Went setup peer waits g₀ now g) (hs : g.Spared g') :
    stage.Went setup peer waits g₀ now g' := by
  have session (h : g.session = g₀.session) : g'.session = g₀.session := hs.session.trans h
  cases stage with
  | poweringUp p => exact ⟨session h.1, h.2⟩
  | calling p deadline => exact ⟨session h.1, h.2⟩
  | discovering c => exact ⟨session h.1, h.2⟩
  | closing c f => exact ⟨session h.1, h.2⟩
  | poweringDown e => exact ⟨session h.1, h.2.1, hs.link.trans h.2.2⟩

theorem undone_of_lost {e : Fault} (session : g.session = g₀.session)
    (link : g.peerLink = .disconnected)
    (powered : g.powered = true →
      Comes waits .powerOff fun x => ∃ r e, x.Answers r ∧ r.radio = .error e)
    (h : Lost setup peer waits e) : Attempted setup peer waits g₀ g (.error e) where
  opened := nofun
  undone _ _ := ⟨link, session, h.closed, powered⟩
  fault := by
    rintro _ ⟨⟩
    exact h.fault
  timeout := by simpa using h.timeout
  failed := by simpa using h.failed

theorem fail_went {now : Instant} {e : Fault} (session : g.session = g₀.session)
    (h : Lost setup peer waits e) :
    (fail g e).Ends (fun g' s => s.Went setup peer waits g₀ now g')
      fun g' found => Attempted setup peer waits g₀ g' found := by
  unfold fail
  dsimp only
  split_ifs with powered
  · exact ⟨session, h, rfl⟩
  · exact undone_of_lost session rfl (fun on => absurd on powered) h

theorem begin_went (idle : g.scanning = false) (link : g.peerLink = .disconnected) :
    (begin m g peer).Ends (fun g' s => s.Went m.toSetup peer [] g m.now g')
      fun g' found => Attempted m.toSetup peer [] g g' found := by
  have unused : g.radioInUse = false := by simp [Gateway.radioInUse, idle, link]
  simp only [begin, unused, Bool.false_eq_true, if_false]
  split_ifs
  · exact ⟨rfl, rfl, poweredUp_nil, rfl⟩
  · exact ⟨rfl, rfl, rfl⟩

/-- The radio could not be switched on. -/
theorem lost_of_unpowered {r : Reply} {f : RadioFault} (on : x.call = .powerOn)
    (answers : x.Answers r) (failed : r.radio = .error f) :
    Lost setup peer [x] (.radio f) := by
  refine ⟨by simp [Obtained, on], .inr ⟨f, rfl⟩, by simp [Exceeded, on], fun f' => ?_⟩
  simp only [Failed, comes_cons, comes_nil, on, true_and, or_false, reduceCtorEq, false_and,
    exists_false, answers.exists_iff, failed, Fault.radio.injEq, Except.error.injEq]

/-- Once the radio is on it depends on the call of the peer how an attempt goes on. -/
theorem dialled_of_poweredUp (setup : Setup) (on : PoweredUp waits) (dial : x.call = .dial peer) :
    (∀ c, Obtained setup peer (x :: waits) c ↔
      ∃ r, x.AnswersWithin setup.timing.connectTimeout r ∧ r.dialled = .ok c) ∧
    (Exceeded setup peer (x :: waits) ↔ x.Exceeds setup.timing.connectTimeout) ∧
    ∀ f, Failed setup peer (x :: waits) f ↔
      ∃ r, x.AnswersWithin setup.timing.connectTimeout r ∧ r.dialled = .error f := by
  refine ⟨fun c => ?_, ?_, fun f => ?_⟩
  · simp [Obtained, dial, on.not_comes]
  · simp [Exceeded, dial, on.not_comes]
  · simp [Failed, dial, on.not_comes, on.not_comes_failed]

theorem rung_of_dialled {r : Reply} (on : PoweredUp waits) (dial : x.call = .dial peer)
    (answers : x.AnswersWithin setup.timing.connectTimeout r) (dialled : r.dialled = .ok c) :
    Rung setup peer (x :: waits) c := by
  obtain ⟨obtained, exceeded, failed⟩ := dialled_of_poweredUp setup on dial
  refine ⟨fun c' => ?_, fun late => ?_, fun f hf => ?_⟩
  · rw [obtained, answers.exists_iff, dialled, Except.ok.injEq, eq_comm]
  · exact answers.not_exceeds (exceeded.1 late)
  · rw [failed, answers.exists_iff, dialled] at hf
    cases hf

theorem lost_of_refused {r : Reply} {f : RadioFault} (on : PoweredUp waits)
    (dial : x.call = .dial peer) (answers : x.AnswersWithin setup.timing.connectTimeout r)
    (refused : r.dialled = .error f) : Lost setup peer (x :: waits) (.radio f) := by
  obtain ⟨obtained, exceeded, failed⟩ := dialled_of_poweredUp setup on dial
  refine ⟨fun c hc => ?_, .inr ⟨f, rfl⟩, ?_, fun f' => ?_⟩
  · rw [obtained, answers.exists_iff, refused] at hc
    cases hc
  · rw [exceeded]
    simp [answers.not_exceeds]
  · rw [failed, answers.exists_iff, refused, Fault.radio.injEq, Except.error.injEq]

theorem lost_of_exceeded (on : PoweredUp waits) (dial : x.call = .dial peer)
    (late : x.Exceeds setup.timing.connectTimeout) :
    Lost setup peer (x :: waits) .connectTimeout := by
  obtain ⟨obtained, exceeded, failed⟩ := dialled_of_poweredUp setup on dial
  refine ⟨fun c hc => ?_, .inl rfl, ?_, fun f => ?_⟩
  · exact absurd ((obtained c).1 hc) late.not_answersWithin
  · simp [exceeded, late]
  · simp [failed, late.not_answersWithin]

/-- Once the peer has answered it depends on the discovery how an attempt goes on. -/
theorem discovered_of_rung {r : Reply} (h : Rung setup peer waits c)
    (discover : x.call = .discover c) (answers : x.Answers r) :
    (∀ c', Obtained setup peer (x :: waits) c' ↔ c' = c) ∧ ¬Exceeded setup peer (x :: waits) ∧
      ∀ f, Failed setup peer (x :: waits) f ↔ r.discovered = .error f := by
  refine ⟨fun c' => ?_, ?_, fun f => ?_⟩
  · rw [← h.obtained c']
    simp [Obtained, discover]
  · have inTime := h.inTime
    simpa [Exceeded, discover] using inTime
  · have cons : Failed setup peer (x :: waits) f ↔
        (∃ r', x.Answers r' ∧ r'.discovered = .error f) ∨ Failed setup peer waits f := by
      simp only [Failed, comes_cons, discover, reduceCtorEq, false_and, false_or,
        Call.discover.injEq, exists_or, exists_eq_left']
      rw [← or_assoc, or_left_comm, or_assoc]
    rw [cons, or_iff_left (h.sound f), answers.exists_iff]

/-- There is one way to announce a characteristic. -/
theorem announces_iff {c : Characteristic} {d : Descriptor} : Announces c d ↔ d = c.descriptor := by
  have identified : numeral 256 (d.uuid.bytes.toList.map UInt8.toNat) = c.uuid.number ↔
      d.uuid = c.uuid.canonical :=
    (canonical_eq_iff (u := .long d.uuid.bytes) (v := c.uuid)).symm
  constructor
  · rintro ⟨uuid, properties⟩
    obtain ⟨u, ps⟩ := d
    rw [Characteristic.descriptor, Descriptor.mk.injEq]
    exact ⟨identified.1 uuid, properties⟩
  · rintro rfl
    exact ⟨identified.2 rfl, rfl⟩

theorem opened_of_discovered {r : Reply} {cs : List Characteristic} (h : Rung setup peer waits c)
    (discover : x.call = .discover c) (answers : x.Answers r) (found : r.discovered = .ok cs)
    (link : g.peerLink = .connected) (session : g.session = some (.ofDiscovery c cs)) :
    Attempted setup peer (x :: waits) g₀ g (.ok (cs.map (·.descriptor))) := by
  obtain ⟨obtained, inTime, failed⟩ := discovered_of_rung h discover answers
  refine ⟨?_, nofun, nofun, by simpa using inTime, fun f => by simp [failed, found]⟩
  rintro _ ⟨⟩
  refine ⟨link, c, cs, (obtained c).2 rfl, ⟨x, List.mem_cons_self, discover, r, answers, found⟩,
    session, session ▸ rfl, ?_⟩
  rw [List.forall₂_map_right_iff, List.forall₂_same]
  exact fun c _ => announces_iff.2 rfl

/-- The calls that close a connection and switch the radio off decide nothing. -/
theorem comes_of_closing (setup : Setup) (waits : List Wait) (dial : x.call ≠ .dial peer)
    (on : x.call ≠ .powerOn) (discover : ∀ c, x.call ≠ .discover c) :
    (∀ c, Obtained setup peer (x :: waits) c ↔ Obtained setup peer waits c) ∧
      (Exceeded setup peer (x :: waits) ↔ Exceeded setup peer waits) ∧
      ∀ f, Failed setup peer (x :: waits) f ↔ Failed setup peer waits f := by
  refine ⟨fun c => ?_, ?_, fun f => ?_⟩
  · simp [Obtained, dial]
  · simp [Exceeded, dial]
  · simp [Failed, dial, on, discover]

/-- One call comes to its end, and the attempt goes on accordingly. -/
theorem resume_went {stage : Stage} {now : Instant} {w : Wake} {online : Bool}
    {alive : Connection → Bool} (h : stage.Went setup peer waits g₀ x.since g)
    (call : stage.call? = some x.call) (ends : x.end? stage.deadline? = some (now, w)) :
    (resume ⟨setup, now, online, alive⟩ g
        (x.reports.foldl (fun s p => routine.hear p s) stage) w).Ends
      (fun g' s => s.Went setup peer (x :: waits) g₀ now g')
      fun g' found => Attempted setup peer (x :: waits) g₀ g' found := by
  rw [routine.foldl_hear fun _ => rfl]
  cases stage with
  | poweringUp p =>
    obtain ⟨session, rfl, rfl⟩ := h
    obtain ⟨r, rfl, answers⟩ := Wait.answers_of_end? ends
    have on : x.call = .powerOn := (Option.some.inj call).symm
    simp only [resume]
    split
    · rename_i sound
      exact ⟨session, rfl, poweredUp_singleton on answers sound, rfl⟩
    · rename_i f failed
      exact fail_went session (lost_of_unpowered on answers failed)
  | calling p deadline =>
    obtain ⟨session, rfl, on, rfl⟩ := h
    have dial : x.call = .dial p := (Option.some.inj call).symm
    rcases Wait.answersWithin_or_exceeds ends with ⟨r, rfl, answers⟩ | ⟨rfl, late⟩
    · simp only [resume]
      split
      · rename_i c dialled
        exact ⟨session, rung_of_dialled on dial answers dialled⟩
      · rename_i f refused
        exact fail_went session (lost_of_refused on dial answers refused)
    · exact fail_went session (lost_of_exceeded on dial late)
  | discovering c =>
    obtain ⟨session, rung⟩ := h
    obtain ⟨r, rfl, answers⟩ := Wait.answers_of_end? ends
    have discover : x.call = .discover c := (Option.some.inj call).symm
    simp only [resume]
    split
    · rename_i cs found
      exact opened_of_discovered rung discover answers found rfl rfl
    · rename_i f undiscovered
      obtain ⟨obtained, inTime, failed⟩ := discovered_of_rung rung discover answers
      exact ⟨session, obtained, inTime, fun f' => by simp [failed, undiscovered, eq_comm]⟩
  | closing c f =>
    obtain ⟨session, obtained, inTime, failed⟩ := h
    obtain ⟨r, rfl, -⟩ := Wait.answers_of_end? ends
    have hangUp : x.call = .hangUp c := (Option.some.inj call).symm
    obtain ⟨obtained', exceeded', failed'⟩ := comes_of_closing (x := x) setup waits
      (show x.call ≠ .dial peer by simp [hangUp]) (by simp [hangUp]) (by simp [hangUp])
    refine fail_went session ⟨fun c' hc => ?_, .inr ⟨f, rfl⟩, ?_, fun f' => ?_⟩
    · rw [obtained', obtained] at hc
      exact ⟨x, List.mem_cons_self, hc ▸ hangUp⟩
    · simp [exceeded', inTime]
    · rw [failed', failed, Fault.radio.injEq, eq_comm]
  | poweringDown e =>
    obtain ⟨session, lost, link⟩ := h
    obtain ⟨r, rfl, answers⟩ := Wait.answers_of_end? ends
    have off : x.call = .powerOff := (Option.some.inj call).symm
    obtain ⟨obtained', exceeded', failed'⟩ := comes_of_closing (x := x) setup waits
      (show x.call ≠ .dial peer by simp [off]) (by simp [off]) (by simp [off])
    have lost' : Lost setup peer (x :: waits) e := by
      refine ⟨fun c hc => ?_, lost.fault, lost.timeout.trans exceeded'.symm, fun f => ?_⟩
      · obtain ⟨y, hy, call⟩ := lost.closed c ((obtained' c).1 hc)
        exact ⟨y, List.mem_cons_of_mem _ hy, call⟩
      · exact (lost.failed f).trans (failed' f).symm
    simp only [resume]
    split
    · exact undone_of_lost session link (by rintro ⟨⟩) lost'
    · rename_i f failed
      exact undone_of_lost session link
        (fun _ => ⟨x, List.mem_cons_self, off, r, f, answers, failed⟩) lost'

/-- An attempt is refused where the radio is in use. Otherwise, whatever becomes of its calls and as
long as nobody else uses the radio, it opens a session or leaves nothing behind. -/
theorem begin_refuses_or_attempts (m : Moment) (g : Gateway) (peer : Peer) :
    (g.scanning = true ∨ g.peerLink ≠ .disconnected →
        begin m g peer = .finish g (.error .busy)) ∧
      (g.scanning = false → g.peerLink = .disconnected → ∀ waits now segment found,
        Course routine m.toSetup Gateway.Spared (begin m g peer) m.now waits now segment →
          segment.turn = .finish found →
            Attempted m.toSetup peer waits g segment.gateway found) := by
  constructor
  · intro used
    have inUse : g.radioInUse = true := by
      rcases used with scanning | link
      · simp [Gateway.radioInUse, scanning]
      · simp [Gateway.radioInUse, link]
    simp [begin, inUse]
  · intro idle link waits now segment found course finishes
    have ends := course.ends (P := fun waits now g' s => s.Went m.toSetup peer waits g now g')
      (Q := fun waits _ g' found => Attempted m.toSetup peer waits g g' found)
      (begin_went idle link) Stage.Went.spared resume_went
    exact ends.of_finish finishes

/-- The discovery fails, and so does every call by which the attempt is undone. -/
def faults : List Wait :=
  [⟨.powerOff, 1200, some (0, .radioFault .activation), []⟩,
    ⟨.hangUp 1, 1200, some (0, .radioFault .disconnected), []⟩,
    ⟨.discover 1, 200, some (1000, .radioFault .discovery), []⟩,
    ⟨.dial .sample, 0, some (200, .connection 1), []⟩, ⟨.powerOn, 0, some (0, .done), []⟩]

theorem undone_after_faults : ∃ segment : Segment Stage Result,
    segment.gateway = { powered := true } ∧
      Attempted .sample .sample faults {} segment.gateway (.error (.radio .discovery)) := by
  have h : ∃ segment,
      routine.follow? .sample (begin ⟨.sample, 0, true, fun _ => true⟩ {} .sample) 0 faults
        = some (1200, segment) ∧ segment.turn = .finish (.error (.radio .discovery)) ∧
      segment.gateway = { powered := true } := ⟨_, rfl, rfl, rfl⟩
  obtain ⟨segment, followed, finishes, left⟩ := h
  exact ⟨segment, left, (begin_refuses_or_attempts ⟨.sample, 0, true, fun _ => true⟩ {} _).2 rfl rfl
    _ _ _ _ (.of_follow? .refl followed) finishes⟩

/-! ## Operations that overlap -/

/-- A disconnect and a second attempt come while a first one discovers. The first stores its session
all the same, and the second fails after that. -/
def overlap : List Shared.Move :=
  [.call (.connect .sample), .errand 0 .signal, .errand 0 (.reply .done),
    .errand 0 (.reply (.connection 1)), .call .disconnect, .errand 1 .signal,
    .errand 1 (.reply .done), .call (.connect .sample), .errand 1 .signal,
    .errand 1 (.reply .done), .errand 0 (.reply (.characteristics [.sample])),
    .errand 0 (.reply (.radioFault .connect)), .errand 0 (.reply .done)]

def refusal : List Wait :=
  [⟨.powerOff, 0, some (0, .done), []⟩, ⟨.dial .sample, 0, some (0, .radioFault .connect), []⟩,
    ⟨.powerOn, 0, some (0, .done), []⟩]

/-- Operations of clients that overlap can leave a session beside a disconnected link. An attempt
that fails then, with nothing else under way, leaves that session stored. -/
theorem session_outlives_failed_attempt : ∃ past s, Shared.Run .sample past s ∧ s.errands = [] ∧
    s.gateway.scanning = false ∧ s.gateway.peerLink = .disconnected ∧
    ∃ (now : Instant) (segment : Segment Stage Result) (e : Fault),
      Course routine .sample Gateway.Spared (begin (s.moment .sample) s.gateway .sample) s.now
        refusal now segment ∧
      segment.turn = .finish (.error e) ∧ segment.gateway.session ≠ none := by
  have hm : (Shared.trace? .sample [] (.initial false false) overlap).any (fun (_, s) =>
      s.errands.isEmpty && s.gateway.scanning = false && s.gateway.peerLink = .disconnected &&
        (routine.follow? .sample (begin (s.moment .sample) s.gateway .sample) s.now refusal).any
          fun (_, segment) => segment.turn = .finish (.error (.radio .connect)) &&
            segment.gateway.session ≠ none) = true := by
    decide +kernel
  obtain ⟨past, s, run, hs⟩ := Shared.Run.exists_of_any hm
  simp only [Bool.and_eq_true, List.isEmpty_iff, decide_eq_true_eq] at hs
  obtain ⟨⟨⟨alone, idle⟩, link⟩, fails⟩ := hs
  obtain ⟨⟨now, segment⟩, followed, fails⟩ := (Option.any_eq_true _ _).1 fails
  simp only [Bool.and_eq_true, decide_eq_true_eq] at fails
  exact ⟨past, s, run, alone, idle, link, now, segment, _, .of_follow? .refl followed, fails⟩

end GattGateway.Dial
