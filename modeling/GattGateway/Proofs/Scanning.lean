import GattGateway.Proofs.Courses

/-!
# What a scan comes to

A scan is refused where the radio is in use. Otherwise it gives the radio up again, whatever becomes
of its calls, and its result depends on two of them only: it fails if the radio cannot be switched
on, or if scanning fails before the window closes, and reports what was seen in any other case.
-/
namespace GattGateway.Sweep

open Segment

def routine : Routine Stage Result where
  call? setup s := s.call? setup
  deadline? := Stage.deadline?
  hear := Stage.hear
  resume := resume

/-- The radio could not be switched on, or scanning failed before the window closed. -/
def Failed (setup : Setup) (waits : List Wait) (e : RadioFault) : Prop :=
  (Comes waits .powerOn fun x => ∃ r, x.Answers r ∧ r.radio = .error e) ∨
    Comes waits (.scan setup.timing.scan.parameters) fun x =>
      ∃ r, x.AnswersWithin (setup.timing.scan.duration + setup.timing.scan.grace) r ∧
        r.radio = .error e

/-- What a scan that was not refused has come to, after these calls. -/
structure Scanned (setup : Setup) (g₀ : Gateway) (waits : List Wait) (g : Gateway)
    (found : Result) : Prop where
  scanning : g.scanning = false
  session : g.session = g₀.session
  link : g.peerLink = g₀.peerLink
  powered : g.powered = true →
    Comes waits .powerOff fun x => ∃ r e, x.Answers r ∧ r.radio = .error e
  failed : ∀ e, found = .error (.scanFailure e) ↔ Failed setup waits e
  devices : (∀ e, ¬Failed setup waits e) →
    Comes waits (.scan setup.timing.scan.parameters) fun x => found =
      .ok (devicesOf ((Collector.empty setup.timing.scan.maxEntries).addAll x.reports).reports)

/-! ## What has been heard -/

/-- What a scan goes on with after these calls is what they have come to. -/
structure Heard (setup : Setup) (waits : List Wait) (heard : Except RadioFault Collector) :
    Prop where
  failed : ∀ e, heard = .error e ↔ Failed setup waits e
  collected : ∀ c, heard = .ok c → Comes waits (.scan setup.timing.scan.parameters) fun x =>
    c = (Collector.empty setup.timing.scan.maxEntries).addAll x.reports

variable {setup : Setup} {waits : List Wait} {x : Wait} {heard : Except RadioFault Collector}
  {g₀ g : Gateway} {m : Moment}

/-- The calls by which the radio is given up change nothing. -/
theorem Heard.cons (h : Heard setup waits heard) (on : x.call ≠ .powerOn)
    (scan : x.call ≠ .scan setup.timing.scan.parameters) : Heard setup (x :: waits) heard := by
  refine ⟨fun e => ?_, fun c hc => comes_cons.2 (.inr (h.collected c hc))⟩
  rw [h.failed e]
  simp [Failed, on, scan]

theorem heard_of_unpowered {r : Reply} {e : RadioFault} (on : x.call = .powerOn)
    (answers : x.Answers r) (failed : r.radio = .error e) : Heard setup [x] (.error e) := by
  refine ⟨fun e' => ?_, nofun⟩
  simp only [Failed, comes_cons, comes_nil, on, true_and, or_false, reduceCtorEq, false_and,
    answers.exists_iff, failed, Except.error.injEq]

/-- Once the radio is on the failures are those of scanning. -/
theorem failed_of_poweredUp {e : RadioFault} (on : PoweredUp waits)
    (scan : x.call = .scan setup.timing.scan.parameters) : Failed setup (x :: waits) e ↔
      ∃ r, x.AnswersWithin (setup.timing.scan.duration + setup.timing.scan.grace) r ∧
        r.radio = .error e := by
  simp [Failed, scan, on.not_comes_failed, on.not_comes]

theorem heard_of_answered {r : Reply} (on : PoweredUp waits)
    (scan : x.call = .scan setup.timing.scan.parameters)
    (answers : x.AnswersWithin (setup.timing.scan.duration + setup.timing.scan.grace) r) :
    Heard setup (x :: waits) (r.radio.map fun _ =>
      (Collector.empty setup.timing.scan.maxEntries).addAll x.reports) := by
  refine ⟨fun e => ?_, fun c hc => ⟨x, List.mem_cons_self, scan, ?_⟩⟩
  · rw [failed_of_poweredUp on scan, answers.exists_iff]
    cases r.radio <;> simp [Except.map]
  · cases hr : r.radio with
    | error e' => simp [hr, Except.map] at hc
    | ok u => simpa [hr, Except.map, eq_comm] using hc

theorem heard_of_exceeded (on : PoweredUp waits)
    (scan : x.call = .scan setup.timing.scan.parameters)
    (late : x.Exceeds (setup.timing.scan.duration + setup.timing.scan.grace)) :
    Heard setup (x :: waits)
      (.ok ((Collector.empty setup.timing.scan.maxEntries).addAll x.reports)) := by
  refine ⟨fun e => ?_, fun c hc => ⟨x, List.mem_cons_self, scan, ?_⟩⟩
  · simp [failed_of_poweredUp on scan, late.not_answersWithin]
  · cases hc
    rfl

/-! ## Along the course -/

/-- Neither the session nor the link has changed. -/
def Held (g₀ g : Gateway) : Prop := g.session = g₀.session ∧ g.peerLink = g₀.peerLink

/-- How far a scan has come where it waits. -/
def Stage.Went (setup : Setup) (g₀ : Gateway) (waits : List Wait) (now : Instant) (g : Gateway) :
    Stage → Prop
  | .poweringUp => Held g₀ g ∧ waits = []
  | .listening deadline heard => Held g₀ g ∧ PoweredUp waits ∧
      deadline = now + (setup.timing.scan.duration + setup.timing.scan.grace) ∧
      heard = .empty setup.timing.scan.maxEntries
  | .stopping heard => Held g₀ g ∧ Heard setup waits heard
  | .poweringDown heard => Held g₀ g ∧ Heard setup waits heard ∧ g.scanning = false

theorem Stage.Went.spared {now : Instant} {g' : Gateway} {stage : Stage}
    (h : stage.Went setup g₀ waits now g) (hs : g.Spared g') :
    stage.Went setup g₀ waits now g' := by
  have held (h : Held g₀ g) : Held g₀ g' := ⟨hs.session.trans h.1, hs.link.trans h.2⟩
  cases stage with
  | poweringUp => exact ⟨held h.1, h.2⟩
  | listening deadline heard => exact ⟨held h.1, h.2⟩
  | stopping heard => exact ⟨held h.1, h.2⟩
  | poweringDown heard => exact ⟨held h.1, h.2.1, hs.scanning.trans h.2.2⟩

theorem scanned_of_heard (held : Held g₀ g) (still : g.scanning = false)
    (powered : g.powered = true →
      Comes waits .powerOff fun x => ∃ r e, x.Answers r ∧ r.radio = .error e)
    (h : Heard setup waits heard) : Scanned setup g₀ waits g (result heard) := by
  refine ⟨still, held.1, held.2, powered, fun e => ?_, fun sound => ?_⟩
  · rw [← h.failed e]
    cases heard <;> simp [result]
  · cases heard with
    | error e => exact absurd ((h.failed e).1 rfl) (sound e)
    | ok c =>
      obtain ⟨x, hx, call, rfl⟩ := h.collected c rfl
      exact ⟨x, hx, call, rfl⟩

theorem close_went {now : Instant} (held : Held g₀ g) (h : Heard setup waits heard) :
    (close g heard).Ends (fun g' s => s.Went setup g₀ waits now g')
      fun g' found => Scanned setup g₀ waits g' found := by
  unfold close
  dsimp only
  split_ifs with powered
  · exact ⟨held, h, rfl⟩
  · exact scanned_of_heard held rfl (fun on => absurd on powered) h

theorem begin_went (idle : g.scanning = false) (link : g.peerLink = .disconnected) :
    (begin m g).Ends (fun g' s => s.Went m.toSetup g [] m.now g')
      fun g' found => Scanned m.toSetup g [] g' found := by
  have unused : g.radioInUse = false := by simp [Gateway.radioInUse, idle, link]
  simp only [begin, unused, Bool.false_eq_true, if_false]
  split_ifs
  · exact ⟨⟨rfl, rfl⟩, poweredUp_nil, rfl, rfl⟩
  · exact ⟨⟨rfl, rfl⟩, rfl⟩

theorem foldl_hear_listening {deadline : Instant} {c : Collector} (reports : List Report) :
    reports.foldl (fun s p => routine.hear p s) (.listening deadline c) =
      .listening deadline (c.addAll reports) := by
  induction reports generalizing c with
  | nil => rfl
  | cons p reports ih => exact ih

/-- One call comes to its end, and the scan goes on accordingly. -/
theorem resume_went {stage : Stage} {now : Instant} {w : Wake} {online : Bool}
    {alive : Connection → Bool} (h : stage.Went setup g₀ waits x.since g)
    (call : stage.call? setup = some x.call) (ends : x.end? stage.deadline? = some (now, w)) :
    (resume ⟨setup, now, online, alive⟩ g
        (x.reports.foldl (fun s p => routine.hear p s) stage) w).Ends
      (fun g' s => s.Went setup g₀ (x :: waits) now g')
      fun g' found => Scanned setup g₀ (x :: waits) g' found := by
  cases stage with
  | poweringUp =>
    obtain ⟨held, rfl⟩ := h
    obtain ⟨r, rfl, answers⟩ := Wait.answers_of_end? ends
    have on : x.call = .powerOn := (Option.some.inj call).symm
    rw [routine.foldl_hear fun _ => rfl]
    simp only [resume]
    split
    · rename_i sound
      exact ⟨held, poweredUp_singleton on answers sound, rfl, rfl⟩
    · rename_i e failed
      exact close_went held (heard_of_unpowered on answers failed)
  | listening deadline heard =>
    obtain ⟨held, on, rfl, rfl⟩ := h
    have scan : x.call = .scan setup.timing.scan.parameters := (Option.some.inj call).symm
    rw [foldl_hear_listening]
    rcases Wait.answersWithin_or_exceeds ends with ⟨r, rfl, answers⟩ | ⟨rfl, late⟩
    · exact ⟨held, heard_of_answered on scan answers⟩
    · exact ⟨held, heard_of_exceeded on scan late⟩
  | stopping heard =>
    obtain ⟨held, h⟩ := h
    obtain ⟨r, rfl, -⟩ := Wait.answers_of_end? ends
    have stop : x.call = .stopScan := (Option.some.inj call).symm
    rw [routine.foldl_hear fun _ => rfl]
    exact close_went held (h.cons (by simp [stop]) (by simp [stop]))
  | poweringDown heard =>
    obtain ⟨held, h, still⟩ := h
    obtain ⟨r, rfl, answers⟩ := Wait.answers_of_end? ends
    have off : x.call = .powerOff := (Option.some.inj call).symm
    have h' : Heard setup (x :: waits) heard := h.cons (by simp [off]) (by simp [off])
    rw [routine.foldl_hear fun _ => rfl]
    simp only [resume]
    split
    · exact scanned_of_heard held still (by rintro ⟨⟩) h'
    · rename_i e failed
      exact scanned_of_heard held still
        (fun _ => ⟨x, List.mem_cons_self, off, r, e, answers, failed⟩) h'

/-- A scan is refused where the radio is in use. Otherwise, whatever becomes of its calls and as
long as nobody else uses the radio, it leaves everything as it was and reports faithfully. -/
theorem begin_refuses_or_scans (m : Moment) (g : Gateway) :
    (g.peerLink ≠ .disconnected ∨ g.scanning = true → begin m g = .finish g (.error .busy)) ∧
      (g.peerLink = .disconnected → g.scanning = false → ∀ waits now segment found,
        Course routine m.toSetup Gateway.Spared (begin m g) m.now waits now segment →
          segment.turn = .finish found → Scanned m.toSetup g waits segment.gateway found) := by
  constructor
  · intro used
    have inUse : g.radioInUse = true := by
      rcases used with link | scanning
      · simp [Gateway.radioInUse, link]
      · simp [Gateway.radioInUse, scanning]
    simp [begin, inUse]
  · intro link idle waits now segment found course finishes
    have ends := course.ends (P := fun waits now g' s => s.Went m.toSetup g waits now g')
      (Q := fun waits _ g' found => Scanned m.toSetup g waits g' found)
      (begin_went idle link) Stage.Went.spared resume_went
    exact ends.of_finish finishes

/-- Scanning fails at the last moment, and so does every call by which the radio is given up. -/
def faults : List Wait :=
  [⟨.powerOff, 8510, some (0, .radioFault .activation), []⟩,
    ⟨.stopScan, 8510, some (0, .radioFault .scan), []⟩,
    ⟨.scan ⟨100, 30, true⟩, 10, some (8500, .radioFault .scan), []⟩,
    ⟨.powerOn, 0, some (10, .done), []⟩]

theorem scans_through_faults : ∃ segment : Segment Stage Result, segment.gateway.powered = true ∧
    Scanned .sample {} faults segment.gateway (.error (.scanFailure .scan)) := by
  have h : ∃ segment, routine.follow? .sample (begin ⟨.sample, 0, true, fun _ => true⟩ {}) 0 faults
      = some (8510, segment) ∧ segment.turn = .finish (.error (.scanFailure .scan)) ∧
      segment.gateway.powered = true := ⟨_, rfl, rfl, rfl⟩
  obtain ⟨segment, followed, finishes, powered⟩ := h
  exact ⟨segment, powered, (begin_refuses_or_scans ⟨.sample, 0, true, fun _ => true⟩ {}).2 rfl rfl
    _ _ _ _ (.of_follow? .refl followed) finishes⟩

end GattGateway.Sweep
