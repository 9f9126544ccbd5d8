import GattGateway.Proofs.Coherence

/-!
# The course of one routine

A routine of the gateway, such as a scan or an attempt to connect, from its first segment on. Each
of its calls may come to anything and take any time, and between two of its segments other strands
go on that leave alone what it relies on. An answer counts up to the very deadline of its wait.
-/
namespace GattGateway

structure Routine (σ ρ : Type) where
  call? : Setup → σ → Option Call
  deadline? : σ → Option Instant
  hear : Report → σ → σ
  resume : Moment → Gateway → σ → Wake → Segment σ ρ

/-- Where a stage hears nothing the reports that come while it waits leave it as it is. -/
theorem Routine.foldl_hear {σ ρ : Type} (r : Routine σ ρ) {stage : σ}
    (h : ∀ p, r.hear p stage = stage) (reports : List Report) :
    reports.foldl (fun s p => r.hear p s) stage = stage := by
  induction reports with
  | nil => rfl
  | cons p reports ih => simpa [h p] using ih

/-- One call of a routine: since when it is waited for, how long it takes and what it answers,
unless it never returns, and what the radio reports in the meantime. -/
structure Wait where
  call : Call
  since : Instant
  outcome : Option (Duration × Reply)
  reports : List Report := []

namespace Wait

/-- When a wait ends, and by what. -/
def end? (x : Wait) (deadline? : Option Instant) : Option (Instant × Wake) :=
  match x.outcome, deadline? with
  | some (d, r), some deadline =>
    if x.since + d ≤ deadline then some (x.since + d, .reply r) else some (deadline, .timeout)
  | some (d, r), none => some (x.since + d, .reply r)
  | none, some deadline => some (deadline, .timeout)
  | none, none => none

def Answers (x : Wait) (r : Reply) : Prop := ∃ d, x.outcome = some (d, r)

def AnswersWithin (x : Wait) (limit : Duration) (r : Reply) : Prop :=
  ∃ d ≤ limit, x.outcome = some (d, r)

/-- The call does not return in time, or never. -/
def Exceeds (x : Wait) (limit : Duration) : Prop := ∀ d r, x.outcome = some (d, r) → limit < d

variable {x : Wait} {now limit : Nat} {w : Wake}

/-- Without a deadline only the answer ends a wait. -/
theorem answers_of_end? (h : x.end? none = some (now, w)) : ∃ r, w = .reply r ∧ x.Answers r := by
  rcases x with ⟨call, since, _ | ⟨d, r⟩, reports⟩
  · cases h
  · cases h
    exact ⟨r, rfl, d, rfl⟩

theorem answersWithin_or_exceeds (h : x.end? (some (x.since + limit)) = some (now, w)) :
    (∃ r, w = .reply r ∧ x.AnswersWithin limit r) ∨ w = .timeout ∧ x.Exceeds limit := by
  rcases x with ⟨call, since, _ | ⟨d, r⟩, reports⟩
  · cases h
    exact .inr ⟨rfl, nofun⟩
  · simp only [end?] at h
    split_ifs at h with hd
    · cases h
      exact .inl ⟨r, rfl, d, Nat.le_of_add_le_add_left hd, rfl⟩
    · cases h
      refine .inr ⟨rfl, ?_⟩
      rintro d' r' ⟨⟩
      exact Nat.lt_of_not_le fun hle => hd (Nat.add_le_add_left hle _)

/-- A wait ends in a way in which the waits of a gateway at work do, and not after its deadline. -/
theorem ends_of_end? {deadline? : Option Instant} (h : x.end? deadline? = some (now, w)) :
    w.ends false (some x.call) deadline? now = true ∧ ∀ deadline ∈ deadline?, now ≤ deadline := by
  rcases x with ⟨call, since, _ | ⟨d, r⟩, reports⟩ <;> rcases deadline? with _ | deadline
  · cases h
  · cases h
    simp [Wake.ends]
  · cases h
    simp [Wake.ends]
  · simp only [end?] at h
    split_ifs at h with hd
    · cases h
      simpa [Wake.ends] using hd
    · cases h
      simp [Wake.ends]

/-- Some outcome of its call brings about any end that a wait of a gateway at work can come to up to
its deadline. -/
theorem exists_end?_iff {call : Call} {since : Instant} {deadline? : Option Instant}
    {reports : List Report} (passed : since ≤ now) :
    (∃ outcome, (⟨call, since, outcome, reports⟩ : Wait).end? deadline? = some (now, w)) ↔
      w.ends false (some call) deadline? now = true ∧ ∀ deadline ∈ deadline?, now ≤ deadline := by
  constructor
  · rintro ⟨outcome, ends⟩
    exact ends_of_end? ends
  · rintro ⟨ends, inTime⟩
    cases w with
    | signal => cases ends
    | reply r =>
      have spent : since + (now - since) = now := Nat.add_sub_of_le passed
      refine ⟨some (now - since, r), ?_⟩
      rcases deadline? with _ | deadline
      · simp [end?, spent]
      · simp [end?, spent, inTime deadline rfl]
    | timeout =>
      rcases deadline? with _ | deadline
      · cases ends
      · have due : deadline ≤ now := by simpa [Wake.ends] using ends
        obtain rfl : deadline = now := Nat.le_antisymm due (inTime deadline rfl)
        exact ⟨none, rfl⟩

/-- Two replies to one call are the same. -/
theorem Answers.inj {r r' : Reply} (h : x.Answers r) (h' : x.Answers r') : r = r' := by
  obtain ⟨d, hd⟩ := h
  obtain ⟨d', hd'⟩ := h'
  rw [hd] at hd'
  cases hd'
  rfl

theorem AnswersWithin.answers {r : Reply} (h : x.AnswersWithin limit r) : x.Answers r := by
  obtain ⟨d, -, hd⟩ := h
  exact ⟨d, hd⟩

theorem Answers.exists_iff {r : Reply} (h : x.Answers r) {P : Reply → Prop} :
    (∃ r', x.Answers r' ∧ P r') ↔ P r := by
  constructor
  · rintro ⟨r', h', hP⟩
    rwa [h.inj h']
  · exact fun hP => ⟨r, h, hP⟩

theorem AnswersWithin.exists_iff {r : Reply} (h : x.AnswersWithin limit r) {P : Reply → Prop} :
    (∃ r', x.AnswersWithin limit r' ∧ P r') ↔ P r := by
  constructor
  · rintro ⟨r', h', hP⟩
    rwa [h.answers.inj h'.answers]
  · exact fun hP => ⟨r, h, hP⟩

theorem AnswersWithin.not_exceeds {r : Reply} (h : x.AnswersWithin limit r) :
    ¬x.Exceeds limit := by
  obtain ⟨d, hle, hd⟩ := h
  exact fun he => absurd hle (Nat.not_le_of_lt (he d r hd))

/-- A call that has not returned in time has not answered in time. -/
theorem Exceeds.not_answersWithin (h : x.Exceeds limit) {P : Reply → Prop} :
    ¬∃ r, x.AnswersWithin limit r ∧ P r := by
  rintro ⟨r, answers, -⟩
  exact answers.not_exceeds h

end Wait

/-- A call has been made and has come to this. -/
def Comes (waits : List Wait) (call : Call) (P : Wait → Prop) : Prop :=
  ∃ x ∈ waits, x.call = call ∧ P x

/-- The radio has been switched on, if it had to be, and nothing else has been called. -/
def PoweredUp (waits : List Wait) : Prop :=
  ∀ x ∈ waits, x.call = .powerOn ∧ ∃ r, x.Answers r ∧ r.radio = .ok ()

section

variable {waits : List Wait} {x : Wait} {call : Call} {P : Wait → Prop}

@[simp] theorem comes_nil : ¬Comes [] call P := by simp [Comes]

@[simp] theorem comes_cons :
    Comes (x :: waits) call P ↔ x.call = call ∧ P x ∨ Comes waits call P := by
  simp [Comes]

theorem PoweredUp.not_comes (h : PoweredUp waits) (hc : call ≠ .powerOn) :
    ¬Comes waits call P := by
  rintro ⟨x, hx, rfl, -⟩
  exact hc (h x hx).1

theorem PoweredUp.not_comes_failed (h : PoweredUp waits) (e : RadioFault) :
    ¬Comes waits .powerOn fun x => ∃ r, x.Answers r ∧ r.radio = .error e := by
  rintro ⟨x, hx, -, failed⟩
  obtain ⟨-, r, answers, sound⟩ := h x hx
  rw [answers.exists_iff, sound] at failed
  cases failed

theorem poweredUp_nil : PoweredUp [] := by simp [PoweredUp]

theorem poweredUp_singleton {r : Reply} (hc : x.call = .powerOn) (answers : x.Answers r)
    (sound : r.radio = .ok ()) : PoweredUp [x] := by
  intro y hy
  obtain rfl := List.mem_singleton.1 hy
  exact ⟨hc, r, answers, sound⟩

end

/-- What a use of the radio relies on is as it was. -/
structure Gateway.Spared (g g' : Gateway) : Prop where
  scanning : g'.scanning = g.scanning
  powered : g'.powered = g.powered
  session : g'.session = g.session
  link : g'.peerLink = g.peerLink

theorem Gateway.Spared.refl (g : Gateway) : g.Spared g := ⟨rfl, rfl, rfl, rfl⟩

/-- Everything beside the two loops spares the uses of the radio. -/
theorem System.Beside.spared {s s' : System} (h : s.Beside s') : s.gateway.Spared s'.gateway :=
  ⟨h.gateway.scanning, h.gateway.powered, h.gateway.session, h.gateway.link⟩

section

variable {σ ρ : Type} (r : Routine σ ρ) (setup : Setup) (Spares : Gateway → Gateway → Prop)
  (first : Segment σ ρ) (start : Instant)

/-- The course of a routine up to one of its segments: the calls that have come to their end, the
latest first, the instant of the segment, and the segment. -/
inductive Course : List Wait → Instant → Segment σ ρ → Prop
  | begins : Course [] start first
  | goesOn {waits : List Wait} {segment : Segment σ ρ} {stage : σ} {x : Wait} {g : Gateway}
      {now : Instant} {w : Wake} (online : Bool) (alive : Connection → Bool)
      (course : Course waits x.since segment) (waiting : segment.turn = .wait stage)
      (call : r.call? setup stage = some x.call)
      (ends : x.end? (r.deadline? stage) = some (now, w)) (spared : Spares segment.gateway g) :
      Course (x :: waits) now
        (r.resume ⟨setup, now, online, alive⟩ g (x.reports.foldl (fun s p => r.hear p s) stage) w)

end

/-- What holds where a routine begins, is spared by the others and is kept by every segment, holds
all along. -/
theorem Course.ends {σ ρ : Type} {r : Routine σ ρ} {setup : Setup}
    {Spares : Gateway → Gateway → Prop} {first : Segment σ ρ} {start : Instant}
    {P : List Wait → Instant → Gateway → σ → Prop} {Q : List Wait → Instant → Gateway → ρ → Prop}
    (begins : first.Ends (P [] start) (Q [] start))
    (spares : ∀ {waits now g g' stage}, P waits now g stage → Spares g g' → P waits now g' stage)
    (goesOn : ∀ {waits g stage now w online alive} {x : Wait}, P waits x.since g stage →
      r.call? setup stage = some x.call → x.end? (r.deadline? stage) = some (now, w) →
      (r.resume ⟨setup, now, online, alive⟩ g (x.reports.foldl (fun s p => r.hear p s) stage)
        w).Ends (P (x :: waits) now) (Q (x :: waits) now))
    {waits : List Wait} {now : Instant} {segment : Segment σ ρ}
    (h : Course r setup Spares first start waits now segment) :
    segment.Ends (P waits now) (Q waits now) := by
  induction h with
  | begins => exact begins
  | @goesOn waits segment stage x g now w online alive course waiting call ends spared ih =>
    have held : P waits x.since segment.gateway stage := by
      simpa [Segment.Ends, waiting] using ih
    exact goesOn (spares held spared) call ends

/-! ## To try courses with -/

/-- What a routine comes to with these calls where nothing else happens, if they are its calls. -/
def Routine.follow? {σ ρ : Type} (r : Routine σ ρ) (setup : Setup) (first : Segment σ ρ)
    (start : Instant) : List Wait → Option (Instant × Segment σ ρ)
  | [] => some (start, first)
  | x :: waits =>
    match r.follow? setup first start waits with
    | some (since, ⟨g, .wait stage, _⟩) =>
      if since = x.since ∧ r.call? setup stage = some x.call then
        (x.end? (r.deadline? stage)).map fun (now, w) =>
          (now, r.resume ⟨setup, now, true, fun _ => true⟩ g
            (x.reports.foldl (fun s p => r.hear p s) stage) w)
      else none
    | _ => none

theorem Course.of_follow? {σ ρ : Type} {r : Routine σ ρ} {setup : Setup}
    {Spares : Gateway → Gateway → Prop} {first segment : Segment σ ρ} {start now : Instant}
    {waits : List Wait} (spares : ∀ g, Spares g g)
    (h : r.follow? setup first start waits = some (now, segment)) :
    Course r setup Spares first start waits now segment := by
  induction waits generalizing now segment with
  | nil =>
    cases h
    exact .begins
  | cons x waits ih =>
    simp only [Routine.follow?] at h
    split at h
    · rename_i since g stage told hw
      split_ifs at h with hx
      obtain ⟨rfl, call⟩ := hx
      obtain ⟨⟨now', w⟩, ends, he⟩ := Option.map_eq_some_iff.1 h
      cases he
      exact .goesOn true _ (ih hw) rfl call ends (spares _)
    · cases h

end GattGateway
