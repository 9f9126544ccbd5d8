import GattGateway.Gateway.Strand
import GattGateway.Proofs.Segment
import Mathlib.Algebra.GroupWithZero.Nat
import Mathlib.Logic.Function.Basic
import Mathlib.Tactic.Common

/-!
# A gateway at work

All strands of a running gateway together with what they can see of the world. A move lets one
strand run its next segment or lets something happen outside; which move comes next, and how every
call ends, is left open. A run is a sequence of moves from the start.
-/
namespace GattGateway

open Text (Bytes)

structure System where
  gateway : Gateway := {}
  /-- None once the gateway is up. The loops and the workers rest until then. -/
  startup : Option Startup.Stage := some .starting
  autoscan : Autoscan.Stage := .deciding
  serving : Serving.Stage := .receiving
  workers : Worker → Forwarding.Stage := fun _ => .idle
  /-- The greetings that run beside the loops, one for each handshake that has not ended. -/
  greetings : List Greeting.Stage := []
  now : Instant := 0
  /-- The link to the broker is up. -/
  online : Bool := false
  alive : Connection → Bool := fun _ => true
  /-- What the broker has been subscribed to since the link last came up. -/
  subscribed : List Topic := []

/-- What can happen next. -/
inductive Move
  | startup (w : Wake)
  | autoscan (w : Wake)
  | serving (w : Wake)
  | worker (i : Worker) (w : Wake)
  | greeting (i : Nat) (w : Wake)
  | hear (r : Report)
  | message (topic : String) (payload : Bytes)
  /-- The link to the broker is lost. -/
  | drop
  /-- The link comes up again, and nobody greets the broker. -/
  | restore
  /-- A handshake begins. -/
  | greet
  /-- The link comes up again, and a handshake begins at once. -/
  | rejoin
  | peers (alive : Connection → Bool)
  | tick (d : Duration)

/-- A move of a run, with the states on both sides of it. -/
structure Step where
  before : System
  move : Move
  told : List Event
  after : System

/-- A wait ends by its signal, else by the reply to its call, and else by its deadline. -/
def Wake.ends (w : Wake) (signalled : Bool) (call? : Option Call) (deadline? : Option Instant)
    (now : Instant) : Bool :=
  match w with
  | .signal => signalled
  | .reply _ => !signalled && call?.isSome
  | .timeout => !signalled && deadline?.any (· ≤ now)

/-- What ends a wait is what it waits for. A deadline ends no wait whose signal has been given. -/
structure Woken (signalled : Bool) (deadline? : Option Instant) (w : Wake) : Prop where
  signal : w = .signal → signalled = true
  timeout : w = .timeout → signalled = false ∧ deadline?.isSome = true

namespace System

def initial (online : Bool) : System := { online }

def moment (setup : Setup) (s : System) : Moment :=
  { setup with now := s.now, online := s.online, alive := s.alive }

/-- Everything that waits. -/
def strands (s : System) : List Strand :=
  s.startup.toList.map .startup ++
    .autoscan s.autoscan :: .serving s.serving ::
      Gateway.workers.map (fun i => .worker i .broker (s.workers i)) ++
    s.greetings.map (fun stage => .errand 0 (.greeting stage))

/-- The calls in progress. -/
def calls (setup : Setup) (s : System) : List Call := s.strands.filterMap (·.call? setup)

/-- The wait of a strand can end in this way. -/
def wakes (setup : Setup) (s : System) (strand : Strand) (w : Wake) : Bool :=
  w.ends (strand.signalled s.gateway) (strand.call? setup) strand.deadline? s.now

/-- What the reply to a call tells of the broker. -/
def answered (s : System) (call? : Option Call) (w : Wake) : System :=
  match call?, w with
  | some .openLink, .reply r =>
    match r.link with
    | .ok _ => { s with online := true, subscribed := if s.online then s.subscribed else [] }
    | .error _ => s
  | some (.subscribe topic), .reply r =>
    match r.link with
    | .ok _ => { s with subscribed := topic :: s.subscribed }
    | .error _ => s
  | _, _ => s

/-- A handshake begins beside everything else. -/
def greet (setup : Setup) (s : System) : System :=
  let segment := Greeting.begin (s.moment setup) s.gateway
  { s with
    gateway := segment.gateway
    greetings := s.greetings ++ segment.turn.stage?.toList }

def reconnect (s : System) : System := { s with online := true, subscribed := [] }

/-- The state after a move and the events told in it, if the move is possible. -/
def move? (setup : Setup) (s : System) : Move → Option (System × List Event)
  | .startup w =>
    match s.startup with
    | some stage =>
      if s.wakes setup (.startup stage) w then
        let s := s.answered stage.call? w
        let segment := Startup.resume (s.moment setup) s.gateway stage w
        some ({ s with gateway := segment.gateway, startup := segment.turn.stage? }, segment.events)
      else none
    | none => none
  | .autoscan w =>
    if s.startup.isNone && s.wakes setup (.autoscan s.autoscan) w then
      let segment := Autoscan.resume (s.moment setup) s.gateway s.autoscan w
      some ({ s with gateway := segment.gateway, autoscan := segment.turn.stage }, segment.events)
    else none
  | .serving w =>
    if s.startup.isNone && s.wakes setup (.serving s.serving) w then
      let s := s.answered s.serving.call? w
      let segment := Serving.resume (s.moment setup) s.gateway s.serving w
      some ({ s with gateway := segment.gateway, serving := segment.turn.stage }, segment.events)
    else none
  | .worker i w =>
    if s.startup.isNone && s.wakes setup (.worker i .broker (s.workers i)) w then
      let segment := Forwarding.resume (s.moment setup) s.gateway i .broker (s.workers i) w
      some ({ s with
        gateway := segment.gateway
        workers := Function.update s.workers i segment.turn.stage }, segment.events)
    else none
  | .greeting i w =>
    match s.greetings[i]? with
    | some stage =>
      if s.wakes setup (.errand 0 (.greeting stage)) w then
        let s := s.answered stage.call? w
        let segment := Greeting.resume (s.moment setup) s.gateway stage w
        let greetings :=
          match segment.turn.stage? with
          | some next => s.greetings.set i next
          | none => s.greetings.eraseIdx i
        some ({ s with gateway := segment.gateway, greetings }, segment.events)
      else none
    | none => none
  | .hear r => some ({ s with autoscan := s.autoscan.hear r }, [])
  | .message topic payload =>
    match s.gateway.inbox.accept? topic payload with
    | some inbox => some ({ s with gateway := { s.gateway with inbox } }, [])
    | none => some (s, [])
  | .drop => some ({ s with online := false, subscribed := [] }, [])
  | .restore => if s.online then none else some (s.reconnect, [])
  | .greet => some (s.greet setup, [])
  | .rejoin => if s.online then none else some (s.reconnect.greet setup, [])
  | .peers alive => some ({ s with alive }, [])
  | .tick d => some ({ s with now := s.now + d }, [])

/-- The steps and the state that moves lead to, if each of them is possible. -/
def trace? (setup : Setup) (past : List Step) (s : System) : List Move → Option (List Step × System)
  | [] => some (past, s)
  | m :: ms =>
    match s.move? setup m with
    | some (s', told) => trace? setup (⟨s, m, told, s'⟩ :: past) s' ms
    | none => none

section

variable (s : System) (call? : Option Call) (w : Wake)

/-- Nothing but the view of the broker depends on a reply. -/
theorem answered_eq :
    s.answered call? w = { s with
      online := (s.answered call? w).online, subscribed := (s.answered call? w).subscribed } := by
  unfold answered
  split
  · split <;> rfl
  · split <;> rfl
  · rfl

@[simp] theorem answered_gateway : (s.answered call? w).gateway = s.gateway := by rw [answered_eq]

@[simp] theorem answered_now : (s.answered call? w).now = s.now := by rw [answered_eq]

@[simp] theorem answered_startup : (s.answered call? w).startup = s.startup := by rw [answered_eq]

@[simp] theorem answered_autoscan : (s.answered call? w).autoscan = s.autoscan := by
  rw [answered_eq]

@[simp] theorem answered_serving : (s.answered call? w).serving = s.serving := by rw [answered_eq]

@[simp] theorem answered_workers : (s.answered call? w).workers = s.workers := by rw [answered_eq]

@[simp] theorem answered_greetings : (s.answered call? w).greetings = s.greetings := by
  rw [answered_eq]

end

section

variable {setup : Setup} {s : System} {strand : Strand} {w : Wake}

theorem signalled_of_wakes (h : s.wakes setup strand w = true) (hw : w = .signal) :
    strand.signalled s.gateway = true := by
  subst w
  exact h

theorem woken_of_wakes (h : s.wakes setup strand w = true) :
    Woken (strand.signalled s.gateway) strand.deadline? w where
  signal := signalled_of_wakes h
  timeout hw := by
    subst w
    simp only [wakes, Wake.ends, Bool.and_eq_true, Bool.not_eq_true'] at h
    obtain ⟨unsignalled, passed⟩ := h
    refine ⟨unsignalled, ?_⟩
    obtain ⟨deadline, hd, -⟩ := (Option.any_eq_true _ _).1 passed
    simp [hd]

end

/-- What a move does, with the segment that it runs. -/
inductive Moved (setup : Setup) (s : System) : Move → System → List Event → Prop
  | startup {stage : Startup.Stage} {w : Wake} {segment : Segment Startup.Stage Unit}
      (present : s.startup = some stage) (woken : s.wakes setup (.startup stage) w = true)
      (ran : Startup.resume ((s.answered stage.call? w).moment setup) s.gateway stage w
        = segment) :
      Moved setup s (.startup w)
        { s.answered stage.call? w with
          gateway := segment.gateway, startup := segment.turn.stage? } segment.events
  | autoscan {w : Wake} {segment : Segment Autoscan.Stage Empty} (up : s.startup = none)
      (woken : s.wakes setup (.autoscan s.autoscan) w = true)
      (ran : Autoscan.resume (s.moment setup) s.gateway s.autoscan w = segment) :
      Moved setup s (.autoscan w)
        { s with gateway := segment.gateway, autoscan := segment.turn.stage } segment.events
  | serving {w : Wake} {segment : Segment Serving.Stage Empty} (up : s.startup = none)
      (woken : s.wakes setup (.serving s.serving) w = true)
      (ran : Serving.resume ((s.answered s.serving.call? w).moment setup) s.gateway s.serving w
        = segment) :
      Moved setup s (.serving w)
        { s.answered s.serving.call? w with
          gateway := segment.gateway, serving := segment.turn.stage } segment.events
  | worker {i : Worker} {w : Wake} {segment : Segment Forwarding.Stage Empty}
      (up : s.startup = none)
      (woken : s.wakes setup (.worker i .broker (s.workers i)) w = true)
      (ran : Forwarding.resume (s.moment setup) s.gateway i .broker (s.workers i) w = segment) :
      Moved setup s (.worker i w)
        { s with
          gateway := segment.gateway
          workers := Function.update s.workers i segment.turn.stage } segment.events
  | greeting {i : Nat} {stage : Greeting.Stage} {w : Wake}
      {segment : Segment Greeting.Stage Greeting.Result} (present : s.greetings[i]? = some stage)
      (woken : s.wakes setup (.errand 0 (.greeting stage)) w = true)
      (ran : Greeting.resume ((s.answered stage.call? w).moment setup) s.gateway stage w
        = segment) :
      Moved setup s (.greeting i w)
        { s.answered stage.call? w with
          gateway := segment.gateway
          greetings := match segment.turn.stage? with
            | some next => s.greetings.set i next
            | none => s.greetings.eraseIdx i } segment.events
  | hear (r : Report) : Moved setup s (.hear r) { s with autoscan := s.autoscan.hear r } []
  | message {topic : String} {payload : Bytes} (inbox : Inbox) :
      Moved setup s (.message topic payload) { s with gateway := { s.gateway with inbox } } []
  | drop : Moved setup s .drop { s with online := false, subscribed := [] } []
  | restore (offline : s.online = false) : Moved setup s .restore s.reconnect []
  | greet : Moved setup s .greet (s.greet setup) []
  | rejoin (offline : s.online = false) : Moved setup s .rejoin (s.reconnect.greet setup) []
  | peers (alive : Connection → Bool) : Moved setup s (.peers alive) { s with alive } []
  | tick (d : Duration) : Moved setup s (.tick d) { s with now := s.now + d } []

theorem moved_of_move? {setup : Setup} {s s' : System} {m : Move} {told : List Event}
    (h : s.move? setup m = some (s', told)) : Moved setup s m s' told := by
  cases m with
  | startup w =>
    simp only [move?] at h
    split at h
    · split_ifs at h
      cases h
      exact .startup ‹_› ‹_› (by rw [answered_gateway])
    · cases h
  | autoscan w =>
    simp only [move?] at h
    split_ifs at h with hw
    cases h
    simp only [Bool.and_eq_true, Option.isNone_iff_eq_none] at hw
    exact .autoscan hw.1 hw.2 rfl
  | serving w =>
    simp only [move?] at h
    split_ifs at h with hw
    cases h
    simp only [Bool.and_eq_true, Option.isNone_iff_eq_none] at hw
    exact .serving hw.1 hw.2 (by rw [answered_gateway, answered_serving])
  | worker i w =>
    simp only [move?] at h
    split_ifs at h with hw
    cases h
    simp only [Bool.and_eq_true, Option.isNone_iff_eq_none] at hw
    exact .worker hw.1 hw.2 rfl
  | greeting i w =>
    simp only [move?] at h
    split at h
    · split_ifs at h
      cases h
      simp only [answered_greetings]
      exact .greeting ‹_› ‹_› (by rw [answered_gateway])
    · cases h
  | hear r =>
    cases h
    exact .hear r
  | message topic payload =>
    simp only [move?] at h
    split at h
    · cases h
      exact .message _
    · cases h
      exact .message s.gateway.inbox
  | drop =>
    cases h
    exact .drop
  | restore =>
    simp only [move?] at h
    split_ifs at h with ho
    cases h
    exact .restore (by simpa using ho)
  | greet =>
    cases h
    exact .greet
  | rejoin =>
    simp only [move?] at h
    split_ifs at h with ho
    cases h
    exact .rejoin (by simpa using ho)
  | peers alive =>
    cases h
    exact .peers alive
  | tick d =>
    cases h
    exact .tick d

end System

/-- The runs of a gateway: the steps taken so far, the latest first, and the present state. -/
inductive Run (setup : Setup) : List Step → System → Prop
  | start (online : Bool) : Run setup [] (.initial online)
  | step {past : List Step} {s s' : System} {m : Move} {told : List Event}
      (run : Run setup past s) (moved : s.move? setup m = some (s', told)) :
      Run setup (⟨s, m, told, s'⟩ :: past) s'

namespace Run

variable {setup : Setup} {past : List Step} {s : System}

/-- The states that a run has been in. -/
def states (past : List Step) (s : System) : List System := s :: past.map Step.before

/-- Every state of a run is reached by the steps before it. -/
theorem of_mem_states {t : System} (h : Run setup past s) (ht : t ∈ states past s) :
    ∃ earlier, Run setup earlier t ∧ earlier <:+ past := by
  induction h with
  | start online =>
    rw [states, List.map_nil, List.mem_singleton] at ht
    subst t
    exact ⟨[], .start online, List.suffix_refl _⟩
  | step run moved ih =>
    rcases List.mem_cons.1 ht with rfl | ht
    · exact ⟨_, run.step moved, List.suffix_refl _⟩
    · obtain ⟨earlier, hrun, hs⟩ := ih ht
      exact ⟨earlier, hrun, hs.trans (List.suffix_cons _ _)⟩

theorem after_mem_states {t : Step} (h : Run setup past s) (ht : t ∈ past) :
    t.after ∈ states past s := by
  induction h with
  | start online => cases ht
  | step run moved ih =>
    rcases List.mem_cons.1 ht with rfl | ht
    · exact List.mem_cons_self
    · exact List.mem_cons_of_mem _ (ih ht)

/-- The steps of a run up to one of them are a run. -/
theorem of_suffix {t : Step} {earlier : List Step} (h : Run setup past s)
    (hs : t :: earlier <:+ past) : Run setup (t :: earlier) t.after := by
  induction h with
  | start online => simp at hs
  | step run moved ih =>
    rcases List.suffix_cons_iff.1 hs with he | hs
    · cases he
      exact run.step moved
    · exact ih hs

/-- Moves that are possible continue a run. -/
theorem trace? {ms : List Move} {past' : List Step} {s' : System} (h : Run setup past s)
    (hm : System.trace? setup past s ms = some (past', s')) : Run setup past' s' := by
  induction ms generalizing past s with
  | nil =>
    cases hm
    exact h
  | cons m ms ih =>
    simp only [System.trace?] at hm
    split at hm
    · exact ih (h.step ‹_›) hm
    · cases hm

/-- What moves from the start lead to is a run. -/
theorem exists_of_any {online : Bool} {ms : List Move} {p : List Step × System → Bool}
    (h : (System.trace? setup [] (.initial online) ms).any p = true) :
    ∃ past s, Run setup past s ∧ p (past, s) = true := by
  obtain ⟨⟨past, s⟩, hm, hp⟩ := (Option.any_eq_true _ _).1 h
  exact ⟨past, s, (Run.start online).trace? hm, hp⟩

/-- What holds at the start and is kept by every move holds in every state of a run. -/
theorem invariant {P : System → Prop} (start : ∀ online, P (.initial online))
    (step : ∀ {s m s' told}, P s → System.Moved setup s m s' told → P s')
    (h : Run setup past s) : P s := by
  induction h with
  | start online => exact start online
  | step _ moved ih => exact step ih (System.moved_of_move? moved)

end Run

/-! ## To try runs with -/

/-- A list whose entry at a place passes a test is cut there. -/
theorem exists_cut_of_any {α : Type} {xs : List α} {n : Nat} {p : List α → α → List α → Bool}
    (h : (xs[n]?.any fun x => p (xs.take n) x (xs.drop (n + 1))) = true) :
    ∃ front x rest, xs = front ++ x :: rest ∧ p front x rest = true := by
  obtain ⟨x, hx, hp⟩ := (Option.any_eq_true _ _).1 h
  obtain ⟨hn, rfl⟩ := List.getElem?_eq_some_iff.1 hx
  refine ⟨_, _, _, ?_, hp⟩
  rw [← List.drop_eq_getElem_cons hn, List.take_append_drop]

instance : NeZero workerCount := ⟨by decide⟩

def Peer.sample : Peer :=
  ⟨⟨⟨#[0x00, 0x11, 0x22, 0x33, 0x44, 0x55], rfl⟩⟩, .registered⟩

/-- A characteristic that can notify. -/
def Characteristic.sample : Characteristic := ⟨.short 0x2A37, ⟨Property.notify.mask⟩, 3⟩

def Setup.sample : Setup := { timing := {}, topics := ⟨"ble/gateway", by decide⟩ }

namespace Move

/-- The gateway comes up. -/
def bringUp : List Move :=
  [.startup .signal, .startup (.reply .done), .startup (.reply .done), .startup (.reply .done),
    .startup (.reply .done)]

def connectSample : Move :=
  .message "ble/gateway/connect" (Text.utf8 "\x7b\"address\":\"00:11:22:33:44:55\"\x7d")

end Move

end GattGateway
