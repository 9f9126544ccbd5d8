import GattGateway.Proofs.Handling
import GattGateway.Proofs.Pause
import GattGateway.Proofs.ScanCapacity

/-!
# Waiting for the radio

A connect command that finds the radio in use by a scan cycle asks for it again and again, and no
other cycle starts in the meantime. So it gets the radio the next time it asks after the cycle has
given it up, and is refused it only if the one cycle has held it all the time.
-/
namespace GattGateway

open Segment

/-! ## The cycle that holds the radio -/

variable {setup : Setup} {past later earlier since : List Step} {s s' : System} {mv : Move}
  {told : List Event} {t u : Step} {r : Request} {peer : Peer}

theorem Run.held_step (run : Run setup past s) (moved : s.move? setup mv = some (s', told))
    (unstarted : .scanStarted ∉ told) (held : s'.autoscan.holdsRadio = true) :
    s.autoscan.holdsRadio = true := by
  have hm := System.moved_of_move? moved
  rcases run.addressed.autoscan_or_unheard hm with ⟨w, rfl⟩ | unheard
  · exact (run.coherent.advances hm).held unstarted held
  · rcases unheard.autoscan with he | ⟨r, he⟩
    · rwa [he] at held
    · rwa [he, Autoscan.Stage.holdsRadio_hear] at held

/-- Where no cycle starts, the one that holds the radio in the end has held it all the time. -/
theorem Run.held_throughout (h : Run setup (since ++ earlier) s)
    (unstarted : ∀ v ∈ since, ¬v.Starts) (held : s.autoscan.holdsRadio = true) :
    ∀ v ∈ since, v.before.autoscan.holdsRadio = true := by
  induction since generalizing s with
  | nil => exact fun v hv => absurd hv List.not_mem_nil
  | cons v since ih =>
    rw [List.forall_mem_cons] at unstarted ⊢
    rw [List.cons_append] at h
    cases h with
    | step run moved =>
      have before := run.held_step moved unstarted.1 held
      exact ⟨before, ih run unstarted.2 before⟩

/-- A cycle holds the radio in a step, and none starts. -/
structure Step.Held (t : Step) : Prop where
  holds : t.before.autoscan.holdsRadio = true
  unstarted : ¬t.Starts

/-- One cycle has held the radio since it started. -/
def HeldSinceStart (past : List Step) : Prop :=
  ∃ between c before, past = between ++ c :: before ∧ c.Starts ∧ ∀ v ∈ between, v.Held

theorem Run.heldSinceStart (h : Run setup past s) (held : s.autoscan.holdsRadio = true) :
    HeldSinceStart past := by
  induction h with
  | start online => cases held
  | @step past s s' mv told run moved ih =>
    by_cases hs : .scanStarted ∈ told
    · exact ⟨[], _, past, rfl, hs, fun v hv => absurd hv List.not_mem_nil⟩
    · have before := run.held_step moved hs held
      obtain ⟨between, c, earliest, rfl, starts, alone⟩ := ih before
      exact ⟨_ :: between, c, earliest, rfl, starts, List.forall_mem_cons.2 ⟨⟨before, hs⟩, alone⟩⟩

/-! ## Asking for the radio -/

/-- The serving loop asks for the radio: for a connect command that it takes up, or for one with
which it waits. -/
inductive Step.Polls (setup : Setup) (t : Step) : Prop
  | first {r : Request} {peer : Peer} (taken : t.takes? = some r)
      (connects : Command.ofMessage setup.topics r.topic.text r.payload =
        .ok (some (.connect peer))) : Polls setup t
  | again {w : Wake} {peer : Peer} {wasPaused : Bool} {giveUp deadline : Instant}
      (move : t.move = .serving w)
      (waits : t.before.serving = .acquiring peer wasPaused giveUp deadline) : Polls setup t

/-- What comes of it: the command gets the radio if no cycle holds it, and if one does it is refused
the radio, or waits on if it is not yet late. -/
inductive Step.Attempt (setup : Setup) (peer : Peer) (wasPaused : Bool) (giveUp : Instant)
    (t : Step) : Prop
  | granted (free : t.before.autoscan.holdsRadio = false)
      (holds : t.after.serving.holdsRadio = true) (undecided : t.verdict? setup = none) :
      Attempt setup peer wasPaused giveUp t
  | refused (held : t.before.autoscan.holdsRadio = true) (late : giveUp ≤ t.before.now)
      (ended : t.after.serving.handles = false) (paused : t.after.gateway.paused = wasPaused)
      (verdict : t.verdict? setup = some (.error .busy)) : Attempt setup peer wasPaused giveUp t
  | waits (held : t.before.autoscan.holdsRadio = true) (early : t.before.now < giveUp)
      (stage : t.after.serving =
        .acquiring peer wasPaused giveUp (t.before.now + setup.timing.busyPoll))
      (undecided : t.verdict? setup = none) : Attempt setup peer wasPaused giveUp t

/-- Every try ends in one of the three ways. -/
theorem System.Moved.attempt {w : Wake} {g : Gateway} {wasPaused : Bool}
    {giveUp deadline : Instant} (hm : Moved setup s (.serving w) s' told)
    (runs : Handler.segment? ((s.answered s.serving.call? w).moment setup) s.gateway s.serving w =
      some (Handler.acquire ((s.answered s.serving.call? w).moment setup) g peer wasPaused giveUp))
    (agrees : Serving.Agrees s.autoscan.holdsRadio s.autoscan.scans g
      (.acquiring peer wasPaused giveUp deadline)) :
    Step.Attempt setup peer wasPaused giveUp ⟨s, .serving w, told, s'⟩ := by
  obtain ⟨gateway, serving, -, verdict⟩ := hm.concludes runs
  have busy : g.busy = s.autoscan.holdsRadio := agrees.busy.trans (Bool.or_false _)
  have now : ((s.answered s.serving.call? w).moment setup).now = s.now := s.answered_now ..
  rw [Handler.acquire] at gateway serving verdict
  split_ifs at gateway serving verdict with free late
  · have free : g.busy = false := by simpa using free
    have holds : s'.serving.holdsRadio = true := by
      rw [serving, Handler.conclude_clear]
      exact (Serving.clear_leads Teardown.begin_events (agrees.takes free)).2.1
    have handles : s'.serving.handles = true :=
      Serving.Stage.handles_of_connects (Serving.Stage.connects_of_holdsRadio holds)
    exact .granted (busy ▸ free) holds
      (verdict.trans (Handler.result?_of_handles (serving ▸ handles)))
  · have held : g.busy = true := by simpa using free
    rw [now] at late
    refine .refused (busy ▸ held) late ?_ ?_ verdict
    · rw [serving, Handler.fail, finish, Handler.conclude_error]
      rfl
    · rw [gateway, Handler.fail, finish, Handler.conclude_error]
  · have held : g.busy = true := by simpa using free
    rw [now] at late serving
    exact .waits (busy ▸ held) (Nat.lt_of_not_le late) serving verdict

theorem Run.attempt_first (h : Run setup (t :: earlier) s) (taken : t.takes? = some r)
    (connects : Command.ofMessage setup.topics r.topic.text r.payload =
      .ok (some (.connect peer))) :
    t.Attempt setup peer t.before.gateway.paused (t.before.now + setup.timing.busyWait) := by
  obtain ⟨hmove, hreceiving, inbox, hpop⟩ := Step.takes?_eq_some taken
  cases h with
  | @step past s s' m told run moved =>
    obtain rfl : m = .serving .signal := hmove
    have hreceiving : s.serving = .receiving := hreceiving
    have runs : Handler.segment? ((s.answered s.serving.call? .signal).moment setup) s.gateway
        s.serving .signal = some (Handler.acquire
          ((s.answered s.serving.call? .signal).moment setup)
          { s.gateway with inbox, paused := true } peer s.gateway.paused
          (s.now + setup.timing.busyWait)) := by
      rw [hreceiving, Handler.segment?_of_pop? hpop]
      simp only [Handler.dispatch, Handler.handle, System.moment, connects]
      rfl
    have receiving : Serving.Agrees s.autoscan.holdsRadio s.autoscan.scans s.gateway .receiving :=
      hreceiving ▸ run.coherent
    have agrees : Serving.Agrees s.autoscan.holdsRadio s.autoscan.scans
        { s.gateway with inbox, paused := true }
        (.acquiring peer s.gateway.paused (s.now + setup.timing.busyWait) s.now) :=
      (receiving.undisturbed (.of_inbox _ inbox)).acquiring
    exact (System.moved_of_move? moved).attempt runs agrees

/-- A command that waits asks again when its time has come, and is woken by nothing else. -/
theorem Run.attempt_again {w : Wake} {wasPaused : Bool} {giveUp deadline : Instant}
    (run : Run setup past s) (moved : s.move? setup (.serving w) = some (s', told))
    (waits : s.serving = .acquiring peer wasPaused giveUp deadline) :
    Step.Attempt setup peer wasPaused giveUp ⟨s, .serving w, told, s'⟩ := by
  have hm := System.moved_of_move? moved
  have timeout : w = .timeout := by
    cases hm with
    | serving up woken ran =>
      rw [waits] at woken
      cases w <;> first | rfl | cases woken
  subst timeout
  have runs : Handler.segment? ((s.answered s.serving.call? .timeout).moment setup) s.gateway
      s.serving .timeout = some (Handler.acquire
        ((s.answered s.serving.call? .timeout).moment setup) s.gateway peer wasPaused giveUp) := by
    rw [waits]
    rfl
  have agrees : Serving.Agrees s.autoscan.holdsRadio s.autoscan.scans s.gateway
      (.acquiring peer wasPaused giveUp deadline) := waits ▸ run.coherent
  exact hm.attempt runs agrees

/-! ## While a command waits -/

/-- No cycle starts while scanning is paused. -/
theorem Run.unstarted_of_paused (run : Run setup past s)
    (moved : s.move? setup mv = some (s', told)) (paused : s.gateway.paused = true) :
    .scanStarted ∉ told := fun hs => by
  have unpaused : s.gateway.paused = false :=
    (run.opens (System.moved_of_move? moved) hs).allowed.unpaused
  rw [paused] at unpaused
  cases unpaused

/-- How a connect command waits for the radio that was taken up in `t`, given the steps since. -/
structure Awaits (setup : Setup) (peer : Peer) (t : Step) (since : List Step) (s : System) :
    Prop where
  stage : ∃ newer poll older, since = newer ++ poll :: older ∧ poll.Polls setup ∧
    (∀ v ∈ newer, ¬v.Polls setup) ∧
    s.serving = .acquiring peer t.before.gateway.paused (t.before.now + setup.timing.busyWait)
      (poll.before.now + setup.timing.busyPoll)
  unstarted : ∀ v ∈ since, ¬v.Starts

/-- A connect command has got the radio, or has come to its end. -/
def System.Beyond (s : System) : Prop := s.serving.holdsRadio = true ∨ s.serving.handles = false

theorem Step.Attempt.awaits (h : u.Attempt setup peer t.before.gateway.paused
      (t.before.now + setup.timing.busyWait)) (polls : u.Polls setup) (unstarted : ¬u.Starts)
    (before : ∀ v ∈ since, ¬v.Starts) :
    Awaits setup peer t (u :: since) u.after ∨ u.after.Beyond := by
  cases h with
  | granted free holds undecided => exact .inr (.inl holds)
  | refused held late ended paused verdict => exact .inr (.inr ended)
  | waits held early stage undecided =>
    exact .inl ⟨⟨[], u, since, rfl, polls, fun v hv => absurd hv List.not_mem_nil, stage⟩,
      List.forall_mem_cons.2 ⟨unstarted, before⟩⟩

/-- What happens beside the serving loop. -/
theorem Awaits.beside (h : Awaits setup peer t since u.before) (still : ¬u.Polls setup)
    (unstarted : ¬u.Starts) (same : u.after.serving = u.before.serving) :
    Awaits setup peer t (u :: since) u.after := by
  obtain ⟨newer, poll, older, rfl, polls, latest, stage⟩ := h.stage
  exact ⟨⟨u :: newer, poll, older, rfl, polls, List.forall_mem_cons.2 ⟨still, latest⟩,
    same.trans stage⟩, List.forall_mem_cons.2 ⟨unstarted, h.unstarted⟩⟩

/-! ## Behind the wait -/

/-- A command that has got the radio keeps it, or ends for another reason than its want. -/
theorem Serving.Connects.keeps {found g : Gateway} {stage : Stage}
    (h : Connects found true told g stage) :
    (stage.holdsRadio = true ∨ stage.handles = false) ∧ told.filter Event.isError = [] ∨
      ∃ e : Fault, e ≠ .busy ∧ told.filter Event.isError = [.error e.message] := by
  cases h with
  | holds holds => exact .inl ⟨.inl holds, rfl⟩
  | connected bound paused => exact .inl ⟨.inr rfl, rfl⟩
  | @failed _ _ e ended reason free unpaused => exact .inr ⟨e, reason, rfl⟩

theorem Run.beyond_of_holds {w : Wake} (run : Run setup past s)
    (moved : s.move? setup (.serving w) = some (s', told)) (holds : s.serving.holdsRadio = true) :
    s'.Beyond ∧ Step.verdict? setup ⟨s, .serving w, told, s'⟩ ≠ some (.error .busy) := by
  have hm := System.moved_of_move? moved
  have connects := Serving.Stage.connects_of_holdsRadio holds
  have runs := Handler.segment?_of_handles (g := s.gateway) (w := w)
    (m := (s.answered s.serving.call? w).moment setup) (Serving.Stage.handles_of_connects connects)
  obtain ⟨-, serving, events, verdict⟩ := hm.concludes runs
  have errors := Handler.errors_conclude (m := (s.answered s.serving.call? w).moment setup)
    (Handler.quiet_of_segment? runs)
  rw [← events, ← verdict] at errors
  have goes := (run.coherent.handles run.waits hm).goesOn connects
  rw [holds] at goes
  rcases goes.keeps with ⟨beyond, silent⟩ | ⟨e, reason, failed⟩
  · refine ⟨beyond, fun busy => ?_⟩
    rw [silent, busy] at errors
    cases errors
  · rw [failed] at errors
    refine ⟨.inr ?_, fun busy => ?_⟩
    · by_contra handles
      rw [Bool.not_eq_false, serving] at handles
      rw [verdict, Handler.result?_of_handles handles] at errors
      cases errors
    · rw [busy] at errors
      have same : e.message = Fault.busy.message := by simpa [Handler.fault?] using errors
      exact Fault.message_ne_of_ne reason (.inl rfl) same

/-- Nothing comes of a command any more once it has ended. -/
theorem System.beyond_of_ended {w : Wake}
    (moved : s.move? setup (.serving w) = some (s', told))
    (untaken : Step.takes? ⟨s, .serving w, told, s'⟩ = none) (ended : s.serving.handles = false) :
    s'.Beyond ∧ Step.verdict? setup ⟨s, .serving w, told, s'⟩ ≠ some (.error .busy) := by
  cases System.moved_of_move? moved with
  | serving up woken ran =>
    subst ran
    generalize hstage : s.serving = stage at *
    cases stage with
    | receiving =>
      obtain ⟨r, inbox, rfl, hpop⟩ := System.takes_of_receiving hstage (hstage ▸ woken)
      simp [Step.takes?, hstage, hpop] at untaken
    | reporting message =>
      obtain ⟨r, rfl⟩ := (System.woken_of_wakes woken).reply
      refine ⟨.inr rfl, ?_⟩
      simp [Step.verdict?, Step.handler?, Handler.segment?, hstage, Serving.Stage.handles]
    | _ => cases ended

/-! ## The steps of a connect command -/

/-- What the latest step is in the handling of a connect command that was taken up in `t`: a try to
get the radio, something beside the loop that waits, or what comes behind the wait. -/
inductive Latest (setup : Setup) (peer : Peer) (t : Step) (since : List Step) (u : Step) : Prop
  | polls (polls : u.Polls setup) (unstarted : ∀ v ∈ u :: since, ¬v.Starts)
      (attempt : u.Attempt setup peer t.before.gateway.paused
        (t.before.now + setup.timing.busyWait)) : Latest setup peer t since u
  | beside (still : ¬u.Polls setup) (undecided : u.verdict? setup = none)
      (awaits : Awaits setup peer t (u :: since) u.after) : Latest setup peer t since u
  | beyond (still : ¬u.Polls setup) (verdict : u.verdict? setup ≠ some (.error .busy))
      (beyond : u.after.Beyond) : Latest setup peer t since u

theorem Latest.awaits (h : Latest setup peer t since u) :
    Awaits setup peer t (u :: since) u.after ∨ u.after.Beyond := by
  cases h with
  | polls polls unstarted attempt =>
    obtain ⟨started, before⟩ := List.forall_mem_cons.1 unstarted
    exact attempt.awaits polls started before
  | beside still undecided awaits => exact .inl awaits
  | beyond still verdict beyond => exact .inr beyond

theorem Latest.attempt (h : Latest setup peer t since u) (polls : u.Polls setup) :
    (∀ v ∈ u :: since, ¬v.Starts) ∧ u.Attempt setup peer t.before.gateway.paused
      (t.before.now + setup.timing.busyWait) := by
  cases h with
  | polls polls unstarted attempt => exact ⟨unstarted, attempt⟩
  | beside still => exact absurd polls still
  | beyond still => exact absurd polls still

theorem Latest.polls_of_busy (h : Latest setup peer t since u)
    (busy : u.verdict? setup = some (.error .busy)) : u.Polls setup := by
  cases h with
  | polls polls unstarted attempt => exact polls
  | beside still undecided awaits =>
    rw [undecided] at busy
    cases busy
  | beyond still verdict beyond => exact absurd busy verdict

theorem Step.verdict?_eq_none (h : ∀ w, t.move ≠ .serving w) : t.verdict? setup = none := by
  rcases t with ⟨s, mv, told, s'⟩
  cases mv with
  | serving w => exact absurd rfl (h w)
  | _ => rfl

theorem Step.not_polls_of_beyond (untaken : t.takes? = none) (h : t.before.Beyond) :
    ¬t.Polls setup := by
  rintro (⟨taken, -⟩ | ⟨-, waits⟩)
  · rw [untaken] at taken
    cases taken
  · rcases h with holds | ended
    · rw [waits] at holds
      cases holds
    · rw [waits] at ended
      cases ended

theorem Step.not_polls_of_beside (untaken : t.takes? = none) (h : ∀ w, t.move ≠ .serving w) :
    ¬t.Polls setup := by
  rintro (⟨taken, -⟩ | ⟨move, -⟩)
  · rw [untaken] at taken
    cases taken
  · exact h _ move

theorem Run.unstarted_of_taken (h : Run setup (t :: earlier) s) (taken : t.takes? = some r) :
    ¬t.Starts := fun starts => by
  obtain ⟨w, move⟩ := (h.opens_of_starts starts).1.move
  rw [(Step.takes?_eq_some taken).1] at move
  cases move

/-- While a command waits. -/
theorem Run.latest_of_awaits (run : Run setup past s) (moved : s.move? setup mv = some (s', told))
    (untaken : Step.takes? ⟨s, mv, told, s'⟩ = none) (h : Awaits setup peer t since s) :
    Latest setup peer t since ⟨s, mv, told, s'⟩ := by
  obtain ⟨newer, poll, older, hsince, polls, latest, waits⟩ := h.stage
  have paused : s.gateway.paused = true := by
    have fits := run.coherent.fits
    rw [waits] at fits
    exact fits.2.1
  have unstarted : ¬Step.Starts ⟨s, mv, told, s'⟩ := run.unstarted_of_paused moved paused
  by_cases hs : ∃ w, mv = .serving w
  · obtain ⟨w, rfl⟩ := hs
    exact .polls (.again rfl waits) (List.forall_mem_cons.2 ⟨unstarted, h.unstarted⟩)
      (run.attempt_again moved waits)
  · have aside : ∀ w, mv ≠ .serving w := fun w hw => hs ⟨w, hw⟩
    have hm := System.moved_of_move? moved
    obtain ⟨same, -⟩ := (run.coherent.serving_or_idles hm).resolve_left hs
    have still : ¬Step.Polls setup ⟨s, mv, told, s'⟩ := Step.not_polls_of_beside untaken aside
    exact .beside still (Step.verdict?_eq_none aside)
      (Awaits.beside (u := ⟨s, mv, told, s'⟩) h still unstarted same)

/-- Behind the wait. -/
theorem Run.latest_of_beyond (run : Run setup past s) (moved : s.move? setup mv = some (s', told))
    (untaken : Step.takes? ⟨s, mv, told, s'⟩ = none) (h : s.Beyond) :
    Latest setup peer t since ⟨s, mv, told, s'⟩ := by
  have still : ¬Step.Polls setup ⟨s, mv, told, s'⟩ := Step.not_polls_of_beyond untaken h
  by_cases hs : ∃ w, mv = .serving w
  · obtain ⟨w, rfl⟩ := hs
    rcases h with holds | ended
    · obtain ⟨beyond, verdict⟩ := run.beyond_of_holds moved holds
      exact .beyond still verdict beyond
    · obtain ⟨beyond, verdict⟩ := System.beyond_of_ended moved untaken ended
      exact .beyond still verdict beyond
  · have aside : ∀ w, mv ≠ .serving w := fun w hw => hs ⟨w, hw⟩
    have hm := System.moved_of_move? moved
    obtain ⟨same, -⟩ := (run.coherent.serving_or_idles hm).resolve_left hs
    refine .beyond still ?_ ?_
    · rw [Step.verdict?_eq_none aside]
      nofun
    · rw [System.Beyond, same]
      exact h

/-- Every step since a connect command was taken up is one of these. -/
theorem Run.latest (h : Run setup (later ++ t :: earlier) s) (taken : t.takes? = some r)
    (connects : Command.ofMessage setup.topics r.topic.text r.payload = .ok (some (.connect peer)))
    (alone : ∀ u ∈ later, u.takes? = none) :
    ∃ u since, later ++ [t] = u :: since ∧ u.after = s ∧ Latest setup peer t since u := by
  induction later generalizing s with
  | nil =>
    have after : t.after = s := by cases h; rfl
    exact ⟨t, [], rfl, after, .polls (.first taken connects)
      (List.forall_mem_cons.2 ⟨h.unstarted_of_taken taken, fun v hv => absurd hv List.not_mem_nil⟩)
      (h.attempt_first taken connects)⟩
  | cons u later ih =>
    rw [List.cons_append] at h
    rw [List.forall_mem_cons] at alone
    cases h with
    | @step past s s' mv told run moved =>
      obtain ⟨u, since, steps, rfl, latest⟩ := ih run alone.2
      refine ⟨_, later ++ [t], rfl, rfl, ?_⟩
      rw [steps]
      rcases latest.awaits with awaits | beyond
      · exact run.latest_of_awaits moved alone.1 awaits
      · exact run.latest_of_beyond moved alone.1 beyond

/-- A loop that waits asks again as soon as its time has come. -/
theorem Run.asks_again {wasPaused : Bool} {giveUp deadline : Instant} (h : Run setup past s)
    (waits : s.serving = .acquiring peer wasPaused giveUp deadline) (due : deadline ≤ s.now) :
    ∃ s' told, s.move? setup (.serving .timeout) = some (s', told) := by
  have up : s.startup = none := h.up_or_receiving.resolve_right (by simp [waits])
  have woken : s.wakes setup (.serving s.serving) .timeout = true := by
    rw [waits]
    exact decide_eq_true due
  exact ⟨_, _, if_pos (by rw [up, woken]; rfl)⟩

/-- How a connect command that was taken up in `t` waits for the radio, as far as the latest step
`u` and the steps `since` between the two show. -/
structure RadioWait (setup : Setup) (peer : Peer) (t : Step) (earlier : List Step) (u : Step)
    (since : List Step) : Prop where
  /-- The radio is refused only to a command that has waited to the end, while one cycle, which had
  started before, has held the radio all the time. Then the pause is what it was. -/
  refused : u.verdict? setup = some (.error .busy) →
    t.before.now + setup.timing.busyWait ≤ u.before.now ∧ HeldSinceStart earlier ∧
      (∀ v ∈ u :: since, v.Held) ∧ u.after.gateway.paused = t.before.gateway.paused
  /-- If a cycle does not hold the radio, or has given it up, the next try gets it, however late,
  and no other cycle has started. -/
  granted : u.Polls setup → (∃ v ∈ u :: since, v.before.autoscan.holdsRadio = false) →
    u.after.serving.holdsRadio = true ∧ ∀ v ∈ u :: since, ¬v.Starts
  /-- A try that finds the radio held before it is late is not the last one. -/
  goesOn : u.Polls setup → u.before.autoscan.holdsRadio = true →
    u.before.now < t.before.now + setup.timing.busyWait →
      u.after.serving = .acquiring peer t.before.gateway.paused
        (t.before.now + setup.timing.busyWait) (u.before.now + setup.timing.busyPoll)
  /-- The next try can be made as soon as the pause behind the latest one is over. -/
  due : ∀ peer wasPaused giveUp deadline,
    u.after.serving = .acquiring peer wasPaused giveUp deadline →
    (∃ newer poll older, u :: since = newer ++ poll :: older ∧ poll.Polls setup ∧
      (∀ v ∈ newer, ¬v.Polls setup) ∧ deadline = poll.before.now + setup.timing.busyPoll) ∧
    (deadline ≤ u.after.now → ∃ s' told, u.after.move? setup (.serving .timeout) = some (s', told))
  /-- Where a session is stored no cycle holds the radio. -/
  bound : t.before.gateway.session.isSome = true → u.verdict? setup ≠ some (.error .busy)

theorem Latest.due (h : Latest setup peer t since u) {peer' : Peer} {wasPaused : Bool}
    {giveUp deadline : Instant}
    (waits : u.after.serving = .acquiring peer' wasPaused giveUp deadline) :
    ∃ newer poll older, u :: since = newer ++ poll :: older ∧ poll.Polls setup ∧
      (∀ v ∈ newer, ¬v.Polls setup) ∧ deadline = poll.before.now + setup.timing.busyPoll := by
  rcases h.awaits with awaits | holds | ended
  · obtain ⟨newer, poll, older, steps, polls, latest, stage⟩ := awaits.stage
    rw [stage] at waits
    cases waits
    exact ⟨newer, poll, older, steps, polls, latest, rfl⟩
  · rw [waits] at holds
    cases holds
  · rw [waits] at ended
    cases ended

/-- A cycle that holds the radio now has held it since the command was taken up. -/
theorem Run.held_since (h : Run setup (u :: since ++ earlier) s)
    (unstarted : ∀ v ∈ u :: since, ¬v.Starts) (held : u.before.autoscan.holdsRadio = true) :
    ∀ v ∈ u :: since, v.Held := by
  obtain ⟨still, before⟩ := List.forall_mem_cons.1 unstarted
  rw [List.cons_append] at h
  cases h with
  | step run moved =>
    have throughout := run.held_throughout before held
    exact List.forall_mem_cons.2 ⟨⟨held, still⟩, fun v hv => ⟨throughout v hv, before v hv⟩⟩

theorem Latest.refused (h : Latest setup peer t since u) (first : t ∈ u :: since)
    (start : Run setup earlier t.before) (run : Run setup (u :: since ++ earlier) u.after)
    (busy : u.verdict? setup = some (.error .busy)) :
    t.before.now + setup.timing.busyWait ≤ u.before.now ∧ HeldSinceStart earlier ∧
      (∀ v ∈ u :: since, v.Held) ∧ u.after.gateway.paused = t.before.gateway.paused := by
  obtain ⟨unstarted, attempt⟩ := h.attempt (h.polls_of_busy busy)
  cases attempt with
  | granted free holds undecided =>
    rw [undecided] at busy
    cases busy
  | refused held late ended paused verdict =>
    have throughout := run.held_since unstarted held
    exact ⟨late, start.heldSinceStart (throughout t first).holds, throughout, paused⟩
  | waits held early stage undecided =>
    rw [undecided] at busy
    cases busy

theorem Latest.granted (h : Latest setup peer t since u)
    (run : Run setup (u :: since ++ earlier) u.after) (polls : u.Polls setup)
    (free : ∃ v ∈ u :: since, v.before.autoscan.holdsRadio = false) :
    u.after.serving.holdsRadio = true ∧ ∀ v ∈ u :: since, ¬v.Starts := by
  obtain ⟨unstarted, attempt⟩ := h.attempt polls
  obtain ⟨v, hv, free⟩ := free
  have released : u.before.autoscan.holdsRadio ≠ true := fun held => by
    have held := (run.held_since unstarted held v hv).holds
    rw [free] at held
    cases held
  cases attempt with
  | granted free holds undecided => exact ⟨holds, unstarted⟩
  | refused held => exact absurd held released
  | waits held => exact absurd held released

theorem Latest.goesOn (h : Latest setup peer t since u) (polls : u.Polls setup)
    (held : u.before.autoscan.holdsRadio = true)
    (early : u.before.now < t.before.now + setup.timing.busyWait) :
    u.after.serving = .acquiring peer t.before.gateway.paused
      (t.before.now + setup.timing.busyWait) (u.before.now + setup.timing.busyPoll) := by
  cases (h.attempt polls).2 with
  | granted free =>
    rw [free] at held
    cases held
  | refused _ late => exact absurd early (Nat.not_lt_of_le late)
  | waits _ _ stage => exact stage

/-- Whenever a connect command is taken up and however far it has got, it has waited for the radio
in this way. -/
theorem Run.radio_wait (h : Run setup (later ++ t :: earlier) s) (taken : t.takes? = some r)
    (connects : Command.ofMessage setup.topics r.topic.text r.payload = .ok (some (.connect peer)))
    (alone : ∀ u ∈ later, u.takes? = none) :
    ∀ u since, u :: since <:+ later ++ [t] → RadioWait setup peer t earlier u since := by
  intro u since steps
  obtain ⟨between, latest, rest, rfl⟩ :=
    (List.suffix_concat_iff.1 steps).resolve_left (List.cons_ne_nil _ _)
  have cut : u :: since ++ earlier = between ++ t :: earlier := by
    rw [latest, List.append_assoc, List.singleton_append]
  have suffix : u :: since ++ earlier <:+ rest ++ between ++ t :: earlier :=
    ⟨rest, by rw [cut, List.append_assoc]⟩
  have run : Run setup (u :: since ++ earlier) u.after := h.of_suffix suffix
  have upTo : Run setup (between ++ t :: earlier) u.after := cut ▸ run
  obtain ⟨u', since', steps, -, kind⟩ := upTo.latest taken connects fun v hv =>
    alone v (List.mem_append_right _ hv)
  rw [← latest] at steps
  obtain ⟨rfl, rfl⟩ := List.cons.inj steps
  have start : Run setup earlier t.before := by
    cases h.of_suffix (List.suffix_append _ _) with
    | step run moved => exact run
  have first : t ∈ u :: since := latest ▸ List.mem_concat_self
  refine ⟨kind.refused first start run, kind.granted run, kind.goesOn,
    fun peer wasPaused giveUp deadline waits => ⟨kind.due waits, run.asks_again waits⟩,
    fun bound busy => ?_⟩
  obtain ⟨-, -, throughout, -⟩ := kind.refused first start run busy
  have unbound := (start.coherent.apart (throughout t first).holds).1.session
  rw [unbound] at bound
  cases bound

/-- A command that is taken up in a cycle which does not come to its end. -/
theorem radio_wait_in_vain : ∃ u since t earlier s, Run .sample (u :: since ++ earlier) s ∧
    t ∈ u :: since ∧ u.verdict? .sample = some (.error .busy) ∧
    RadioWait .sample .sample t earlier u since ∧ HeldSinceStart earlier := by
  obtain ⟨later, t, earlier, s, run, hp⟩ := Run.exists_cut .sample false
    (Move.bringUp ++ [.autoscan .signal, .connectSample, .serving .signal, .tick 30000,
      .serving .timeout]) 2
    (fun later t _ => later.head?.any (·.verdict? .sample == some (.error .busy)) &&
      t.takes? == some ⟨⟨"ble/gateway/connect", by decide⟩,
        Text.utf8 "\x7b\"address\":\"00:11:22:33:44:55\"\x7d", by decide⟩ &&
      later.all (·.takes?.isNone))
    (by decide +kernel)
  simp only [Bool.and_eq_true, beq_iff_eq, List.all_eq_true, Option.isNone_iff_eq_none,
    Option.any_eq_true] at hp
  obtain ⟨⟨⟨u, hu, verdict⟩, taken⟩, alone⟩ := hp
  obtain ⟨rest, rfl⟩ := List.head?_eq_some_iff.1 hu
  have connects : Command.ofMessage Setup.sample.topics "ble/gateway/connect"
      (Text.utf8 "\x7b\"address\":\"00:11:22:33:44:55\"\x7d") =
        .ok (some (.connect .sample)) := by
    decide +kernel
  have wait := run.radio_wait taken connects alone u (rest ++ [t]) (List.suffix_refl _)
  obtain ⟨-, held, -⟩ := wait.refused verdict
  refine ⟨u, rest ++ [t], t, earlier, s, ?_, by simp, verdict, wait, held⟩
  simpa using run

end GattGateway
