import GattGateway.Proofs.Engagement
import GattGateway.Proofs.System

/-!
# A gateway with clients

The operations of a gateway can also be called from outside, beside its loops or on a gateway that
has nothing but its workers. A client may call any of them at any time, and what is under way goes
on in any order.
-/
namespace GattGateway

structure Shared extends System where
  /-- The operations that have been called and have not ended. -/
  errands : List Errand.Stage := []

namespace Shared

/-- What can happen next. -/
inductive Move
  | own (m : GattGateway.Move)
  /-- A worker goes on whose values go to another receiver than the broker. -/
  | worker (i : Worker) (w : Wake)
  | call (task : Errand.Task)
  | errand (i : Nat) (w : Wake)
  | hear (i : Nat) (r : Report)
  /-- A characteristic is handed to a worker, if it can be. -/
  | forward (uuid : CanonicalUuid)

/-- A move of a run, with the states on both sides of it. -/
structure Step where
  before : Shared
  move : Move
  told : List Event
  after : Shared

/-- A gateway that is to bring itself up, or one that nobody has asked to run. The loops of the
latter stand ready like its workers, and its runs need not touch them. -/
def initial (online running : Bool) : Shared :=
  { System.initial online with startup := if running then some .starting else none }

/-- The state after a move and the events told in it, if the move is possible. -/
def move? (setup : Setup) (s : Shared) : Move → Option (Shared × List Event)
  | .own m => (s.toSystem.move? setup m).map fun (system, told) =>
    ({ s with toSystem := system }, told)
  | .worker i w =>
    if s.startup.isNone && s.wakes setup (.worker i .receiver (s.workers i)) w then
      let segment := Forwarding.resume (s.moment setup) s.gateway i .receiver (s.workers i) w
      some ({ s with
        gateway := segment.gateway
        workers := Function.update s.workers i segment.turn.stage }, segment.events)
    else none
  | .call task => some ({ s with errands := s.errands ++ [.starting task] }, [])
  | .errand i w =>
    match s.errands[i]? with
    | some stage =>
      if s.wakes setup (.errand i stage) w then
        let system := s.toSystem.answered (stage.call? setup) w
        let segment := Errand.resume (system.moment setup) s.gateway stage w
        let errands :=
          match segment.turn.stage? with
          | some next => s.errands.set i next
          | none => s.errands.eraseIdx i
        some ({ system with gateway := segment.gateway, errands }, segment.events)
      else none
    | none => none
  | .hear i r => some ({ s with errands := s.errands.modify i (·.hear r) }, [])
  | .forward uuid => some ({ s with gateway := (s.gateway.forward? uuid).getD s.gateway }, [])

/-- The steps and the state that moves lead to, if each of them is possible. -/
def trace? (setup : Setup) (past : List Step) (s : Shared) : List Move → Option (List Step × Shared)
  | [] => some (past, s)
  | m :: ms =>
    match s.move? setup m with
    | some (s', told) => trace? setup (⟨s, m, told, s'⟩ :: past) s' ms
    | none => none

/-- The runs of a gateway with clients: the steps taken so far, the latest first, and the present
state. -/
inductive Run (setup : Setup) : List Step → Shared → Prop
  | start (online running : Bool) : Run setup [] (.initial online running)
  | step {past : List Step} {s s' : Shared} {m : Move} {told : List Event}
      (run : Run setup past s) (moved : s.move? setup m = some (s', told)) :
      Run setup (⟨s, m, told, s'⟩ :: past) s'

/-! ## What a move comes to -/

/-- What the serving loop and the operations of clients have under way with the peer. -/
def engagements (s : Shared) : List Engagement :=
  s.serving.engagement?.toList ++ s.errands.filterMap (·.engagement?)

/-- The worker that goes on in a move, and where its values go. -/
def Move.worker? : Move → Option (Worker × Wake × Forwarding.Outlet)
  | .own (.worker i w) => some (i, w, .broker)
  | .worker i w => some (i, w, .receiver)
  | _ => none

/-- What a move comes to for the peer and the workers. -/
inductive Moved (setup : Setup) (s : Shared) (m : Move) (s' : Shared) (told : List Event) : Prop
  | works {i : Worker} {w : Wake} {outlet : Forwarding.Outlet}
      {segment : Segment Forwarding.Stage Empty} (worker : m.worker? = some (i, w, outlet))
      (woken : s.wakes setup (.worker i outlet (s.workers i)) w = true)
      (ran : Forwarding.resume (s.moment setup) s.gateway i outlet (s.workers i) w = segment)
      (gateway : s'.gateway = segment.gateway)
      (workers : s'.workers = Function.update s.workers i segment.turn.stage)
      (told : told = segment.events) (engagements : s'.engagements = s.engagements)
  /-- One strand goes on, and what the others have under way stays as it is. -/
  | acts (moment : Moment) (w : Wake) (before behind : List Engagement) (e e' : Option Engagement)
      (worker : m.worker? = none) (found : s.engagements = before ++ e.toList ++ behind)
      (left : s'.engagements = before ++ e'.toList ++ behind)
      (reaches : Reaches moment w s.gateway e s'.gateway e') (workers : s'.workers = s.workers)
  | hands {uuid : CanonicalUuid} (move : m = .forward uuid)
      (forwarded : s.gateway.forward? uuid = some s'.gateway) (workers : s'.workers = s.workers)
      (engagements : s'.engagements = s.engagements)

variable {setup : Setup} {s s' : Shared} {m : Move} {told : List Event}

theorem Moved.idles (worker : m.worker? = none) (aside : s.gateway.Aside s'.gateway)
    (workers : s'.workers = s.workers) (engagements : s'.engagements = s.engagements) :
    Moved setup s m s' told :=
  .acts (s.moment setup) .signal [] s.engagements none none worker rfl engagements
    (.inl (.aside (.inl rfl) aside)) workers

/-- What the loops and the workers do beside the operations of clients. -/
theorem moved_own {m : GattGateway.Move} {system : System}
    (h : System.Moved setup s.toSystem m system told) :
    Moved setup s (.own m) { s with toSystem := system } told := by
  cases h with
  | worker up woken ran => exact .works rfl woken ran rfl rfl rfl rfl
  | @serving w segment up woken ran =>
    subst ran
    have reaches := Serving.resume_reaches
      (m := (s.toSystem.answered s.serving.call? w).moment setup)
      (System.woken_of_wakes woken)
    exact .acts _ _ [] _ _ _ rfl rfl (by simp [engagements]) reaches (by simp)
  | startup present woken ran =>
    subst ran
    exact .idles rfl (Greeting.Kept.aside Startup.resume_ends.gateway) (by simp)
      (by simp [engagements])
  | autoscan up woken ran =>
    subst ran
    exact .idles rfl Autoscan.resume_aside rfl rfl
  | greeting present woken ran =>
    subst ran
    exact .idles rfl (Greeting.Kept.aside Greeting.resume_ends.gateway) (by simp)
      (by simp [engagements])
  | greet => exact .idles rfl (Greeting.Kept.aside Greeting.begin_ends.gateway) rfl rfl
  | rejoin offline => exact .idles rfl (Greeting.Kept.aside Greeting.begin_ends.gateway) rfl rfl
  | message inbox => exact .idles rfl ⟨rfl, rfl, rfl⟩ rfl rfl
  | _ => exact .idles rfl (.refl _) rfl rfl

theorem filterMap_engagement?_cons (stage : Errand.Stage) (stages : List Errand.Stage) :
    (stage :: stages).filterMap (·.engagement?) =
      stage.engagement?.toList ++ stages.filterMap (·.engagement?) := by
  cases h : stage.engagement? with
  | none => simp [h]
  | some e => simp [h]

/-- A report that comes in changes no engagement. -/
theorem filterMap_engagement?_modify (stages : List Errand.Stage) (i : Nat) (r : Report) :
    (stages.modify i (·.hear r)).filterMap (·.engagement?) =
      stages.filterMap (·.engagement?) := by
  induction stages generalizing i with
  | nil => simp
  | cons stage stages ih =>
    cases i with
    | zero => simp [filterMap_engagement?_cons]
    | succ i => simp [filterMap_engagement?_cons, ih]

/-- The operations before and after one that is under way. -/
theorem errands_split {i : Nat} {stage : Errand.Stage} (h : s.errands[i]? = some stage) :
    ∃ before behind, s.errands = before ++ stage :: behind ∧
      (∀ next, s.errands.set i next = before ++ next :: behind) ∧
      s.errands.eraseIdx i = before ++ behind := by
  obtain ⟨hi, rfl⟩ := List.getElem?_eq_some_iff.1 h
  refine ⟨s.errands.take i, s.errands.drop (i + 1), ?_, ?_, ?_⟩
  · rw [List.getElem_cons_drop, List.take_append_drop]
  · intro next
    exact List.set_eq_take_append_cons_drop.trans (if_pos hi)
  · exact List.eraseIdx_eq_take_drop_succ _ _

theorem moved_errand {i : Nat} {w : Wake} (h : s.move? setup (.errand i w) = some (s', told)) :
    Moved setup s (.errand i w) s' told := by
  simp only [move?] at h
  split at h
  · rename_i stage hi
    split_ifs at h with woken
    cases h
    obtain ⟨before, behind, hfound, hset, herase⟩ := errands_split hi
    have comes := Errand.resume_comes
      (m := (s.toSystem.answered (stage.call? setup) w).moment setup)
      (System.woken_of_wakes woken)
    have found : s.engagements = (s.serving.engagement?.toList ++ before.filterMap (·.engagement?))
        ++ stage.engagement?.toList ++ behind.filterMap (·.engagement?) := by
      rw [engagements, hfound, List.filterMap_append, filterMap_engagement?_cons]
      simp
    generalize Errand.resume _ s.gateway stage w = segment at comes ⊢
    rcases segment with ⟨g, turn, events⟩
    cases turn with
    | wait next =>
      refine .acts _ _ _ _ _ _ rfl found ?_ (.inl comes) (by simp)
      simp [engagements, Turn.stage?, hset, filterMap_engagement?_cons]
    | finish result =>
      refine .acts _ _ _ _ _ _ rfl found ?_ (.inl comes) (by simp)
      simp [engagements, Turn.stage?, herase]
  · cases h

theorem moved_of_move? (h : s.move? setup m = some (s', told)) : Moved setup s m s' told := by
  cases m with
  | own m =>
    obtain ⟨⟨system, told'⟩, hm, he⟩ := Option.map_eq_some_iff.1 h
    cases he
    exact moved_own (System.moved_of_move? hm)
  | worker i w =>
    simp only [move?] at h
    split_ifs at h with hw
    cases h
    simp only [Bool.and_eq_true] at hw
    exact .works rfl hw.2 rfl rfl rfl rfl rfl
  | call task =>
    cases h
    have he : (Errand.Stage.starting task).engagement? = none := rfl
    exact .idles rfl (.refl _) rfl (by simp [engagements, he])
  | errand i w => exact moved_errand h
  | hear i r =>
    cases h
    exact .idles rfl (.refl _) rfl (by simp [engagements, filterMap_engagement?_modify])
  | forward uuid =>
    cases h
    cases hf : s.gateway.forward? uuid with
    | some g => exact .hands rfl hf rfl rfl
    | none => exact .idles rfl (.refl _) rfl rfl

namespace Run

variable {setup : Setup} {past : List Step} {s : Shared}

/-- Every state that a run has been in. -/
def states (past : List Step) (s : Shared) : List Shared := s :: past.map Step.before

theorem trace? {ms : List Move} {past' : List Step} {s' : Shared} (h : Run setup past s)
    (hm : Shared.trace? setup past s ms = some (past', s')) : Run setup past' s' := by
  induction ms generalizing past s with
  | nil =>
    cases hm
    exact h
  | cons m ms ih =>
    simp only [Shared.trace?] at hm
    split at hm
    · exact ih (h.step ‹_›) hm
    · cases hm

/-- What moves from the start lead to is a run. -/
theorem exists_of_any {online running : Bool} {ms : List Move} {p : List Step × Shared → Bool}
    (h : (Shared.trace? setup [] (.initial online running) ms).any p = true) :
    ∃ past s, Run setup past s ∧ p (past, s) = true := by
  obtain ⟨⟨past, s⟩, hm, hp⟩ := (Option.any_eq_true _ _).1 h
  exact ⟨past, s, (Run.start online running).trace? hm, hp⟩

end Run

end Shared

/-! ## A gateway that nobody calls -/

def System.shared (s : System) : Shared := { s with }

def Step.shared (t : Step) : Shared.Step := ⟨t.before.shared, .own t.move, t.told, t.after.shared⟩

/-- A gateway that nobody calls is a gateway with clients that call nothing. -/
theorem Run.shared {setup : Setup} {past : List Step} {s : System} (h : Run setup past s) :
    Shared.Run setup (past.map Step.shared) s.shared := by
  induction h with
  | start online => exact .start online true
  | @step past s s' m told run moved ih =>
    have moved' : s.shared.move? setup (.own m) = some (s'.shared, told) := by
      simp [Shared.move?, System.shared, moved]
    exact ih.step moved'

end GattGateway
