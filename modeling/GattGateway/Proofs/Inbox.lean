import GattGateway.Proofs.Channels

/-!
# The inbox as a queue

A message is accepted if it fits its buffers and finds room, and is dropped without a trace if not.
Whatever has been accepted has either been taken up, in the order of arrival, or still waits.
-/
namespace GattGateway

open Text (Bytes)

/-! ## One message -/

section

variable {q q' : Inbox} {r : Request} {topic : String} {payload : Bytes}

theorem Topic.ofText?_eq_some_iff {s : String} {t : Topic} : ofText? s = some t ↔ t.text = s := by
  unfold ofText?
  split
  · rw [Option.some_inj]
    exact ⟨fun he => he ▸ rfl, fun he => by cases t; cases he; rfl⟩
  · refine ⟨fun he => absurd he.symm (Option.some_ne_none _), fun he => ?_⟩
    subst s
    exact absurd t.fits ‹_›

theorem Request.ofParts?_eq_some_iff :
    ofParts? topic payload = some r ↔ r.topic.text = topic ∧ r.payload = payload := by
  rcases r with ⟨t, bytes, fits⟩
  simp only [ofParts?, Option.bind_eq_bind, Option.bind_eq_some_iff, Topic.ofText?_eq_some_iff]
  constructor
  · rintro ⟨t', ht, h⟩
    split_ifs at h
    cases h
    exact ⟨ht, rfl⟩
  · rintro ⟨ht, rfl⟩
    exact ⟨t, ht, dif_pos fits⟩

/-- A message fits if its topic and its payload do. -/
theorem Request.exists_ofParts?_iff : (∃ r, ofParts? topic payload = some r) ↔
    topic.utf8ByteSize ≤ maxTopicBytes ∧ payload.length ≤ maxPayloadBytes := by
  simp only [ofParts?_eq_some_iff]
  constructor
  · rintro ⟨r, rfl, rfl⟩
    exact ⟨r.topic.fits, r.fits⟩
  · rintro ⟨ht, hp⟩
    exact ⟨⟨⟨topic, ht⟩, payload, hp⟩, rfl, rfl⟩

namespace Inbox

theorem push?_eq_some_iff : q.push? r = some q' ↔ q'.requests = q.requests ++ [r] := by
  obtain ⟨rs, fits⟩ := q'
  unfold push?
  split
  · rw [Option.some_inj]
    exact ⟨fun he => by cases he; rfl, fun he => by cases he; rfl⟩
  · refine ⟨fun he => absurd he.symm (Option.some_ne_none _), ?_⟩
    rintro rfl
    exact absurd fits ‹_›

theorem pop?_eq_some_iff : q.pop? = some (r, q') ↔ q.requests = r :: q'.requests := by
  rcases q with ⟨_ | ⟨r', rs⟩, fits⟩
  · simp [pop?]
  · rcases q' with ⟨rs', fits'⟩
    simp [pop?]

theorem accept?_eq_some_iff : q.accept? topic payload = some q' ↔
    ∃ r, Request.ofParts? topic payload = some r ∧ q'.requests = q.requests ++ [r] := by
  simp only [accept?, Option.bind_eq_some_iff, push?_eq_some_iff]

/-- A message is accepted if and only if it fits and fewer messages wait than the inbox holds. -/
theorem isSome_accept?_iff : (q.accept? topic payload).isSome = true ↔
    topic.utf8ByteSize ≤ maxTopicBytes ∧ payload.length ≤ maxPayloadBytes ∧
      q.size < queueDepth := by
  have room {r : Request} :
      (∃ q' : Inbox, q'.requests = q.requests ++ [r]) ↔ q.size < queueDepth := by
    have length : (q.requests ++ [r]).length = q.size + 1 := List.length_append
    constructor
    · rintro ⟨q', hq⟩
      have fits := q'.fits
      rw [hq, length] at fits
      exact fits
    · intro h
      exact ⟨⟨q.requests ++ [r], length ▸ h⟩, rfl⟩
  rw [Option.isSome_iff_exists, ← and_assoc, ← Request.exists_ofParts?_iff]
  simp only [accept?_eq_some_iff]
  constructor
  · rintro ⟨q', r, fits, hq⟩
    exact ⟨⟨r, fits⟩, room.1 ⟨q', hq⟩⟩
  · rintro ⟨⟨r, fits⟩, free⟩
    obtain ⟨q', hq⟩ := room.2 free
    exact ⟨q', r, fits, hq⟩

end Inbox

end

/-! ## What joins the inbox and what leaves it -/

/-- The message from the broker that is accepted in a step. -/
def Step.accepts? (t : Step) : Option Request :=
  match t.move with
  | .message topic payload =>
    (t.before.gateway.inbox.accept? topic payload).bind fun _ => Request.ofParts? topic payload
  | _ => none

/-! In what follows steps stand in the order in which they are taken. -/

/-- The messages that are accepted. -/
def accepted (steps : List Step) : List Request := steps.filterMap Step.accepts?

/-- The messages that the serving loop takes up. -/
def taken (steps : List Step) : List Request := steps.filterMap Step.takes?

/-- What becomes of a message from the broker: it joins the end of the inbox if it fits its buffers
and fewer messages wait than the inbox holds, and changes nothing if not. -/
structure Step.Offers (t : Step) (topic : String) (payload : Bytes) : Prop where
  accepted_iff : t.accepts?.isSome = true ↔ topic.utf8ByteSize ≤ maxTopicBytes ∧
    payload.length ≤ maxPayloadBytes ∧ t.before.gateway.inbox.size < queueDepth
  joins : ∀ r, t.accepts? = some r → r.topic.text = topic ∧ r.payload = payload ∧
    ∃ inbox : Inbox, inbox.requests = t.before.gateway.inbox.requests ++ [r] ∧
      t.after = { t.before with gateway := { t.before.gateway with inbox } }
  dropped : t.accepts? = none → t.after = t.before
  silent : t.told = []

variable {setup : Setup} {past : List Step} {s s' : System} {mv : Move} {told : List Event}
  {topic : String} {payload : Bytes} {t : Step}

theorem accepted_concat {steps : List Step} :
    accepted (steps ++ [t]) = accepted steps ++ t.accepts?.toList := by
  cases h : t.accepts? <;> simp [accepted, h]

theorem taken_concat {steps : List Step} :
    taken (steps ++ [t]) = taken steps ++ t.takes?.toList := by
  cases h : t.takes? <;> simp [taken, h]

theorem System.offers (moved : s.move? setup (.message topic payload) = some (s', told)) :
    Step.Offers ⟨s, .message topic payload, told, s'⟩ topic payload := by
  have accepts : Step.accepts? ⟨s, .message topic payload, told, s'⟩ =
      (s.gateway.inbox.accept? topic payload).bind fun _ => Request.ofParts? topic payload := rfl
  have fits : (s.gateway.inbox.accept? topic payload).isSome = true ↔
      topic.utf8ByteSize ≤ maxTopicBytes ∧ payload.length ≤ maxPayloadBytes ∧
        s.gateway.inbox.size < queueDepth := Inbox.isSome_accept?_iff
  simp only [move?] at moved
  cases ha : s.gateway.inbox.accept? topic payload with
  | none =>
    rw [ha] at moved accepts fits
    cases moved
    refine ⟨?_, ?_, fun _ => rfl, rfl⟩
    · rw [accepts]
      exact fits
    · rw [accepts]
      rintro r ⟨⟩
  | some inbox =>
    obtain ⟨r, hr, joined⟩ := Inbox.accept?_eq_some_iff.1 ha
    rw [ha] at moved accepts fits
    rw [Option.bind_some, hr] at accepts
    cases moved
    refine ⟨?_, ?_, ?_, rfl⟩
    · rw [accepts]
      exact fits
    · rw [accepts]
      rintro _ ⟨⟩
      obtain ⟨text, bytes⟩ := Request.ofParts?_eq_some_iff.1 hr
      exact ⟨text, bytes, inbox, joined, rfl⟩
    · rw [accepts]
      rintro ⟨⟩

/-- Beside the broker and the serving loop nobody touches the inbox. -/
theorem System.Coherent.inbox (h : s.Coherent) (hm : System.Moved setup s mv s' told) :
    (∃ w, mv = .serving w) ∨ (∃ topic payload, mv = .message topic payload) ∨
      Step.accepts? ⟨s, mv, told, s'⟩ = none ∧ Step.takes? ⟨s, mv, told, s'⟩ = none ∧
        s'.gateway.inbox = s.gateway.inbox := by
  cases hm with
  | serving up woken ran => exact .inl ⟨_, rfl⟩
  | message inbox => exact .inr (.inl ⟨_, _, rfl⟩)
  | autoscan up woken ran =>
    obtain ⟨-, kept⟩ := h.autoscan_kept (.autoscan up woken ran)
    exact .inr (.inr ⟨rfl, rfl, by rw [kept.rest]⟩)
  | startup present woken ran =>
    subst ran
    exact .inr (.inr ⟨rfl, rfl, (Greeting.Kept.retains Startup.resume_ends.gateway).inbox⟩)
  | worker up woken ran =>
    subst ran
    exact .inr (.inr ⟨rfl, rfl, (Forwarding.Kept.retains Forwarding.resume_leads).inbox⟩)
  | greeting present woken ran =>
    subst ran
    exact .inr (.inr ⟨rfl, rfl, (Greeting.Kept.retains Greeting.resume_ends.gateway).inbox⟩)
  | greet => exact .inr (.inr ⟨rfl, rfl, (Greeting.Kept.retains Greeting.begin_ends.gateway).inbox⟩)
  | rejoin offline =>
    exact .inr (.inr ⟨rfl, rfl, (Greeting.Kept.retains Greeting.begin_ends.gateway).inbox⟩)
  | _ => exact .inr (.inr ⟨rfl, rfl, rfl⟩)

/-- What the serving loop leaves of the inbox is what it has not taken up. -/
theorem Serving.requests_taking (s s' : System) (w : Wake) (told : List Event) :
    s.gateway.inbox.requests = (Step.takes? ⟨s, .serving w, told, s'⟩).toList ++
      (taking s.gateway s.serving w).inbox.requests := by
  simp only [Step.takes?, taking]
  cases w with
  | signal =>
    cases s.serving with
    | receiving =>
      cases hpop : s.gateway.inbox.pop? with
      | none => rfl
      | some popped => exact Inbox.pop?_eq_some_iff.1 hpop
    | _ => rfl
  | reply r => cases s.serving <;> rfl
  | timeout => cases s.serving <;> rfl

/-- One step of the queue: what waited, and what is accepted behind it, is what is taken up, and
what waits then. -/
theorem Run.requests_step (h : Run setup past s) (moved : s.move? setup mv = some (s', told)) :
    s.gateway.inbox.requests ++ (Step.accepts? ⟨s, mv, told, s'⟩).toList =
      (Step.takes? ⟨s, mv, told, s'⟩).toList ++ s'.gateway.inbox.requests := by
  have hm := System.moved_of_move? moved
  rcases h.coherent.inbox hm with ⟨w, rfl⟩ | ⟨topic, payload, rfl⟩ | ⟨accepts, takes, same⟩
  · cases hm with
    | serving up woken ran =>
      subst ran
      have kept := (Serving.resume_speaks (w := w) (g := s.gateway)
        (m := (s.answered s.serving.call? w).moment setup) h.addressed.serving).retains.inbox
      rw [kept]
      exact (List.append_nil _).trans (Serving.requests_taking s _ w _)
  -- `Moved` forgets what joins the inbox, so that this case goes back to the move itself.
  · have offers := System.offers moved
    cases ha : Step.accepts? ⟨s, .message topic payload, told, s'⟩ with
    | none =>
      have same : s' = s := offers.dropped ha
      rw [same]
      exact List.append_nil _
    | some r =>
      obtain ⟨-, -, inbox, joined, after⟩ := offers.joins r ha
      have after : s' = { s with gateway := { s.gateway with inbox } } := after
      rw [after]
      exact joined.symm
  · rw [accepts, takes, same]
    exact List.append_nil _

/-- The queue of a whole run: what has been accepted is what has been taken up, and what waits. -/
theorem Run.accepted_eq (h : Run setup past s) :
    accepted past.reverse = taken past.reverse ++ s.gateway.inbox.requests := by
  induction h with
  | start online => rfl
  | @step past s s' mv told run moved ih =>
    rw [List.reverse_cons, accepted_concat, taken_concat, ih, List.append_assoc, List.append_assoc,
      run.requests_step moved]

end GattGateway
