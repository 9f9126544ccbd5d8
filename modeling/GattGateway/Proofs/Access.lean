import GattGateway.Proofs.Discovery
import GattGateway.Proofs.Handshake
import GattGateway.Proofs.Pause
import GattGateway.Proofs.PrintedSize

/-!
# Reading and writing values

A message on a topic of values reaches the last characteristic discovered under its identifier,
however that is spelled. The radio is asked for it once, a value that is read is answered on the
topic of the canonical identifier, and whatever fails is reported once. Where nothing has that
identifier the radio is not asked at all.
-/
namespace GattGateway

open Segment
open Text (Bytes)

/-! ## Topics -/

theorem CanonicalUuid.utf8ByteSize_text (u : CanonicalUuid) : u.text.utf8ByteSize = 32 := by
  rw [text, Text.utf8ByteSize_hexText, Vector.length_toList]

namespace Topics

/-- Every topic of a gateway fits. -/
theorem fits_path (t : Topics) (name : TopicName) :
    (t.base ++ name.path).utf8ByteSize ≤ maxTopicBytes := by
  refine t.fits_of_short ?_
  cases name with
  | readResponse u =>
    simp only [TopicName.path, String.utf8ByteSize_append, u.utf8ByteSize_text]
    decide
  | notification u =>
    simp only [TopicName.path, String.utf8ByteSize_append, u.utf8ByteSize_text]
    decide
  | _ => decide

/-- A message on one of a gateway's own topics. -/
def note (t : Topics) (name : TopicName) (payload : Bytes) : Message :=
  { topic := ⟨t.base ++ name.path, t.fits_path name⟩, payload }

theorem topic_eq (t : Topics) (name : TopicName) :
    t.topic name = .ok ⟨t.base ++ name.path, t.fits_path name⟩ := by
  simp only [topic, Topic.ofText?, dif_pos (t.fits_path name)]

end Topics

namespace Serving

variable {m : Moment} {g : Gateway}

theorem report_eq (e : Fault) : report m g e = telling (.error e.message)
    (.wait g (.reporting (m.topics.note .error (Text.utf8 e.message)))) := by
  simp only [report, m.topics.topic_eq]
  rfl

theorem answer_eq (u : CanonicalUuid) (value : Bytes) : answer m g u value =
    .wait g (.answering u value (m.topics.note (.readResponse u) value)) := by
  simp only [answer, send, m.topics.topic_eq]
  rfl

end Serving

/-! ## Commands -/

/-- What a command does with the value of a characteristic. -/
inductive Access
  | write (data : Bytes)
  | read
  deriving DecidableEq, Repr

namespace Access

/-- The part of its topic between the base and the identifier. -/
def path : Access → String
  | .write _ => "/write/"
  | .read => "/read/"

def command (u : CanonicalUuid) : Access → Command
  | .write data => .write u data
  | .read => .read u

def call (connection : Connection) (handle : Handle) : Access → Call
  | .write data => .write connection handle data
  | .read => .read connection handle

/-- What is answered where there is no such characteristic. -/
def fallback? : Access → Option Bytes
  | .write _ => none
  | .read => some []

end Access

/-- A message is one to read or to write the value of an identifier, spelled in one segment of its
topic. -/
structure Request.Accesses (topics : Topics) (r : Request) (a : Access) (segment : String)
    (u : CanonicalUuid) : Prop where
  topic : r.topic.text = topics.base ++ a.path ++ segment
  single : Topics.isSegment segment.toList = true
  spelled : CanonicalUuid.parse? segment = some u
  data : a = .write r.payload ∨ a = .read

namespace Topics

theorem routeOf_write {cs : List Char} (h : isSegment cs = true) :
    routeOf ("write/".toList ++ cs) = some (.write (String.ofList cs)) := by
  have text : "write/".toList = ['w', 'r', 'i', 't', 'e', '/'] := by decide
  have connect : "connect".toList = 'c' :: "onnect".toList := by decide
  have disconnect : "disconnect".toList = 'd' :: "isconnect".toList := by decide
  have found : behind? "write/".toList ("write/".toList ++ cs) = some cs :=
    behind?_eq_some_iff.2 rfl
  unfold routeOf
  rw [found, if_neg (by simp [text, connect]), if_neg (by simp [text, disconnect])]
  simp [h]

theorem routeOf_read {cs : List Char} (h : isSegment cs = true) :
    routeOf ("read/".toList ++ cs) = some (.read (String.ofList cs)) := by
  have text : "read/".toList = ['r', 'e', 'a', 'd', '/'] := by decide
  have connect : "connect".toList = 'c' :: "onnect".toList := by decide
  have disconnect : "disconnect".toList = 'd' :: "isconnect".toList := by decide
  have write : "write/".toList = 'w' :: "rite/".toList := by decide
  have found : behind? "read/".toList ("read/".toList ++ cs) = some cs :=
    behind?_eq_some_iff.2 rfl
  have lost : behind? "write/".toList ("read/".toList ++ cs) = none := by
    rw [write, text]
    rfl
  unfold routeOf
  rw [found, lost, if_neg (by simp [text, connect]), if_neg (by simp [text, disconnect])]
  simp [h]

/-- What stands behind the base and a slash is sorted. -/
theorem route_eq {t : Topics} {topic : String} {cs : List Char}
    (h : topic.toList = t.base.toList ++ '/' :: cs) : t.route topic = routeOf cs := by
  have base : behind? t.base.toList topic.toList = some ('/' :: cs) := behind?_eq_some_iff.2 h
  have slash : behind? ['/'] ('/' :: cs) = some cs := behind?_eq_some_iff.2 rfl
  simp [route, base, slash]

end Topics

/-- Such a message is the command that it looks like. -/
theorem Request.Accesses.command {topics : Topics} {r : Request} {a : Access} {segment : String}
    {u : CanonicalUuid} (h : r.Accesses topics a segment u) :
    Command.ofMessage topics r.topic.text r.payload = .ok (some (a.command u)) := by
  have fits : r.payload.length ≤ maxValueBytes := r.fits
  have topic := h.topic
  rcases h.data with rfl | rfl
  · have path : "/write/".toList = '/' :: "write/".toList := by decide
    have text : r.topic.text.toList =
        topics.base.toList ++ '/' :: ("write/".toList ++ segment.toList) := by
      rw [topic, String.toList_append, String.toList_append, Access.path, path, List.append_assoc]
      rfl
    have route := (Topics.route_eq text).trans (Topics.routeOf_write h.single)
    rw [String.ofList_toList] at route
    simp [Command.ofMessage, route, Command.parse, Command.uuidOf, h.spelled, fits,
      Access.command, bind, Except.bind, Except.map]
  · have path : "/read/".toList = '/' :: "read/".toList := by decide
    have text : r.topic.text.toList =
        topics.base.toList ++ '/' :: ("read/".toList ++ segment.toList) := by
      rw [topic, String.toList_append, String.toList_append, Access.path, path, List.append_assoc]
      rfl
    have route := (Topics.route_eq text).trans (Topics.routeOf_read h.single)
    rw [String.ofList_toList] at route
    simp [Command.ofMessage, route, Command.parse, Command.uuidOf, h.spelled, Access.command,
      Except.map]

/-! ## What the serving loop asks and is told -/

/-- The value with which a read ends. -/
def Reply.value? (r : Reply) : Call → Option Bytes
  | .read _ _ => r.received.toOption
  | _ => none

/-- The fault with which a call of a command ends. -/
def Reply.fault? (r : Reply) : Call → Option Fault
  | .read _ _ =>
    match r.received with
    | .ok _ => none
    | .error e => some (.radio e)
  | .write _ _ _ =>
    match r.radio with
    | .ok _ => none
    | .error e => some (.radio e)
  | .publish _ =>
    match r.link with
    | .ok _ => none
    | .error e => some (.link e)
  | _ => none

def Event.isError : Event → Bool
  | .error _ => true
  | _ => false

namespace Step

variable (t : Step)

/-- The message that the serving loop takes up in a step. -/
def takes? : Option Request :=
  match t.move, t.before.serving with
  | .serving .signal, .receiving => t.before.gateway.inbox.pop?.map (·.1)
  | _, _ => none

/-- The call with which the serving loop goes on in a step. -/
def asks? : Option Call :=
  match t.move with
  | .serving _ => t.after.serving.call?
  | _ => none

/-- What the serving loop tells in a step. -/
def tells : List Event :=
  match t.move with
  | .serving _ => t.told
  | _ => []

/-- The call of the serving loop that is answered in a step, and the answer. -/
def answered? : Option (Call × Reply) :=
  match t.move with
  | .serving (.reply r) => t.before.serving.call?.map (·, r)
  | _ => none

end Step

/-! In what follows the steps of a command stand in the order in which they are taken. -/

/-- The calls of the serving loop. -/
def asked (steps : List Step) : List Call := steps.filterMap Step.asks?

/-- The errors that the serving loop tells. -/
def reported (steps : List Step) : List Event := (steps.flatMap Step.tells).filter Event.isError

/-- The first value that is read. -/
def value? (steps : List Step) : Option Bytes :=
  (steps.filterMap Step.answered?).findSome? fun (c, r) => r.value? c

/-- The first call that fails. -/
def fault? (steps : List Step) : Option Fault :=
  (steps.filterMap Step.answered?).findSome? fun (c, r) => r.fault? c

/-- What is answered to a command: what has been read, or what stands for an unknown value. -/
def response? (a : Access) (target? : Option Call) (steps : List Step) : Option Bytes :=
  (value? steps).or (if target?.isNone then a.fallback? else none)

/-- How a command is served. The target is the call that it asks of the radio, if it is known there.
-/
structure Served (topics : Topics) (a : Access) (u : CanonicalUuid) (target? : Option Call)
    (steps : List Step) : Prop where
  /-- The target is called, the value is answered, the first fault is reported, and that is all. -/
  calls : asked steps = target?.toList ++
    ((response? a target? steps).map fun value =>
      .publish (topics.note (.readResponse u) value)).toList ++
    ((fault? steps).map fun e => .publish (topics.note .error (Text.utf8 e.message))).toList
  errors : reported steps = ((fault? steps).map fun e => .error e.message).toList
  /-- Without a target nothing fails but the answer to a read. -/
  excused : target? = none → ∀ e, fault? steps = some e → a = .read ∧ ∃ cause, e = .link cause

/-- Where the serving loop stands with a command. -/
def Serving.Stage.Stands (a : Access) (u : CanonicalUuid) (target? : Option Call)
    (value? : Option Bytes) (fault? : Option Fault) : Stage → Prop
  | .receiving => True
  | .writing _ _ _ => target?.isSome = true ∧ fault? = none
  | .reading v _ _ => v = u ∧ target?.isSome = true ∧ value? = none ∧ fault? = none
  | .answering v _ _ => v = u ∧ (target? = none → a = .read) ∧ fault? = none
  | .reporting _ => fault?.isSome = true
  | _ => False

section

variable {topics : Topics} {a : Access} {u : CanonicalUuid} {target? : Option Call}
  {steps : List Step} {t : Step}

theorem asked_concat : asked (steps ++ [t]) = asked steps ++ t.asks?.toList := by
  cases h : t.asks? <;> simp [asked, h]

theorem reported_concat :
    reported (steps ++ [t]) = reported steps ++ t.tells.filter Event.isError := by
  simp [reported]

theorem value?_concat :
    value? (steps ++ [t]) = (value? steps).or (t.answered?.bind fun (c, r) => r.value? c) := by
  cases h : t.answered? <;> simp [value?, h]

theorem fault?_concat :
    fault? (steps ++ [t]) = (fault? steps).or (t.answered?.bind fun (c, r) => r.fault? c) := by
  cases h : t.answered? <;> simp [fault?, h]

theorem Served.rests (h : Served topics a u target? steps) (asks : t.asks? = none)
    (tells : t.tells.filter Event.isError = []) (hv : value? (steps ++ [t]) = value? steps)
    (hf : fault? (steps ++ [t]) = fault? steps) : Served topics a u target? (steps ++ [t]) where
  calls := by
    rw [asked_concat, asks, response?, hv, hf, h.calls, response?]
    exact List.append_nil _
  errors := by
    rw [reported_concat, tells, hf, h.errors]
    exact List.append_nil _
  excused hn e he := h.excused hn e (hf.symm.trans he)

theorem Served.answers (h : Served topics a u target? steps) {value : Bytes}
    (known : target?.isSome = true) (unread : value? steps = none) (sound : fault? steps = none)
    (asks : t.asks? = some (.publish (topics.note (.readResponse u) value))) (tells : t.tells = [])
    (hv : value? (steps ++ [t]) = some value) (hf : fault? (steps ++ [t]) = none) :
    Served topics a u target? (steps ++ [t]) where
  calls := by
    obtain ⟨c, rfl⟩ := Option.isSome_iff_exists.1 known
    rw [asked_concat, h.calls]
    simp [response?, asks, hv, hf, unread, sound]
  errors := by
    rw [reported_concat, tells, hf, h.errors, sound]
    rfl
  excused _ e he := by simp [hf] at he

theorem Served.fails (h : Served topics a u target? steps) {e : Fault} (sound : fault? steps = none)
    (excuse : target? = none → a = .read ∧ ∃ cause, e = .link cause)
    (asks : t.asks? = some (.publish (topics.note .error (Text.utf8 e.message))))
    (tells : t.tells = [.error e.message]) (hv : value? (steps ++ [t]) = value? steps)
    (hf : fault? (steps ++ [t]) = some e) : Served topics a u target? (steps ++ [t]) where
  calls := by
    rw [asked_concat, h.calls]
    simp [response?, asks, hv, hf, sound]
  errors := by
    rw [reported_concat, tells, hf, h.errors, sound]
    rfl
  excused hn e' he := by
    obtain rfl : e = e' := Option.some_inj.1 (hf.symm.trans he)
    exact excuse hn

open Serving in
/-- A step of the serving loop that does not take up a message goes on with the command at hand. -/
theorem Served.resume {m : Moment} {g : Gateway} {stage : Stage} {w : Wake}
    (h : Served m.topics a u target? steps)
    (stands : stage.Stands a u target? (value? steps) (fault? steps))
    (woken : Woken (stage.signalled g) stage.deadline? w) (working : stage ≠ .receiving)
    (asks : t.asks? = (Serving.resume m g stage w).turn.stage.call?)
    (tells : t.tells = (Serving.resume m g stage w).events)
    (answered : ∀ r, w = .reply r → t.answered? = stage.call?.map (·, r)) :
    Served m.topics a u target? (steps ++ [t]) ∧
      (Serving.resume m g stage w).turn.stage.Stands a u target? (value? (steps ++ [t]))
        (fault? (steps ++ [t])) := by
  cases stage with
  | receiving => exact absurd rfl working
  | writing connection handle data =>
    obtain ⟨r, rfl⟩ := woken.reply
    obtain ⟨known, sound⟩ := stands
    have answered : t.answered? = some (.write connection handle data, r) := answered r rfl
    have hv : value? (steps ++ [t]) = value? steps := by
      simp [value?_concat, answered, Reply.value?]
    cases hr : r.radio with
    | ok _ =>
      simp only [Serving.resume, hr] at asks tells ⊢
      have hf : fault? (steps ++ [t]) = fault? steps := by
        simp [fault?_concat, answered, Reply.fault?, hr]
      exact ⟨h.rests asks (by rw [tells]; rfl) hv hf, trivial⟩
    | error e =>
      simp only [Serving.resume, hr, report_eq] at asks tells ⊢
      have hf : fault? (steps ++ [t]) = some (.radio e) := by
        simp [fault?_concat, answered, Reply.fault?, hr, sound]
      exact ⟨h.fails sound (fun hn => by simp [hn] at known) asks tells hv hf,
        Option.isSome_iff_exists.2 ⟨_, hf⟩⟩
  | reading v connection handle =>
    obtain ⟨r, rfl⟩ := woken.reply
    obtain ⟨rfl, known, unread, sound⟩ := stands
    have answered : t.answered? = some (.read connection handle, r) := answered r rfl
    cases hr : r.received with
    | ok value =>
      simp only [Serving.resume, hr, answer_eq] at asks tells ⊢
      have hv : value? (steps ++ [t]) = some value := by
        simp [value?_concat, answered, Reply.value?, hr, unread, Except.toOption]
      have hf : fault? (steps ++ [t]) = none := by
        simp [fault?_concat, answered, Reply.fault?, hr, sound]
      exact ⟨h.answers known unread sound asks tells hv hf, rfl,
        fun hn => by simp [hn] at known, hf⟩
    | error e =>
      simp only [Serving.resume, hr, report_eq] at asks tells ⊢
      have hv : value? (steps ++ [t]) = value? steps := by
        simp [value?_concat, answered, Reply.value?, hr, Except.toOption]
      have hf : fault? (steps ++ [t]) = some (.radio e) := by
        simp [fault?_concat, answered, Reply.fault?, hr, sound]
      exact ⟨h.fails sound (fun hn => by simp [hn] at known) asks tells hv hf,
        Option.isSome_iff_exists.2 ⟨_, hf⟩⟩
  | answering v value message =>
    obtain ⟨r, rfl⟩ := woken.reply
    obtain ⟨rfl, reads, sound⟩ := stands
    have answered : t.answered? = some (.publish message, r) := answered r rfl
    have hv : value? (steps ++ [t]) = value? steps := by
      simp [value?_concat, answered, Reply.value?]
    cases hr : r.link with
    | ok _ =>
      simp only [Serving.resume, hr] at asks tells ⊢
      have hf : fault? (steps ++ [t]) = fault? steps := by
        simp [fault?_concat, answered, Reply.fault?, hr]
      exact ⟨h.rests asks (by rw [tells]; rfl) hv hf, trivial⟩
    | error e =>
      simp only [Serving.resume, hr, report_eq] at asks tells ⊢
      have hf : fault? (steps ++ [t]) = some (.link e) := by
        simp [fault?_concat, answered, Reply.fault?, hr, sound]
      exact ⟨h.fails sound (fun hn => ⟨reads hn, e, rfl⟩) asks tells hv hf,
        Option.isSome_iff_exists.2 ⟨_, hf⟩⟩
  | reporting message =>
    obtain ⟨r, rfl⟩ := woken.reply
    obtain ⟨e, he⟩ := Option.isSome_iff_exists.1 stands
    have answered : t.answered? = some (.publish message, r) := answered r rfl
    have hv : value? (steps ++ [t]) = value? steps := by
      simp [value?_concat, answered, Reply.value?]
    have hf : fault? (steps ++ [t]) = fault? steps := by simp [fault?_concat, he]
    simp only [Serving.resume] at asks tells ⊢
    exact ⟨h.rests asks (by rw [tells]; rfl) hv hf, trivial⟩
  | _ => exact stands.elim

/-- A command that is taken up goes on with its target, or with what stands for an unknown value. -/
theorem Served.dispatch {m : Moment} {g : Gateway} {r : Request} {segment : String}
    {connection : Connection} {cs : List Characteristic}
    (accesses : r.Accesses m.topics a segment u)
    (session : g.session = some (.ofDiscovery connection cs))
    (target : target? = (reached? cs u).map fun c => a.call connection c.handle)
    (asks : t.asks? = (Serving.dispatch m g r).turn.stage.call?)
    (tells : t.tells = (Serving.dispatch m g r).events) (answered : t.answered? = none) :
    Served m.topics a u target? [t] ∧
      (Serving.dispatch m g r).turn.stage.Stands a u target? (value? [t]) (fault? [t]) := by
  have unread : value? [t] = none := by simp [value?, answered]
  have sound : fault? [t] = none := by simp [fault?, answered]
  have only : asked [t] = t.asks?.toList := @asked_concat [] t
  have silent (h : t.tells = []) : reported [t] = [] := by simp [reported, h]
  have command := accesses.command
  have lookup := Gateway.lookup?_eq session u
  cases hc : reached? cs u with
  | some c =>
    rw [hc, Option.map_some] at lookup target
    subst target
    cases a with
    | write data =>
      simp only [Serving.dispatch, command, Access.command, Serving.handle, lookup] at asks tells ⊢
      refine ⟨⟨?_, ?_, fun none => absurd none (Option.some_ne_none _)⟩, rfl, sound⟩
      · rw [only, asks, response?, unread, sound]
        rfl
      · rw [silent tells, sound]
        rfl
    | read =>
      simp only [Serving.dispatch, command, Access.command, Serving.handle, lookup] at asks tells ⊢
      refine ⟨⟨?_, ?_, fun none => absurd none (Option.some_ne_none _)⟩, rfl, rfl, unread, sound⟩
      · rw [only, asks, response?, unread, sound]
        rfl
      · rw [silent tells, sound]
        rfl
  | none =>
    rw [hc, Option.map_none] at lookup target
    subst target
    cases a with
    | write data =>
      simp only [Serving.dispatch, command, Access.command, Serving.handle, lookup] at asks tells ⊢
      refine ⟨⟨?_, ?_, fun _ e he => by simp [sound] at he⟩, trivial⟩
      · rw [only, asks, response?, unread, sound]
        rfl
      · rw [silent tells, sound]
        rfl
    | read =>
      simp only [Serving.dispatch, command, Access.command, Serving.handle, lookup,
        Serving.answer_eq] at asks tells ⊢
      refine ⟨⟨?_, ?_, fun _ e he => by simp [sound] at he⟩, rfl, fun _ => rfl, sound⟩
      · rw [only, asks, response?, unread, sound]
        rfl
      · rw [silent tells, sound]
        rfl

end

/-! ## To try runs with -/

/-- What moves from the start lead to, with the run cut before its last steps. -/
theorem Run.exists_cut (setup : Setup) (online : Bool) (ms : List Move) (n : Nat)
    (p : List Step → Step → List Step → Bool)
    (h : (System.trace? setup [] (.initial online) ms).any (fun reached =>
      reached.1[n]?.any fun t => p (reached.1.take n) t (reached.1.drop (n + 1))) = true) :
    ∃ later t earlier s, Run setup (later ++ t :: earlier) s ∧ p later t earlier = true := by
  obtain ⟨past, s, run, hp⟩ := Run.exists_of_any h
  obtain ⟨later, t, earlier, rfl, holds⟩ := exists_cut_of_any (p := p) hp
  exact ⟨later, t, earlier, s, run, holds⟩

/-- A session is opened with these characteristics. -/
def Move.connectTo (cs : List Characteristic) : List Move :=
  bringUp ++
    [connectSample, .serving .signal, .serving (.reply .done), .serving (.reply (.connection 1)),
      .serving (.reply (.characteristics cs)), .serving (.reply .done), .serving (.reply .done),
      .serving (.reply .done)]

/-- The identifier of the sample, reported in its long form. -/
def Characteristic.longSample : Characteristic :=
  ⟨.long ⟨#[0, 0, 0x2A, 0x37, 0, 0, 0x10, 0, 0x80, 0, 0, 0x80, 0x5F, 0x9B, 0x34, 0xFB], rfl⟩,
    ⟨Property.notify.mask⟩, 5⟩

/-! ## Every command of a run -/

variable {setup : Setup} {a : Access} {u : CanonicalUuid} {target? : Option Call}
  {later earlier : List Step} {t : Step} {s : System} {r : Request} {segment : String}
  {connection : Connection} {cs : List Characteristic}

theorem Step.takes?_eq_some (h : t.takes? = some r) : t.move = .serving .signal ∧
    t.before.serving = .receiving ∧ ∃ inbox, t.before.gateway.inbox.pop? = some (r, inbox) := by
  unfold takes? at h
  split at h
  · rename_i hm hs
    obtain ⟨⟨r', inbox⟩, hpop, rfl⟩ := Option.map_eq_some_iff.1 h
    exact ⟨hm, hs, inbox, hpop⟩
  · cases h

/-- A loop that waits for a message is woken by one. -/
theorem System.takes_of_receiving {w : Wake} (hr : s.serving = .receiving)
    (woken : s.wakes setup (.serving s.serving) w = true) :
    ∃ r inbox, w = .signal ∧ s.gateway.inbox.pop? = some (r, inbox) := by
  rw [hr] at woken
  cases w with
  | signal =>
    have filled : (!s.gateway.inbox.requests.isEmpty) = true := woken
    cases hpop : s.gateway.inbox.pop? with
    | some taken => exact ⟨taken.1, taken.2, rfl, rfl⟩
    | none =>
      unfold Inbox.pop? at hpop
      split at hpop
      · rename_i empty
        simp [empty] at filled
      · cases hpop
  | reply r => simp [wakes, Wake.ends, Strand.call?, Serving.Stage.call?] at woken
  | timeout => simp [wakes, Wake.ends, Strand.deadline?, Serving.Stage.deadline?] at woken

/-- A step that takes up nothing goes on with the command at hand, or leaves it alone. -/
theorem System.Coherent.served {s' : System} {m : Move} {told : List Event} {steps : List Step}
    (h : s.Coherent) (served : Served setup.topics a u target? steps)
    (stands : s.serving.Stands a u target? (value? steps) (fault? steps))
    (hm : Moved setup s m s' told) (ht : Step.takes? ⟨s, m, told, s'⟩ = none) :
    Served setup.topics a u target? (steps ++ [⟨s, m, told, s'⟩]) ∧
      s'.serving.Stands a u target? (value? (steps ++ [⟨s, m, told, s'⟩]))
        (fault? (steps ++ [⟨s, m, told, s'⟩])) := by
  by_cases hs : ∃ w, m = .serving w
  · obtain ⟨w, rfl⟩ := hs
    cases hm with
    | serving up woken ran =>
      subst ran
      have working : s.serving ≠ .receiving := by
        intro hr
        obtain ⟨r, inbox, rfl, hpop⟩ := takes_of_receiving hr woken
        simp [Step.takes?, hr, hpop] at ht
      refine Served.resume (m := (s.answered s.serving.call? w).moment setup) served stands
        (woken_of_wakes woken) working ?_ ?_ ?_
      · rfl
      · rfl
      · rintro r rfl
        rfl
  · obtain ⟨same, -⟩ := (h.serving_or_idles hm).resolve_left hs
    have asks : Step.asks? ⟨s, m, told, s'⟩ = none := by
      cases m <;> first | rfl | exact absurd ⟨_, rfl⟩ hs
    have tells : Step.tells ⟨s, m, told, s'⟩ = [] := by
      cases m <;> first | rfl | exact absurd ⟨_, rfl⟩ hs
    have answered : Step.answered? ⟨s, m, told, s'⟩ = none := by
      cases m <;> first | rfl | exact absurd ⟨_, rfl⟩ hs
    have hv : value? (steps ++ [⟨s, m, told, s'⟩]) = value? steps := by
      simp [value?_concat, answered]
    have hf : fault? (steps ++ [⟨s, m, told, s'⟩]) = fault? steps := by
      simp [fault?_concat, answered]
    rw [same]
    refine ⟨served.rests asks (by rw [tells]; rfl) hv hf, ?_⟩
    rw [hv, hf]
    exact stands

/-- While a message is served the loop stands where the calls and the answers have brought it. -/
theorem Run.served (h : Run setup (later ++ t :: earlier) s) (taken : t.takes? = some r)
    (alone : ∀ t' ∈ later, t'.takes? = none)
    (accesses : r.Accesses setup.topics a segment u)
    (session : t.before.gateway.session = some (.ofDiscovery connection cs))
    (target : target? = (reached? cs u).map fun c => a.call connection c.handle) :
    Served setup.topics a u target? (t :: later.reverse) ∧
      s.serving.Stands a u target? (value? (t :: later.reverse)) (fault? (t :: later.reverse)) := by
  induction later generalizing s with
  | nil =>
    obtain ⟨hmove, hreceiving, inbox, hpop⟩ := Step.takes?_eq_some taken
    cases h with
    | @step past s s' m told run moved =>
      obtain rfl : m = .serving .signal := hmove
      cases System.moved_of_move? moved with
      | serving up woken ran =>
        subst ran
        have hresume {m : Moment} : Serving.resume m s.gateway s.serving .signal =
            Serving.dispatch m { s.gateway with inbox } r := by
          rw [show s.serving = .receiving from hreceiving]
          simp only [Serving.resume, show s.gateway.inbox.pop? = some (r, inbox) from hpop]
        simp only [hresume]
        refine Served.dispatch (m := (s.answered s.serving.call? .signal).moment setup) accesses
          session target ?_ ?_ ?_
        · rfl
        · rfl
        · rfl
  | cons t' later ih =>
    rw [List.cons_append] at h
    cases h with
    | @step past s s' m told run moved =>
      obtain ⟨served, stands⟩ := ih run fun t ht => alone t (List.mem_cons_of_mem _ ht)
      rw [List.reverse_cons, ← List.cons_append]
      exact run.coherent.served served stands (System.moved_of_move? moved)
        (alone _ List.mem_cons_self)

/-- A message for a value is served on the last characteristic, of those that make up the session,
that stands for the same number as its identifier. -/
theorem Run.value_reached (h : Run setup (later ++ t :: earlier) s) (taken : t.takes? = some r)
    (alone : ∀ t' ∈ later, t'.takes? = none)
    (accesses : r.Accesses setup.topics a segment u)
    (found : earlier.findSome? (·.discovered? setup) = some (connection, cs))
    (session : t.before.gateway.session.isSome = true) :
    Served setup.topics a u ((reached? cs u).map fun c => a.call connection c.handle)
      (t :: later.reverse) := by
  have before : Run setup earlier t.before := by
    have upTo := h.of_suffix (List.suffix_append later (t :: earlier))
    cases upTo with
    | step run moved => exact run
  have made : t.before.gateway.session = some (.ofDiscovery connection cs) := by
    rcases before.session_eq with none | made
    · simp [none] at session
    · rw [made, found]
      rfl
  exact (h.served taken alone accesses made rfl).1

/-- Of two characteristics with one identifier the last is read. -/
theorem value_reached_of_two : ∃ later t earlier s,
    Run .sample (later ++ t :: earlier) s ∧
    t.takes? = some ⟨⟨"ble/gateway/read/ 0X2a37", by decide⟩, [], by decide⟩ ∧
    earlier.findSome? (·.discovered? .sample) = some (1, [.sample, .longSample]) ∧
    value? (t :: later.reverse) = some [7] ∧
    Served Setup.sample.topics .read Characteristic.sample.uuid.canonical (some (.read 1 5))
      (t :: later.reverse) := by
  obtain ⟨later, t, earlier, s, run, hp⟩ := Run.exists_cut .sample false
    (Move.connectTo [.sample, .longSample] ++ [.message "ble/gateway/read/ 0X2a37" [],
      .serving .signal, .serving (.reply (.value [7])), .serving (.reply .done)]) 2
    (fun later t earlier =>
      t.takes? == some ⟨⟨"ble/gateway/read/ 0X2a37", by decide⟩, [], by decide⟩ &&
      later.all (·.takes?.isNone) &&
      earlier.findSome? (·.discovered? .sample) == some (1, [.sample, .longSample]) &&
      t.before.gateway.session.isSome && value? (t :: later.reverse) == some [7])
    (by decide +kernel)
  simp only [Bool.and_eq_true, beq_iff_eq, List.all_eq_true, Option.isNone_iff_eq_none] at hp
  obtain ⟨⟨⟨⟨taken, alone⟩, found⟩, session⟩, read⟩ := hp
  have accesses : Request.Accesses Setup.sample.topics
      ⟨⟨"ble/gateway/read/ 0X2a37", by decide⟩, [], by decide⟩ .read " 0X2a37"
      Characteristic.sample.uuid.canonical :=
    ⟨by decide, by decide, by decide, .inr rfl⟩
  have served := run.value_reached taken alone accesses found session
  exact ⟨later, t, earlier, s, run, taken, found, read, served⟩

/-- The answer to a read of an unknown characteristic cannot be published: an error is reported, and
a second message is published. -/
theorem unknown_value_reported : ∃ later t earlier s,
    Run .sample (later ++ t :: earlier) s ∧
    t.takes? = some ⟨⟨"ble/gateway/read/2a38", by decide⟩, [], by decide⟩ ∧
    (∀ t' ∈ later, t'.takes? = none) ∧
    Request.Accesses Setup.sample.topics ⟨⟨"ble/gateway/read/2a38", by decide⟩, [], by decide⟩ .read
      "2a38" (Uuid.short 0x2A38).canonical ∧
    earlier.findSome? (·.discovered? .sample) = some (1, [.sample]) ∧
    t.before.gateway.session = some (.ofDiscovery 1 [.sample]) ∧
    reached? [.sample] (Uuid.short 0x2A38).canonical = none ∧
    reported (t :: later.reverse) = [.error "Transport: publish failed"] ∧
    asked (t :: later.reverse) =
      [.publish (Setup.sample.topics.note (.readResponse (Uuid.short 0x2A38).canonical) []),
        .publish (Setup.sample.topics.note .error (Text.utf8 "Transport: publish failed"))] := by
  obtain ⟨later, t, earlier, s, run, hp⟩ := Run.exists_cut .sample false
    (Move.connectTo [.sample] ++ [.message "ble/gateway/read/2a38" [], .serving .signal,
      .serving (.reply (.linkFault .publish))]) 1
    (fun later t earlier =>
      t.takes? == some ⟨⟨"ble/gateway/read/2a38", by decide⟩, [], by decide⟩ &&
      later.all (·.takes?.isNone) &&
      earlier.findSome? (·.discovered? .sample) == some (1, [.sample]) &&
      t.before.gateway.session == some (.ofDiscovery 1 [.sample]) &&
      reported (t :: later.reverse) == [.error "Transport: publish failed"] &&
      asked (t :: later.reverse) ==
        [.publish (Setup.sample.topics.note (.readResponse (Uuid.short 0x2A38).canonical) []),
          .publish (Setup.sample.topics.note .error (Text.utf8 "Transport: publish failed"))])
    (by decide +kernel)
  simp only [Bool.and_eq_true, beq_iff_eq, List.all_eq_true, Option.isNone_iff_eq_none] at hp
  obtain ⟨⟨⟨⟨⟨taken, alone⟩, found⟩, session⟩, told⟩, calls⟩ := hp
  have accesses : Request.Accesses Setup.sample.topics
      ⟨⟨"ble/gateway/read/2a38", by decide⟩, [], by decide⟩ .read "2a38"
      (Uuid.short 0x2A38).canonical :=
    ⟨by decide, by decide, by decide, .inr rfl⟩
  exact ⟨later, t, earlier, s, run, taken, alone, accesses, found, session, by decide, told, calls⟩

end GattGateway
