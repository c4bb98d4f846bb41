import Bunting.FixTurns

/-!
Two FIX sessions joined by connections that break. Each side has a host that
calls its session, stores the state whenever the session asks for it, and
restores it when the sides connect again. Over all such histories a side
delivers what the other sent in order and once each, and passes over a message
only if the journal of the sender no longer had it.
-/

namespace Bunting.Simfix
open Stateful Framing Bytes Numbered FixSession

/-! ### Calls -/

/-- What a host does with its session. -/
inductive Call
  | Connected (timestamp : String) (now_millis : Nat)
  | Receive (count : Nat) (timestamp : String) (now_millis : Nat)
  | SendApplication (message : FixMessage) (timestamp : String)
  | SendReplaceable (message : FixMessage) (timestamp replacement_key : String)
  | RequestLogout (timestamp : String) (reason : Option String)
  | Probe (probe_id timestamp : String) (now_millis : Nat)
  | Poll (now_millis : Nat) (timestamp : String)

namespace Call

/-- A Logon opens a connection, before any of its bytes came; the numbers are reset by the session only. -/
def Allowed (session : FixSession) : Call → Prop
  | Connected _ _ => session.decoder.buffer = []
  | SendApplication message _ => message.msg_type ≠ "4"
  | SendReplaceable message _ _ => message.msg_type ≠ "4"
  | _ => True

instance (session : FixSession) (call : Call) : Decidable (call.Allowed session) := by
  cases call <;> unfold Allowed <;> infer_instance

/-- How many of the bytes that came the call reads. -/
def count : Call → Nat
  | Receive count _ _ => count
  | _ => 0

def perform (inbox : List UInt8) : Call → EStateM SessionError FixSession (List SessionAction)
  | Connected timestamp now_millis => connected_at timestamp now_millis
  | Receive count timestamp now_millis => receive_bytes_at (inbox.take count) timestamp now_millis
  | SendApplication message timestamp => send_application message timestamp
  | SendReplaceable message timestamp replacement_key => send_replaceable_application message timestamp replacement_key
  | RequestLogout timestamp reason => request_logout timestamp reason
  | Probe probe_id timestamp now_millis => probe probe_id timestamp now_millis
  | Poll now_millis timestamp => poll now_millis timestamp

/-- What the host sends by the call, with the number that it gets. -/
def sends (snapshot : SessionSnapshot) : Call → List (Nat × FixMessage)
  | SendApplication message _ => [(snapshot.outgoing_sequence,message)]
  | SendReplaceable message _ _ => [(snapshot.outgoing_sequence,message)]
  | _ => []

/-- The messages that the call receives, each with the state it was received in. -/
def hears (session : FixSession) (inbox : List UInt8) : Call → List (FixMessage × SessionSnapshot)
  | Receive count timestamp now_millis =>
    match (Decoder.push (inbox.take count)).run session.decoder with
    | .ok messages decoder => hear timestamp now_millis { session with decoder } messages
    | .error _ _ => []
  | _ => []

end Call

/-! ### The two sides -/

inductive Side
  | Left
  | Right
  deriving DecidableEq

def Side.other : Side → Side
  | Left => Right
  | Right => Left

/-- One side: its session while its host is up, the state it stored, the bytes on their way to it, and what happened. -/
structure Party where
  config : SessionConfig
  dictionary : CompetitionDictionary
  session : Option FixSession
  stored : SessionSnapshot
  inbox : List UInt8
  /-- Bytes sent to this side still reach it. -/
  connected : Bool
  sent : List (Nat × FixMessage)
  delivered : List FixMessage
  heard : List (FixMessage × SessionSnapshot)

def Party.start (config : SessionConfig) (dictionary : CompetitionDictionary) : Except SessionError Party := do
  let session ← try_new config dictionary
  pure ⟨config,dictionary,some session,session.snapshot,[],false,[],[],[]⟩

abbrev Link := Side → Party

def frames (actions : List SessionAction) : List (List UInt8) :=
  actions.filterMap fun
    | .Send frame => some frame
    | _ => none

inductive Event
  | call (side : Side) (call : Call)
  | crash (side : Side)
  /-- Of the bytes to a side only some still come, and none that are sent later. -/
  | cut (side : Side) (count : Nat)
  /-- Both sides restore what they stored, on a new connection. -/
  | reconnect

namespace Link

def start (config : Side → SessionConfig) (dictionary : Side → CompetitionDictionary) : Except SessionError Link := do
  let left ← Party.start (config .Left) (dictionary .Left)
  let right ← Party.start (config .Right) (dictionary .Right)
  pure fun
    | .Left => left
    | .Right => right

/-- A call that succeeds is followed: the state is stored if the session says so, and what it sends is on its way. -/
def answered (link : Link) (side : Side) (call : Call) (session session' : FixSession) (actions : List SessionAction) :
    Link :=
  let party := link side
  let peer := link side.other
  Function.update
    (Function.update link side { party with
      session := some session'
      stored := if .Persist ∈ actions then session'.snapshot else party.stored
      inbox := party.inbox.drop call.count
      sent := party.sent ++ call.sends session.snapshot
      delivered := party.delivered ++ applications actions
      heard := party.heard ++ call.hears session party.inbox })
    side.other { peer with inbox := if peer.connected then peer.inbox ++ (frames actions).flatten else peer.inbox }

/-- The link after an event, if the event can happen. -/
def step (link : Link) : Event → Option Link
  | .call side call => do
    let session ← (link side).session
    if call.Allowed session then
      match (call.perform (link side).inbox).run session with
      | .ok actions session' => some (link.answered side call session session' actions)
      | .error _ _ => some (Function.update link side { link side with session := none })
    else none
  | .crash side => some (Function.update link side { link side with session := none })
  | .cut side count => some (Function.update link side { link side with
      inbox := (link side).inbox.take count
      connected := false })
  | .reconnect => some fun side => { link side with
      session := (restore (link side).config (link side).dictionary (link side).stored).toOption
      inbox := []
      connected := true }

def run (link : Link) (events : List Event) : Option Link := events.foldlM step link

end Link

section Calls
variable {s t u : FixSession} {actions : List SessionAction} {inbox : List UInt8} {call : Call} {timestamp : String}
  {now_millis : Nat} {message : FixMessage} {gaps lost : Nat → Prop} {peer : Log FixMessage} {journal : Bool}
  {key : Option String}

theorem send_new_persists
    (ran : (send_new message timestamp now_millis journal key).run s = .ok actions t) : .Persist ∈ actions := by
  obtain ⟨_,_,rfl,_⟩ := send_new_ok ran
  simp

theorem receive_persists (ran : (receive message timestamp now_millis).run s = .ok actions t) :
    .Persist ∈ actions ∨ t = s := by
  simp only [receive,returned] at ran
  obtain ⟨_,sequence,_,ran⟩ := ran
  split_ifs at ran with early late copy
  · left
    simp only [hold,returned] at ran
    obtain ⟨_,answer,_,_,ran⟩ := ran
    split at ran
    · cases ran
      simp
    · simp only [returned] at ran
      obtain ⟨asked,_,sent,rfl,rfl⟩ := ran
      exact List.mem_append_right _ (send_new_persists sent)
  · cases ran
    exact .inr rfl
  · exact (throw_eq_ok.mp ran).elim
  · left
    simp only [accept,returned] at ran
    obtain ⟨_,_,_,_,_,_,rfl,_⟩ := ran
    simp

theorem receive_all_persists {messages : List FixMessage}
    (ran : (receive_all timestamp now_millis messages).run s = .ok actions t) : .Persist ∈ actions ∨ t = s := by
  induction messages generalizing s actions with
  | nil => exact .inr (pure_eq_ok.mp ran).2.symm
  | cons message messages ih =>
    simp only [receive_all,returned] at ran
    obtain ⟨first,u,heard,others,_,ran,rfl,rfl⟩ := ran
    rcases receive_persists heard with stored | rfl
    · exact .inl (List.mem_append_left _ stored)
    · exact (ih ran).imp_left (List.mem_append_right _)

/-- The ways a call goes: it receives, it sends a message of the host, or it sends on behalf of the session if at all. -/
inductive Performed (inbox : List UInt8) (s : FixSession) : Call → List SessionAction → FixSession → Prop
  | received {count : Nat} {timestamp : String} {now_millis : Nat} {messages : List FixMessage} {decoder : Decoder}
    {actions : List SessionAction} {t : FixSession} :
    (Decoder.push (inbox.take count)).run s.decoder = .ok messages decoder →
    (receive_all timestamp now_millis messages).run { s with decoder } = .ok actions t →
    Performed inbox s (.Receive count timestamp now_millis) actions t
  | sent {call : Call} {message : FixMessage} {timestamp : String} {now_millis : Nat} {journal : Bool} {key : Option String}
    {actions : List SessionAction} {t : FixSession} :
    call.count = 0 → call.sends s.snapshot = [(s.snapshot.outgoing_sequence,message)] → message.msg_type ≠ "4" →
    (∀ inbox, call.hears s inbox = []) →
    (send_new message timestamp now_millis journal key).run s = .ok actions t → Performed inbox s call actions t
  | other {call : Call} {actions : List SessionAction} {t : FixSession} :
    call.count = 0 → call.sends s.snapshot = [] → (∀ inbox, call.hears s inbox = []) →
    (.Persist ∈ actions ∨ t = s) → (∀ gaps peer lost, Serves gaps peer lost s actions t) → Performed inbox s call actions t

/-- A message of the session is sent after a change to neither the numbers nor the journal. -/
theorem asked_serves
    (ran : (send_new message timestamp now_millis journal key).run u = .ok actions t) (session : IsSession message)
    (buffer : u.decoder.buffer = s.decoder.buffer)
    (incoming : u.snapshot.incoming_sequence = s.snapshot.incoming_sequence)
    (outgoing : u.snapshot.outgoing_sequence = s.snapshot.outgoing_sequence)
    (journal_same : u.snapshot.journal = s.snapshot.journal)
    (held : u.snapshot.pending_inbound = s.snapshot.pending_inbound)
    (gaps : Nat → Prop) (peer : Log FixMessage) (lost : Nat → Prop) : Serves gaps peer lost s actions t :=
  (send_new_serves ran session).after
    (serves_still buffer incoming outgoing journal_same (fun _ _ found => .inl (held ▸ found)) (by simp) rfl)

theorem perform_cases (allowed : call.Allowed s) (ran : (call.perform inbox).run s = .ok actions t) :
    Performed inbox s call actions t := by
  cases call with
  | Connected timestamp now_millis =>
    simp only [Call.perform,connected_at,returned] at ran
    obtain ⟨_,_,ran⟩ := ran
    have kind (fields : List Field) (message : FixMessage) :
        (fields.foldl (fun message field => message.push field.tag field.value) message).msg_type = message.msg_type := by
      induction fields generalizing message with
      | nil => rfl
      | cons field fields ih => exact ih _
    refine .other rfl rfl (fun _ => rfl) (.inl (send_new_persists ran)) (asked_serves ran ?_ ?_ rfl rfl rfl rfl)
    · rw [IsSession,kind]
      change "A" ∈ _
      decide
    · exact Eq.symm allowed
  | Receive count timestamp now_millis =>
    simp only [Call.perform,receive_bytes_at,returned] at ran
    obtain ⟨messages,_,⟨decoder,pushed,rfl⟩,ran⟩ := ran
    exact .received pushed ran
  | SendApplication message timestamp =>
    simp only [Call.perform,send_application,returned] at ran
    obtain ⟨_,ran⟩ := ran
    exact .sent rfl rfl allowed (fun _ => rfl) ran
  | SendReplaceable message timestamp key =>
    simp only [Call.perform,send_replaceable_application,returned] at ran
    obtain ⟨_,_,ran⟩ := ran
    exact .sent rfl rfl allowed (fun _ => rfl) ran
  | RequestLogout timestamp reason =>
    simp only [Call.perform,request_logout,returned] at ran
    obtain ⟨_,ran⟩ := ran
    refine .other rfl rfl (fun _ => rfl) (.inl (send_new_persists ran)) (asked_serves ran ?_ rfl rfl rfl rfl rfl)
    cases reason <;> change "5" ∈ _ <;> decide
  | Probe probe_id timestamp now_millis =>
    simp only [Call.perform,probe,returned] at ran
    obtain ⟨_,_,ran⟩ := ran
    refine .other rfl rfl (fun _ => rfl) (.inl (send_new_persists ran)) (asked_serves ran ?_ rfl rfl rfl rfl rfl)
    change "1" ∈ _
    decide
  | Poll now_millis timestamp =>
    simp only [Call.perform,poll,returned] at ran
    split_ifs at ran with down late silent idle
    · cases ran
      exact .other rfl rfl (fun _ => rfl) (.inr rfl) fun _ _ _ => .refl _
    · simp only [returned] at ran
      obtain ⟨rfl,rfl⟩ := ran
      exact .other rfl rfl (fun _ => rfl) (.inl (by simp)) fun _ _ _ =>
        serves_still rfl rfl rfl rfl (fun _ _ found => .inl found) (by simp) rfl
    · simp only [returned] at ran
      refine .other rfl rfl (fun _ => rfl) (.inl (send_new_persists ran)) (asked_serves ran ?_ rfl rfl rfl rfl rfl)
      change "1" ∈ _
      decide
    · refine .other rfl rfl (fun _ => rfl) (.inl (send_new_persists ran)) (asked_serves ran ?_ rfl rfl rfl rfl rfl)
      change "0" ∈ _
      decide
    · cases ran
      exact .other rfl rfl (fun _ => rfl) (.inr rfl) fun _ _ _ => .refl _

theorem Performed.persists (performed : Performed inbox s call actions t) :
    .Persist ∈ actions ∨ t.snapshot = s.snapshot := by
  cases performed with
  | received _ ran => exact (receive_all_persists ran).imp_right fun same => by rw [same]
  | sent _ _ _ _ ran => exact .inl (send_new_persists ran)
  | other _ _ _ persists _ => exact persists.imp_right fun same => by rw [same]

end Calls

/-! ### What holds between the sides -/

/-- A number that a side was asked for after its journal let it go. -/
def Lost (party : Party) (n : Nat) : Prop := ∃ e ∈ party.heard, LetGo e.1 e.2 n

/-- What was sent under each number, as its content. -/
def contents (sent : List (Nat × FixMessage)) : List (Nat × FixMessage) := sent.map fun e => (e.1,content e.2)

/-- The bytes that still come to a session are a row of frames written by the log, up to where the stream ends. -/
def Flies (log : Log FixMessage) (lost : Nat → Prop) (buffer inbox : List UInt8) (connected : Bool) : Prop :=
  ∃ (flight : List (List UInt8)) (rest : List UInt8), buffer ++ inbox ++ rest = flight.flatten ∧ (connected = true → rest = []) ∧
    ∀ frame ∈ flight, Written log lost frame

/-- One direction of a link: the sender's log, and how far the receiver took it. -/
structure Joined (sender receiver : Party) (log : Log FixMessage) : Prop where
  kept : Kept log sender.stored
  part : (contents sender.sent).Sublist log.entries
  all : ∀ e ∈ log.entries, IsApplication e.2 → e ∈ contents sender.sent
  ready : Ready log (Lost sender) (receiver.delivered.map numbered) receiver.stored
  flight : ∀ session, receiver.session = some session →
    Flies log (Lost sender) session.decoder.buffer receiver.inbox receiver.connected

section Joining
variable {s t : FixSession} {actions : List SessionAction} {call : Call} {gaps lost : Nat → Prop} {log log' peer : Log FixMessage}
  {sender receiver : Party} {inbox buffer : List UInt8} {connected : Bool} {frame : List UInt8}
  {received : List (Nat × FixMessage)}

theorem Written.sealed (written : Written log lost frame) (limits : WireLimits) :
    (framer limits).Sealed frame := by
  obtain ⟨_,_,encoded,_⟩ := written
  exact sealed_encoded encoded limits

/-- What is read off a flight is what was written, and the rest still flies. -/
theorem Flies.read {count : Nat} {messages : List FixMessage} {decoder decoder' : Decoder}
    (flies : Flies log lost decoder.buffer inbox connected)
    (pushed : (Decoder.push (inbox.take count)).run decoder = .ok messages decoder') :
    (∀ message ∈ messages, Carries log lost message) ∧ Flies log lost decoder'.buffer (inbox.drop count) connected := by
  obtain ⟨flight,rest,bytes,ends,written⟩ := flies
  obtain ⟨_,frames,left,cuts,read,rfl⟩ := Decoder.push_ok.mp pushed
  have together : decoder.buffer ++ inbox.take count ++ (inbox.drop count ++ rest) = flight.flatten := by
    rw [← bytes,List.append_assoc,← List.append_assoc (inbox.take count),List.take_append_drop,List.append_assoc]
  obtain ⟨later,rfl,after⟩ := cuts.of_sealed (fun frame member => (written frame member).sealed _) together
  refine ⟨fun message member => ?_,later,rest,?_,ends,fun frame member => written frame (List.mem_append_right _ member)⟩
  · obtain ⟨frame,inside,parsed⟩ := except_mapM_mem read member
    obtain ⟨original,_,encoded,carries⟩ := written frame (List.mem_append_left _ inside)
    rwa [parse_encoded encoded (Decoder.read_eq_ok.mp parsed).1]
  · rw [← after,List.append_assoc]

section
variable (flies : Flies log lost buffer inbox connected)
include flies

theorem Flies.grow (grows : log.Grows log') (more : ∀ n, lost n → gaps n) :
    Flies log' gaps buffer inbox connected := by
  obtain ⟨flight,rest,bytes,ends,written⟩ := flies
  exact ⟨flight,rest,bytes,ends,fun frame member => (written frame member).grow grows more⟩

/-- Frames sent on an open stream fly behind the others; on a stream that ended they are lost. -/
theorem Flies.append {sent : List (List UInt8)} (written : ∀ frame ∈ sent, Written log lost frame) :
    Flies log lost buffer (if connected then inbox ++ sent.flatten else inbox) connected := by
  obtain ⟨flight,rest,bytes,ends,all⟩ := flies
  cases connected with
  | false => exact ⟨flight,rest,bytes,ends,all⟩
  | true =>
    obtain rfl := ends rfl
    refine ⟨flight ++ sent,[],?_,fun _ => rfl,fun frame member => (List.mem_append.mp member).elim (all frame) (written frame)⟩
    rw [List.append_nil] at bytes
    simp [← bytes]

theorem Flies.cut (count : Nat) :
    Flies log lost buffer (inbox.take count) false := by
  obtain ⟨flight,rest,bytes,_,all⟩ := flies
  refine ⟨flight,inbox.drop count ++ rest,?_,fun no => (nomatch no),all⟩
  rw [← bytes,List.append_assoc,← List.append_assoc (inbox.take count),List.take_append_drop,List.append_assoc]

end

theorem flies_nothing (connected : Bool) : Flies log lost [] [] connected :=
  ⟨[],[],rfl,fun _ => rfl,fun _ member => (nomatch member)⟩

/-- A call takes what the peer wrote. -/
theorem Performed.takes (performed : Performed receiver.inbox s call actions t)
    (plain : ∀ e ∈ peer.entries, e.2.msg_type ≠ "4")
    (ready : Ready peer lost (receiver.delivered.map numbered) s.snapshot)
    (flies : Flies peer lost s.decoder.buffer receiver.inbox connected) :
    Ready peer lost ((receiver.delivered ++ applications actions).map numbered) t.snapshot ∧
      Flies peer lost t.decoder.buffer (receiver.inbox.drop call.count) connected := by
  rw [List.map_append]
  cases performed with
  | received pushed ran =>
    obtain ⟨carry,flies⟩ := flies.read pushed
    have serves : Serves (fun _ => True) peer lost _ actions t :=
      receive_all_serves plain carry ran (fun _ _ _ _ => trivial) ready
    exact ⟨serves.ready _ ready,by rw [serves.buffer]; exact flies⟩
  | sent nothing _ _ _ ran =>
    obtain ⟨frame,_,rfl,rfl⟩ := send_new_ok ran
    rw [nothing,applications_send]
    exact ⟨by simpa [applications] using ⟨ready.taken,ready.held⟩,flies⟩
  | other nothing _ _ _ serves =>
    have serves := serves (fun _ => True) peer lost
    rw [nothing,serves.buffer]
    exact ⟨serves.ready _ ready,flies⟩

theorem Performed.turns (performed : Performed inbox s call actions t)
    (gaps : Nat → Prop) (kept : Kept log s.snapshot) (plain : ∀ e ∈ peer.entries, e.2.msg_type ≠ "4")
    (ready : Ready peer lost received s.snapshot)
    (flies : Flies peer lost s.decoder.buffer inbox connected)
    (let_go : ∀ e ∈ call.hears s inbox, ∀ i, LetGo e.1 e.2 i → gaps i) :
    ∃ log' more, Turn log gaps actions t.snapshot log' ∧ log'.entries = log.entries ++ more ∧
      (contents (call.sends s.snapshot)).Sublist more ∧
      ∀ e ∈ more, IsApplication e.2 → e ∈ contents (call.sends s.snapshot) := by
  have replied (nothing : call.sends s.snapshot = []) (replies : Replies log gaps actions t) :
      ∃ log' more, Turn log gaps actions t.snapshot log' ∧ log'.entries = log.entries ++ more ∧
        (contents (call.sends s.snapshot)).Sublist more ∧
        ∀ e ∈ more, IsApplication e.2 → e ∈ contents (call.sends s.snapshot) := by
    obtain ⟨log',turn,own⟩ := replies
    obtain ⟨more,entries,higher⟩ := turn.grows.entries
    refine ⟨log',more,turn,entries,by rw [nothing]; exact List.nil_sublist _,fun e member application => ?_⟩
    have old := own e (entries ▸ List.mem_append_right _ member) application
    exact absurd (log.below e old) (higher e member).not_gt
  cases performed with
  | received pushed ran =>
    rw [Call.hears,pushed] at let_go
    have serves := receive_all_serves plain (flies.read pushed).1 ran let_go ready
    exact replied rfl (serves.replies log kept)
  | @sent _ message _ _ _ _ _ _ _ entry type _ ran =>
    refine ⟨_,[(log.top,content message)],send_new_turn kept type ran,rfl,?_,fun e member _ => ?_⟩
    · rw [entry,kept.top]
      exact List.Sublist.refl _
    · rw [entry,← kept.top]
      exact member
  | other _ nothing _ _ serves => exact replied nothing ((serves gaps peer lost).replies log kept)

theorem Ready.grow {snapshot : SessionSnapshot}
    (ready : Ready log lost received snapshot) (grows : log.Grows log') (more : ∀ n, lost n → gaps n) :
    Ready log' gaps received snapshot := by
  refine ⟨ready.taken.grow grows more,fun k message found => ?_⟩
  obtain ⟨other,due⟩ := ready.held k message found
  exact ⟨other,due.grow grows more⟩

theorem mem_frames : frame ∈ frames actions ↔ .Send frame ∈ actions := by
  simp only [frames,List.mem_filterMap]
  constructor
  · rintro ⟨action,member,same⟩
    cases action with
    | Send sent =>
      cases same
      exact member
    | _ => cases same
  · exact fun member => ⟨_,member,rfl⟩

end Joining

/-! ### Every history -/

theorem Side.other_other (side : Side) : side.other.other = side := by cases side <;> rfl

theorem Side.other_ne (side : Side) : side.other ≠ side := by cases side <;> decide

theorem Side.forall_of {P : Side → Prop} (side : Side) (here : P side) (there : P side.other) (each : Side) : P each := by
  cases side <;> cases each <;> assumption

/-- While a host is up its session is the one it stored. -/
def Synced (party : Party) : Prop := ∀ session, party.session = some session → session.snapshot = party.stored

def Consistent (link : Link) : Prop := ∀ side, Synced (link side) ∧ ∃ log, Joined (link side) (link side.other) log

section Histories
variable {link link' : Link} {side : Side} {s t : FixSession} {actions : List SessionAction} {call : Call}
  {config : SessionConfig} {dictionary : CompetitionDictionary}

theorem answered_self : link.answered side call s t actions side = { link side with
    session := some t
    stored := if .Persist ∈ actions then t.snapshot else (link side).stored
    inbox := (link side).inbox.drop call.count
    sent := (link side).sent ++ call.sends s.snapshot
    delivered := (link side).delivered ++ applications actions
    heard := (link side).heard ++ call.hears s (link side).inbox } := by
  rw [Link.answered,Function.update_of_ne side.other_ne.symm,Function.update_self]

theorem answered_other : link.answered side call s t actions side.other = { link side.other with
    inbox :=
      if (link side.other).connected then (link side.other).inbox ++ (frames actions).flatten
      else (link side.other).inbox } := by
  rw [Link.answered,Function.update_self]

theorem Joined.of_sender {sender sender' receiver : Party} {log : Log FixMessage} (joined : Joined sender receiver log)
    (stored : sender'.stored = sender.stored) (sent : sender'.sent = sender.sent) (heard : sender'.heard = sender.heard) :
    Joined sender' receiver log := by
  have lost : Lost sender' = Lost sender := by
    unfold Lost
    rw [heard]
  exact ⟨stored ▸ joined.kept,sent ▸ joined.part,sent ▸ joined.all,lost ▸ joined.ready,lost ▸ joined.flight⟩

section
variable (consistent : Consistent link)
include consistent

theorem Consistent.answered (up : (link side).session = some s)
    (performed : Performed (link side).inbox s call actions t) : Consistent (link.answered side call s t actions) := by
  obtain ⟨synced,log,sending⟩ := consistent side
  obtain ⟨synced',peer,receiving⟩ := consistent side.other
  rw [side.other_other] at receiving
  have here : s.snapshot = (link side).stored := synced s up
  have flies := receiving.flight s up
  have ready := receiving.ready
  rw [← here] at ready
  have stored : (link.answered side call s t actions side).stored = t.snapshot := by
    rw [answered_self]
    split_ifs with persist
    · rfl
    · rw [← here]
      exact (performed.persists.resolve_left persist).symm
  have grown (n : Nat) (lost : Lost (link side) n) : Lost (link.answered side call s t actions side) n := by
    obtain ⟨e,member,let_go⟩ := lost
    rw [Lost,answered_self]
    exact ⟨e,List.mem_append_left _ member,let_go⟩
  obtain ⟨log',more,turn,entries,part,all⟩ := performed.turns
    (Lost (link.answered side call s t actions side)) (here ▸ sending.kept) receiving.kept.plain ready flies
    fun e member i let_go => by
      rw [Lost,answered_self]
      exact ⟨e,List.mem_append_right _ member,let_go⟩
  refine Side.forall_of side ⟨?_,log',?_⟩ ⟨?_,peer,?_⟩
  · intro session same
    rw [stored]
    rw [answered_self] at same
    exact congrArg FixSession.snapshot (Option.some.inj same).symm
  · refine ⟨?_,?_,fun e member application => ?_,?_,fun session same => ?_⟩
    · rw [stored]
      exact turn.kept
    · rw [answered_self,entries,contents,List.map_append]
      exact sending.part.append part
    · rw [answered_self,contents,List.map_append]
      rw [entries] at member
      rcases List.mem_append.mp member with old | new
      · exact List.mem_append_left _ (sending.all e old application)
      · exact List.mem_append_right _ (all e new application)
    · rw [answered_other]
      exact sending.ready.grow turn.grows grown
    · rw [answered_other] at same ⊢
      exact ((sending.flight session same).grow turn.grows grown).append fun frame member =>
        turn.written frame (mem_frames.mp member)
  · rw [answered_other]
    exact synced'
  · obtain ⟨ready',flies'⟩ := performed.takes receiving.kept.plain ready flies
    have receiving' : Joined (link side.other) (link.answered side call s t actions side) peer := by
      refine ⟨receiving.kept,receiving.part,receiving.all,?_,fun session same => ?_⟩
      · rw [stored,answered_self]
        exact ready'
      · rw [answered_self] at same ⊢
        obtain rfl := Option.some.inj same
        exact flies'
    rw [side.other_other,answered_other]
    exact receiving'.of_sender rfl rfl rfl

/-- Nothing but calls changes what is stored, sent, heard or delivered. -/
theorem Consistent.of_quiet (same : ∀ side, (link' side).stored = (link side).stored ∧ (link' side).sent = (link side).sent ∧
      (link' side).heard = (link side).heard ∧ (link' side).delivered = (link side).delivered)
    (synced : ∀ side session, (link' side).session = some session → session.snapshot = (link side).stored)
    (flight : ∀ side log lost, (∀ session, (link side).session = some session →
        Flies log lost session.decoder.buffer (link side).inbox (link side).connected) →
      ∀ session, (link' side).session = some session →
        Flies log lost session.decoder.buffer (link' side).inbox (link' side).connected) : Consistent link' := by
  intro side
  obtain ⟨_,log,joined⟩ := consistent side
  obtain ⟨stored,sent,heard,_⟩ := same side
  obtain ⟨stored',_,_,delivered'⟩ := same side.other
  refine ⟨fun session up => by rw [stored]; exact synced side session up,log,Joined.of_sender ?_ stored sent heard⟩
  exact ⟨joined.kept,joined.part,joined.all,by rw [stored',delivered']; exact joined.ready,flight side.other log _ joined.flight⟩

/-- One end loses its session or its connection. -/
theorem Consistent.alter {changed : Party}
    (same : changed.stored = (link side).stored ∧ changed.sent = (link side).sent ∧ changed.heard = (link side).heard ∧
      changed.delivered = (link side).delivered)
    (synced : ∀ session, changed.session = some session → (link side).session = some session)
    (flight : ∀ log lost buffer, Flies log lost buffer (link side).inbox (link side).connected →
      Flies log lost buffer changed.inbox changed.connected) : Consistent (Function.update link side changed) := by
  refine consistent.of_quiet (fun each => ?_) (fun each session up => ?_) (fun each log lost flies session up => ?_)
  all_goals by_cases here : each = side
  · subst here
    rwa [Function.update_self]
  · rw [Function.update_of_ne here]
    exact ⟨rfl,rfl,rfl,rfl⟩
  · subst here
    rw [Function.update_self] at up
    exact (consistent each).1 session (synced session up)
  · rw [Function.update_of_ne here] at up
    exact (consistent each).1 session up
  · subst here
    rw [Function.update_self] at up ⊢
    exact flight log lost _ (flies session (synced session up))
  · rw [Function.update_of_ne here] at up ⊢
    exact flies session up

theorem Consistent.down (side : Side) :
    Consistent (Function.update link side { link side with session := none }) :=
  consistent.alter ⟨rfl,rfl,rfl,rfl⟩ (fun _ up => (nomatch up)) fun _ _ _ flies => flies

end

theorem restore_eq_some {snapshot : SessionSnapshot}
    (restored : (restore config dictionary snapshot).toOption = some s) :
    s = ⟨config,snapshot,.try_new config.wire_limits dictionary⟩ := by
  cases made : restore config dictionary snapshot with
  | error e =>
    rw [made] at restored
    cases restored
  | ok session =>
    rw [made] at restored
    obtain rfl : session = s := Option.some.inj restored
    simp only [restore,returned] at made
    obtain ⟨_,_,rfl⟩ := made
    rfl

theorem Consistent.step (consistent : Consistent link) {event : Event} (ran : link.step event = some link') :
    Consistent link' := by
  cases event with
  | call side call =>
    rw [Link.step,Option.bind_eq_bind,Option.bind_eq_some_iff] at ran
    obtain ⟨session,up,ran⟩ := ran
    split_ifs at ran with allowed
    split at ran
    · next actions session' performed =>
      obtain rfl := Option.some.inj ran
      exact consistent.answered up (perform_cases allowed performed)
    · obtain rfl := Option.some.inj ran
      exact consistent.down side
  | crash side =>
    obtain rfl := Option.some.inj ran
    exact consistent.down side
  | cut side count =>
    obtain rfl := Option.some.inj ran
    exact consistent.alter ⟨rfl,rfl,rfl,rfl⟩ (fun _ up => up) fun _ _ _ flies => flies.cut count
  | reconnect =>
    obtain rfl := Option.some.inj ran
    refine consistent.of_quiet (fun _ => ⟨rfl,rfl,rfl,rfl⟩) (fun side session up => by rw [restore_eq_some up])
      (fun side log lost _ session up => ?_)
    rw [restore_eq_some up]
    exact flies_nothing true

theorem Consistent.run (consistent : Consistent link) {events : List Event} (ran : link.run events = some link') :
    Consistent link' := by
  induction events generalizing link with
  | nil =>
    obtain rfl := Option.some.inj ran
    exact consistent
  | cons event events ih =>
    rw [Link.run,List.foldlM_cons,Option.bind_eq_bind,Option.bind_eq_some_iff] at ran
    obtain ⟨next,stepped,ran⟩ := ran
    exact ih (consistent.step stepped) ran

theorem start_ok {party : Party} (started : Party.start config dictionary = .ok party) :
    Synced party ∧ party.sent = [] ∧ party.delivered = [] ∧ party.inbox = [] ∧ party.stored.incoming_sequence = 1 ∧
      party.stored.outgoing_sequence = 1 ∧ party.stored.journal = ∅ ∧ party.stored.pending_inbound = ∅ ∧
      ∀ session, party.session = some session → session.decoder.buffer = [] := by
  simp only [Party.start,try_new,returned] at started
  obtain ⟨_,rfl⟩ := started
  refine ⟨fun session up => ?_,rfl,rfl,rfl,rfl,rfl,rfl,rfl,fun session up => ?_⟩
  all_goals
    obtain rfl := Option.some.inj up
    rfl

theorem joined_start {sender receiver : Party} {config' : SessionConfig}
    {dictionary' : CompetitionDictionary} (first : Party.start config dictionary = .ok sender)
    (second : Party.start config' dictionary' = .ok receiver) : Joined sender receiver (.start 1) := by
  obtain ⟨_,sent,_,_,_,outgoing,journal,_,_⟩ := start_ok first
  obtain ⟨_,_,delivered,inbox,incoming,_,_,pending,buffer⟩ := start_ok second
  refine ⟨⟨outgoing.symm,fun _ member => (nomatch member),fun n entry found => ?_⟩,?_,fun _ member => (nomatch member),
    ⟨?_,fun k message found => ?_⟩,fun session up => ?_⟩
  · rw [journal] at found
    cases found
  · rw [sent]
    exact List.nil_sublist _
  · rw [delivered,incoming]
    exact taken_start 1
  · rw [pending] at found
    cases found
  · rw [buffer session up,inbox]
    exact flies_nothing _

theorem consistent_start {config : Side → SessionConfig} {dictionary : Side → CompetitionDictionary}
    (started : Link.start config dictionary = .ok link) : Consistent link := by
  simp only [Link.start,returned] at started
  obtain ⟨left,first,right,second,rfl⟩ := started
  intro side
  cases side with
  | Left => exact ⟨(start_ok first).1,_,joined_start first second⟩
  | Right => exact ⟨(start_ok second).1,_,joined_start second first⟩

end Histories

/-- Whatever bytes the connections lose and however often the sides restore what they stored, a side delivers messages that
    the other sent, in order and once each, and it passed over one only if the other was asked for it when it was no longer in the
    journal: it was dropped for room, or a later message with its key took its place. -/
theorem delivers_in_order_exactly_once (config : Side → SessionConfig) (dictionary : Side → CompetitionDictionary)
    (events : List Event) (start link : Link) (started : Link.start config dictionary = .ok start)
    (ran : start.run events = some link) (side : Side) :
    ((link side).delivered.map numbered).Sublist
        (contents ((link side.other).sent.filter fun e => IsApplication e.2)) ∧
      ((link side).delivered.map numbered).Pairwise (fun a b => a.1 < b.1) ∧
      ∀ e ∈ (link side.other).sent, IsApplication e.2 → e.1 < (link side).stored.incoming_sequence →
        (e.1,content e.2) ∈ (link side).delivered.map numbered ∨
        ∃ asked ∈ (link side.other).heard, LetGo asked.1 asked.2 e.1 := by
  obtain ⟨_,log,joined⟩ := (consistent_start started).run ran side.other
  rw [side.other_other] at joined
  have taken := joined.ready.taken
  refine ⟨?_,taken.ordered,fun e member application passed => ?_⟩
  · refine taken.sublist ((List.filter_sublist.map _).trans joined.part) fun e member application => ?_
    obtain ⟨sent,inside,rfl⟩ := List.mem_map.mp (joined.all e member application)
    exact List.mem_map.mpr ⟨sent,List.mem_filter.mpr ⟨inside,decide_eq_true application⟩,rfl⟩
  · exact taken.accounted _ (joined.part.subset (List.mem_map.mpr ⟨e,member,rfl⟩)) passed application

def sample_config : Side → SessionConfig
  | .Left => ⟨"L","R",30,4,4,{},[]⟩
  | .Right => ⟨"R","L",30,4,4,{},[]⟩

/-- A dictionary that knows every message. -/
def open_dictionary (_ : Side) : CompetitionDictionary := ⟨⟨fun _ => true,fun _ => true⟩,⟨fun _ => true,fun _ => true⟩⟩

/-- An order is cut off on its way; the sides connect again, and it is asked for and sent again. -/
def sample_events : List Event :=
  [.reconnect,.call .Left (.Connected "t" 0),.call .Right (.Connected "t" 0),.call .Left (.Receive 99 "t" 0),
    .call .Right (.Receive 99 "t" 0),.call .Left (.SendApplication (.new "D") "t"),.cut .Right 9,.reconnect,
    .call .Left (.Connected "t" 1),.call .Right (.Receive 99 "t" 1),.call .Left (.Receive 99 "t" 1),
    .call .Right (.Receive 999 "t" 1)]

theorem delivers_an_order_that_was_cut_off : ∃ start link, Link.start sample_config open_dictionary = .ok start ∧
    start.run sample_events = some link ∧ (link .Right).delivered.map numbered = [(2,.new "D")] ∧
    ((link .Right).delivered.map numbered).Sublist
      (contents ((link .Left).sent.filter fun e => IsApplication e.2)) := by
  obtain ⟨start,started,link,ran,same⟩ : ∃ start, Link.start sample_config open_dictionary = .ok start ∧
      ∃ link, start.run sample_events = some link ∧ (link .Right).delivered.map numbered = [(2,.new "D")] := by decide +kernel
  exact ⟨start,link,started,ran,same,
    (delivers_in_order_exactly_once sample_config open_dictionary sample_events start link started ran .Right).1⟩

end Bunting.Simfix
