import Bunting.FixLink

/-!
The history of one FIX session: its host calls it, and a stored state takes its
place. What a session knows of its peer outlives the connection that it learned
it on: the messages it holds, the resend it asked for and the test request that
it waits for.
-/

namespace Bunting.Simfix
open Stateful Bytes FixSession

/-! ### Histories -/

/-- What happens to a session. -/
inductive Operation
  | call (bytes : List UInt8) (call : Call)
  | restore (snapshot : SessionSnapshot)

def Operation.next (session : FixSession) : Operation → Option FixSession
  | .call bytes made =>
    match (made.perform bytes).run session with
    | .ok _ next => some next
    | .error _ _ => none
  | .restore snapshot => (FixSession.restore session.config session.decoder.dictionary snapshot).toOption

section Follow
variable {σ ω : Type} (step : σ → ω → Option σ) (P : σ → ω → Prop) [∀ s e, Decidable (P s e)]

/-- The state after steps each of which meets a condition on the state before it. -/
def follow : σ → List ω → Option σ
  | s,[] => some s
  | s,e :: later => if P s e then (step s e).bind fun t => follow t later else none

/-- What every step keeps holds at the end. -/
theorem follow_keeps {I : σ → Prop} (kept : ∀ {s t : σ} {e : ω}, I s → P s e → step s e = some t → I t)
    {s t : σ} {steps : List ω} (holds : I s) (ran : follow step P s steps = some t) : I t := by
  induction steps generalizing s with
  | nil =>
    obtain rfl := Option.some.inj ran
    exact holds
  | cons e later ih =>
    rw [follow] at ran
    split_ifs at ran with meets
    obtain ⟨u,stepped,ran⟩ := Option.bind_eq_some_iff.mp ran
    exact ih (kept holds meets stepped) ran

end Follow

def from_peer (message : FixMessage) (n : Nat) : List UInt8 :=
  match encode_at (sample_config .Right) message n "t" none with
  | .ok frame => frame
  | .error _ => []

/-- A session after operations that meet a condition. -/
def sample_after (P : FixSession → Operation → Prop) [∀ s e, Decidable (P s e)] (operations : List Operation) :
    Option FixSession :=
  match try_new (sample_config .Left) (open_dictionary .Left) with
  | .ok start => follow Operation.next P start operations
  | .error _ => none

def heard (s : FixSession) (bytes : List UInt8) : Option (List SessionAction) :=
  match (receive_bytes_at bytes "t" 1).run s with
  | .ok actions _ => some actions
  | .error _ _ => none

def arrives (message : FixMessage) (n : Nat) : Operation := .call (from_peer message n) (.Receive 999 "t" 1)

section Calls
variable {s t u : FixSession} {actions : List SessionAction} {message : FixMessage} {timestamp : String} {now_millis : Nat}
  {bytes : List UInt8} {call : Call}

/-- Only what the session sends itself and its state changed. -/
def Apart (s t : FixSession) : Prop :=
  ∃ state journal outgoing_sequence last_sent_millis,
    t = { s with snapshot := { s.snapshot with state, journal, outgoing_sequence, last_sent_millis } }

theorem Apart.refl (s : FixSession) : Apart s s := ⟨_,_,_,_,rfl⟩

theorem send_new_apart {journal : Bool} {key : Option String}
    (ran : (send_new message timestamp now_millis journal key).run u = .ok actions t) (apart : Apart s u) : Apart s t := by
  obtain ⟨_,_,_,_,rfl⟩ := apart
  obtain ⟨_,_,_,rfl⟩ := send_new_ok ran
  exact ⟨_,_,_,_,rfl⟩

theorem connected_apart (ran : (connected_at timestamp now_millis).run s = .ok actions t) : ∃ reconnect_generation decoder,
    Apart { s with
      snapshot := { s.snapshot with reconnect_generation, last_received_millis := now_millis }
      decoder } t := by
  simp only [connected_at,returned] at ran
  obtain ⟨_,_,ran⟩ := ran
  exact ⟨_,_,send_new_apart ran ⟨_,_,_,_,rfl⟩⟩

theorem perform_apart (ran : (call.perform bytes).run s = .ok actions t)
    (receives : ∀ count timestamp now_millis, call ≠ .Receive count timestamp now_millis)
    (polls : ∀ now_millis timestamp, call ≠ .Poll now_millis timestamp)
    (connects : ∀ timestamp now_millis, call ≠ .Connected timestamp now_millis) : Apart s t := by
  cases call with
  | Receive => exact absurd rfl (receives _ _ _)
  | Poll => exact absurd rfl (polls _ _)
  | Connected => exact absurd rfl (connects _ _)
  | SendApplication =>
    simp only [Call.perform,send_application,returned] at ran
    obtain ⟨_,ran⟩ := ran
    exact send_new_apart ran (.refl s)
  | SendReplaceable =>
    simp only [Call.perform,send_replaceable_application,returned] at ran
    obtain ⟨_,_,ran⟩ := ran
    exact send_new_apart ran (.refl s)
  | RequestLogout =>
    simp only [Call.perform,request_logout,returned] at ran
    obtain ⟨_,ran⟩ := ran
    exact send_new_apart ran ⟨_,_,_,_,rfl⟩
  | Probe =>
    simp only [Call.perform,probe,returned] at ran
    obtain ⟨_,_,ran⟩ := ran
    exact send_new_apart ran (.refl s)

/-- A poll gives up a peer that let two intervals pass with a test request open, or it opens one after an interval, or
    neither. -/
theorem poll_ok (ran : (poll now_millis timestamp).run s = .ok actions t) :
    (Apart s t ∧ (.Disconnect ∈ actions → s.snapshot.outstanding_test_request.isSome ∧
      s.config.heartbeat_seconds * 1000 * 2 ≤ now_millis - s.snapshot.last_received_millis)) ∨
    s.snapshot.state = .Established ∧ s.snapshot.outstanding_test_request = none ∧
      s.config.heartbeat_seconds * 1000 ≤ now_millis - s.snapshot.last_received_millis ∧ .Disconnect ∉ actions ∧
      ∃ id, Apart { s with snapshot := { s.snapshot with outstanding_test_request := some id } } t := by
  simp only [poll,returned] at ran
  split_ifs at ran with down late silent idle
  · cases ran
    exact .inl ⟨.refl s,by simp⟩
  · simp only [returned] at ran
    obtain ⟨rfl,rfl⟩ := ran
    exact .inl ⟨⟨_,_,_,_,rfl⟩,fun _ => late⟩
  · simp only [returned] at ran
    have apart := send_new_apart ran (.refl _)
    obtain ⟨_,_,rfl,_⟩ := send_new_ok ran
    exact .inr ⟨not_not.mp down,silent.2,silent.1,by simp,_,apart⟩
  · have apart := send_new_apart ran (.refl s)
    obtain ⟨_,_,rfl,_⟩ := send_new_ok ran
    exact .inl ⟨apart,by simp⟩
  · cases ran
    exact .inl ⟨.refl s,by simp⟩

theorem receive_bytes_ok (ran : (receive_bytes_at bytes timestamp now_millis).run s = .ok actions t) :
    ∃ messages decoder, (Decoder.push bytes).run s.decoder = .ok messages decoder ∧
      (receive_all timestamp now_millis messages).run { s with decoder } = .ok actions t := by
  simp only [receive_bytes_at,returned] at ran
  obtain ⟨messages,_,⟨decoder,pushed,rfl⟩,ran⟩ := ran
  exact ⟨messages,decoder,pushed,ran⟩

end Calls

/-! ### Asking again -/

def resend_request (n : Nat) : FixMessage := ((FixMessage.new "2").push 7 (toString n)).push 16 "0"

/-- A call sent a new request for all from the expected number on. -/
def Asked (s : FixSession) (timestamp : String) (actions : List SessionAction) (t : FixSession) : Prop :=
  t.snapshot.outgoing_sequence = s.snapshot.outgoing_sequence + 1 ∧
  ∃ frame, .Send frame ∈ actions ∧
    encode_at s.config (resend_request s.snapshot.incoming_sequence) s.snapshot.outgoing_sequence timestamp none = .ok frame

/-- A request for all from the expected number on has a number left and can be written. -/
def CanAsk (s : FixSession) (timestamp : String) : Prop :=
  s.snapshot.outgoing_sequence < usize_max ∧
  ∃ frame, encode_at s.config (resend_request s.snapshot.incoming_sequence) s.snapshot.outgoing_sequence timestamp none = .ok frame

/-- A message is no resend request, or one that can be answered. -/
def CanAnswer (s : FixSession) (message : FixMessage) (timestamp : String) (now_millis : Nat) : Prop :=
  message.msg_type = "2" → ∃ actions t, (replay_requested message timestamp now_millis).run s = .ok actions t

section Asking
variable {s t u : FixSession} {actions : List SessionAction} {message : FixMessage} {timestamp : String} {now_millis n : Nat}
  {journal : Bool} {key : Option String}

theorem send_new_never {frame : List UInt8} {e : SessionError} (room : s.snapshot.outgoing_sequence < usize_max)
    (encoded : encode_at s.config message s.snapshot.outgoing_sequence timestamp none = .ok frame) :
    (send_new message timestamp now_millis journal key).run s ≠ .error e t := by
  have added : checked_add s.snapshot.outgoing_sequence 1 = some (s.snapshot.outgoing_sequence + 1) :=
    checked_add_eq_some.mpr ⟨rfl,room⟩
  simp [send_new,added,encoded]

theorem answer_early_ok (ran : (answer_early message timestamp now_millis).run s = .ok actions t) :
    CanAnswer s message timestamp now_millis ∧ ∃ last_sent_millis,
      t = { s with snapshot := { s.snapshot with last_sent_millis } } := by
  rw [answer_early] at ran
  split_ifs at ran with request
  · exact ⟨fun _ => ⟨_,_,ran⟩,now_millis,(replay_requested_ok ran).1⟩
  · cases ran
    exact ⟨fun same => absurd same request,_,rfl⟩

theorem CanAnswer.answers (can : CanAnswer s message timestamp now_millis) :
    ∃ actions t, (answer_early message timestamp now_millis).run s = .ok actions t := by
  rw [answer_early]
  split_ifs with request
  · exact can request
  · exact ⟨_,_,rfl⟩

theorem send_new_room (ran : (send_new message timestamp now_millis journal key).run s = .ok actions t) :
    s.snapshot.outgoing_sequence < usize_max := by
  simp only [send_new,returned] at ran
  obtain ⟨_,added,_⟩ := ran
  obtain ⟨rfl,room⟩ := checked_add_eq_some.mp added
  exact room

/-- A message that came early is held if there is room, and what is missing is asked for if no resend is open. -/
theorem hold_ok (ran : (hold message n timestamp now_millis).run s = .ok actions t) :
    s.snapshot.pending_inbound.size < s.config.max_pending_inbound ∧ CanAnswer s message timestamp now_millis ∧
    (Asked s timestamp actions t ↔ s.snapshot.pending_resend_begin = none) ∧
    (s.snapshot.pending_resend_begin = none → CanAsk s timestamp) := by
  simp only [hold,returned] at ran
  obtain ⟨room,answer,u,answered,ran⟩ := ran
  obtain ⟨answers,_,rfl⟩ := answer_early_ok answered
  refine ⟨not_le.mp room,answers,?_⟩
  split at ran
  · next is_open =>
    cases ran
    have other : s.snapshot.pending_resend_begin ≠ none := Option.isSome_iff_ne_none.mp is_open
    exact ⟨iff_of_false (fun asked => absurd asked.1 (Nat.succ_ne_self _).symm) other,fun none => absurd none other⟩
  · next closed =>
    simp only [returned] at ran
    obtain ⟨asked,_,sent,rfl,rfl⟩ := ran
    have left := send_new_room sent
    obtain ⟨frame,encoded,rfl,rfl⟩ := send_new_ok sent
    have written := wire_eq_ok.mpr encoded
    exact ⟨iff_of_true ⟨rfl,frame,by simp,written⟩ (by simpa using closed),fun _ => ⟨left,frame,written⟩⟩

theorem hold_total (room : s.snapshot.pending_inbound.size < s.config.max_pending_inbound)
    (answers : CanAnswer s message timestamp now_millis) (closed : s.snapshot.pending_resend_begin = none)
    (asks : CanAsk s timestamp) : ∃ actions t, (hold message n timestamp now_millis).run s = .ok actions t := by
  obtain ⟨answer,u,answered⟩ := answers.answers
  obtain ⟨_,_,rfl⟩ := answer_early_ok answered
  obtain ⟨left,frame,encoded⟩ := asks
  rw [hold]
  simp only [EStateM.run_bind,EStateM.run_get,run_refuse,if_neg (not_le.mpr room),answered,EStateM.run_set,closed,
    Option.isSome_none,Bool.false_eq_true,if_false]
  split
  · exact ⟨_,_,rfl⟩
  · next failed => exact absurd failed (send_new_never left encoded)

theorem receive_held (number : parse message 34 = some n) (early : s.snapshot.incoming_sequence < n)
    (ran : (receive message timestamp now_millis).run s = .ok actions t) :
    (hold message n timestamp now_millis).run s = .ok actions t := by
  simp only [receive,returned] at ran
  obtain ⟨_,sequence,parsed,ran⟩ := ran
  cases parsed.symm.trans number
  rwa [if_pos early] at ran

theorem receive_early (sender : message.value 49 = some s.config.target_comp_id)
    (target : message.value 56 = some s.config.sender_comp_id) (number : parse message 34 = some n)
    (early : s.snapshot.incoming_sequence < n) :
    (receive message timestamp now_millis).run s = (hold message n timestamp now_millis).run s := by
  simp [receive,run_refuse,sender,target,number,early]

/-- A read whose first message is `message`. -/
theorem receive_first (s : FixSession) {bytes : List UInt8} {decoder : Decoder} {more : List FixMessage}
    (read : (Decoder.push bytes).run s.decoder = .ok (message :: more) decoder) :
    (receive_bytes_at bytes timestamp now_millis).run s = .ok actions t ↔
      ∃ first u, (receive message timestamp now_millis).run { s with decoder } = .ok first u ∧
        ∃ later v, (receive_all timestamp now_millis more).run u = .ok later v ∧ first ++ later = actions ∧ v = t := by
  simp only [receive_bytes_at,EStateM.run_bind,run_zoom,read]
  simp only [receive_all,returned]

end Asking

/-- On a new connection a first message with a number above the expected one makes the session ask for what it missed
    exactly if it did not ask on an earlier connection for what it still waits for, has room to hold the message, and can
    take what else the read brought. -/
theorem reconnected_session_asks_iff (s s' : FixSession) (logon : List SessionAction) (message : FixMessage)
    (more : List FixMessage) (bytes : List UInt8) (decoder decoder' : Decoder) (timestamp timestamp' : String)
    (now_millis now_millis' n : Nat) (connected : (connected_at timestamp now_millis).run s = .ok logon s')
    (read : (Decoder.push bytes).run decoder = .ok (message :: more) decoder')
    (sender : message.value 49 = some s.config.target_comp_id) (target : message.value 56 = some s.config.sender_comp_id)
    (number : parse message 34 = some n) (early : s.snapshot.incoming_sequence < n) :
    (∃ actions t, (receive_bytes_at bytes timestamp' now_millis').run { s' with decoder } = .ok actions t ∧
      ∃ first u, (receive message timestamp' now_millis').run { s' with decoder := decoder' } = .ok first u ∧
        first <+: actions ∧ Asked s' timestamp' first u) ↔
    s.snapshot.pending_resend_begin = none ∧ s.snapshot.pending_inbound.size < s.config.max_pending_inbound ∧
      CanAnswer { s' with decoder := decoder' } message timestamp' now_millis' ∧ CanAsk s' timestamp' ∧
      ∀ first u, (receive message timestamp' now_millis').run { s' with decoder := decoder' } = .ok first u →
        ∃ later t, (receive_all timestamp' now_millis' more).run u = .ok later t := by
  obtain ⟨_,_,_,_,_,_,same⟩ := connected_apart connected
  have holds := @receive_early { s' with decoder := decoder' } message timestamp' now_millis' n (by rw [same]; exact sender)
    (by rw [same]; exact target) number (by rw [same]; exact early)
  have total := @hold_total { s' with decoder := decoder' } message timestamp' now_millis' n
  simp only [receive_first { s' with decoder } read,holds]
  subst same
  constructor
  · rintro ⟨_,_,⟨first,u,received,later,t,ran,_⟩,_,_,again,_,asked⟩
    cases received.symm.trans again
    obtain ⟨room,answers,asks,can⟩ := hold_ok received
    have closed := asks.mp asked
    refine ⟨closed,room,answers,can closed,fun _ _ again => ?_⟩
    cases received.symm.trans again
    exact ⟨later,t,ran⟩
  · rintro ⟨closed,room,answers,can,rest⟩
    obtain ⟨first,u,received⟩ := total room answers closed can
    obtain ⟨later,t,ran⟩ := rest first u received
    exact ⟨_,t,⟨first,u,received,later,t,ran,rfl,rfl⟩,first,u,received,List.prefix_append ..,(hold_ok received).2.2.1.mpr closed⟩

/-- A first connection on which one read brings the second message and the third before the first. -/
theorem session_asks_on_its_first_connection : ∃ s s' logon actions t decoder frame,
    (connected_at "t" 0).run s = .ok logon s' ∧
    (receive_bytes_at (from_peer (.new "D") 2 ++ from_peer (.new "D") 3) "t" 1).run { s' with decoder } = .ok actions t ∧
    .Send frame ∈ actions := by
  let s : FixSession := ⟨sample_config .Left,⟨2,1,1,0,.Disconnected,∅,none,∅,0,0,none⟩,.try_new {} (open_dictionary .Left)⟩
  obtain ⟨logon,s',connected,low,closed,messages,decoder',read,message,_,split,sender,target,number,first,u,received,later,v,
      ran,_⟩ : ∃ logon s', (connected_at "t" 0).run s = .ok logon s' ∧ s'.snapshot.incoming_sequence < 2 ∧
      s'.snapshot.pending_resend_begin = none ∧
      ∃ messages decoder', (Decoder.push (from_peer (.new "D") 2 ++ from_peer (.new "D") 3)).run
        (.try_new {} (open_dictionary .Left)) = .ok messages decoder' ∧
      ∃ message, messages.head? = some message ∧ messages = message :: messages.tail ∧ message.value 49 = some "R" ∧
        message.value 56 = some "L" ∧ parse message 34 = some 2 ∧
      ∃ first u, (receive message "t" 1).run { s' with decoder := decoder' } = .ok first u ∧
      ∃ later v, (receive_all "t" 1 messages.tail).run u = .ok later v ∧ True := by decide +kernel
  rw [split] at read
  obtain ⟨_,answers,_,can⟩ := hold_ok (receive_held (s := { s' with decoder := decoder' }) number low received)
  obtain ⟨actions,t,taken,_,_,_,start,_,frame,sent,_⟩ := (reconnected_session_asks_iff s s' logon message _ _ _ decoder'
    "t" "t" 0 1 2 connected read sender target number (by decide)).mpr ⟨rfl,by decide,answers,can closed,fun _ _ again => by
      cases received.symm.trans again
      exact ⟨later,v,ran⟩⟩
  exact ⟨s,s',logon,actions,t,_,frame,connected,taken,start.subset sent⟩

/-- A resend asked for on an earlier connection is not asked for on the next. -/
theorem open_resend_is_not_asked_again :
    (sample_after (fun _ _ => True)
        [.call [] (.Connected "t" 0),arrives (.new "D") 3,.call [] (.Connected "t" 1)]).map
      (fun s => (s.snapshot.incoming_sequence,heard s (from_peer (.new "D") 4))) = some (1,some [.Persist]) := by
  decide +kernel

/-! ### What is held -/

/-- What is held is ahead of the expected number, and a resend is open only while something is held. -/
def Gapless (snapshot : SessionSnapshot) : Prop :=
  (∀ k ∈ snapshot.pending_inbound.keys, snapshot.incoming_sequence < k) ∧
  (snapshot.pending_resend_begin.isSome → snapshot.pending_inbound.isEmpty = false)

/-- The number that is expected after a message in its turn. -/
def expected (n : Nat) (message : FixMessage) : Nat :=
  if message.msg_type = "4" then (parse message 36).getD (n + 1) else n + 1

/-- A message that is taken, the number that is expected after it, and what is held then. -/
abbrev Taking := FixMessage × Nat × OrdMap Nat FixMessage

/-- The held messages whose turn comes once `n` is expected. -/
def waiting : Nat → OrdMap Nat FixMessage → Nat → List Taking
  | 0,_,_ => []
  | rounds + 1,held,n => match held.get? n with
    | none => []
    | some message => (message,expected n message,held.erase n) :: waiting rounds (held.erase n) (expected n message)

/-- The messages that are taken when a message comes: none unless it is its turn. -/
def turns (message : FixMessage) (snapshot : SessionSnapshot) : List Taking :=
  let next := expected snapshot.incoming_sequence message
  if parse message 34 = some snapshot.incoming_sequence then
    (message,next,snapshot.pending_inbound) :: waiting snapshot.pending_inbound.size snapshot.pending_inbound next
  else []

/-- A message that is taken is no sequence reset over a held number. -/
def NotPast (turn : Taking) : Prop := turn.1.msg_type = "4" → ∀ k ∈ turn.2.2.keys, turn.2.1 ≤ k

/-- A session with the states that were stored of it. -/
abbrev Stored := FixSession × List SessionSnapshot

def Operation.store (stored : Stored) (operation : Operation) : Option Stored :=
  (operation.next stored.1).map fun next => (next,next.snapshot :: stored.2)

/-- No sequence reset that is taken jumps over a held number, and only stored states are restored. -/
def Orderly (stored : Stored) : Operation → Prop
  | .call bytes made => ∀ e ∈ made.hears stored.1 bytes, ∀ turn ∈ turns e.1 e.2, NotPast turn
  | .restore snapshot => snapshot ∈ stored.2

instance (turn : Taking) : Decidable (NotPast turn) := inferInstanceAs (Decidable (_ → _))
instance (stored : Stored) : ∀ operation, Decidable (Orderly stored operation)
  | .call _ _ => inferInstanceAs (Decidable (∀ e ∈ _,_))
  | .restore _ => inferInstanceAs (Decidable (_ ∈ _))

section Holding
variable {s t u : FixSession} {actions : List SessionAction} {message : FixMessage} {timestamp : String} {now_millis : Nat}
  {held : OrdMap Nat FixMessage} {n : Nat}

theorem process_numbers (ran : (process_in_sequence message timestamp now_millis).run s = .ok actions t) :
    t.snapshot.pending_inbound = s.snapshot.pending_inbound ∧
    t.snapshot.incoming_sequence = expected s.snapshot.incoming_sequence message := by
  cases process_cases ran with
  | noted _ other _ _ advances => exact ⟨advances.pending,advances.incoming.trans (if_neg other).symm⟩
  | answered _ other sends _ advances _ _ =>
    obtain ⟨_,_,_,rfl⟩ := send_new_ok sends
    exact ⟨advances.pending,advances.incoming.trans (if_neg other).symm⟩
  | sent_again type sends advances =>
    obtain ⟨rfl,_⟩ := replay_requested_ok sends
    exact ⟨advances.pending,advances.incoming.trans (if_neg (by simp [type])).symm⟩
  | filled type parsed _ advances =>
    refine ⟨advances.pending,?_⟩
    rw [expected,if_pos type,parsed]
    exact advances.incoming
  | delivered application advances =>
    refine ⟨advances.pending,advances.incoming.trans (if_neg fun type => application ?_).symm⟩
    simp [type]

/-- A message in its turn is not taken past a held number. -/
theorem process_ahead (ran : (process_in_sequence message timestamp now_millis).run s = .ok actions t)
    (not_past : NotPast (message,expected s.snapshot.incoming_sequence message,s.snapshot.pending_inbound))
    (ahead : ∀ k ∈ s.snapshot.pending_inbound.keys, s.snapshot.incoming_sequence < k) :
    ∀ k ∈ t.snapshot.pending_inbound.keys, t.snapshot.incoming_sequence ≤ k := by
  intro k member
  obtain ⟨pending,incoming⟩ := process_numbers ran
  rw [pending] at member
  rw [incoming]
  by_cases type : message.msg_type = "4"
  · exact not_past type k member
  · rw [expected,if_neg type]
    exact ahead k member

/-- The held messages whose turn has come are taken until the next one is ahead. -/
theorem process_pending_ahead {rounds : Nat} (enough : s.snapshot.pending_inbound.size ≤ rounds)
    (ahead : ∀ k ∈ s.snapshot.pending_inbound.keys, s.snapshot.incoming_sequence ≤ k)
    (not_past : ∀ turn ∈ waiting rounds s.snapshot.pending_inbound s.snapshot.incoming_sequence, NotPast turn)
    (ran : (process_pending timestamp now_millis rounds).run s = .ok actions t) :
    ∀ k ∈ t.snapshot.pending_inbound.keys, t.snapshot.incoming_sequence < k := by
  induction rounds generalizing s actions with
  | zero =>
    cases ran
    intro k member
    rw [OrdMap.keys,List.length_eq_zero_iff.mp (Nat.le_zero.mp enough)] at member
    cases member
  | succ rounds ih =>
    simp only [process_pending,returned] at ran
    split at ran
    · next absent =>
      cases ran
      refine fun k member => lt_of_le_of_ne (ahead k member) ?_
      rintro rfl
      obtain ⟨_,found⟩ := OrdMap.mem_keys.mp member
      cases absent.symm.trans found
    · next next found =>
      simp only [returned] at ran
      obtain ⟨_,u,processed,_,_,ran,rfl,rfl⟩ := ran
      rw [waiting,found,List.forall_mem_cons] at not_past
      obtain ⟨pending,incoming⟩ := process_numbers processed
      refine ih ?_ (process_ahead processed not_past.1 fun k member => ?_) ?_ ran
      · rw [pending]
        have fewer := OrdMap.size_erase (OrdMap.contains_iff.mpr ⟨_,found⟩)
        exact Nat.le_of_succ_le_succ (fewer.trans_le enough)
      · obtain ⟨_,there⟩ := OrdMap.mem_keys.mp member
        rw [OrdMap.get?_erase] at there
        split_ifs at there with same
        exact lt_of_le_of_ne (ahead k (OrdMap.mem_keys.mpr ⟨_,there⟩)) (Ne.symm same)
      · rw [pending,incoming]
        exact not_past.2

theorem mem_keys_held (k : Nat) :
    k ∈ (if held.contains n then held else held.insert n message).keys ↔ k = n ∨ k ∈ held.keys := by
  split_ifs with there
  · refine ⟨.inr,?_⟩
    rintro (rfl | member)
    · exact OrdMap.mem_keys.mpr (OrdMap.contains_iff.mp there)
    · exact member
  · rw [OrdMap.mem_keys,OrdMap.mem_keys]
    simp only [OrdMap.get?_insert]
    by_cases same : k = n <;> simp [same]

/-- A message from ahead is held, and a resend may be open. -/
theorem Gapless.holds {before after : SessionSnapshot} (gapless : Gapless before) (early : before.incoming_sequence < n)
    (incoming : after.incoming_sequence = before.incoming_sequence)
    (pending : after.pending_inbound = if before.pending_inbound.contains n then before.pending_inbound
      else before.pending_inbound.insert n message) : Gapless after := by
  rw [Gapless,incoming,pending]
  refine ⟨fun k member => ?_,fun _ => ?_⟩
  · rcases (mem_keys_held k).mp member with rfl | old
    · exact early
    · exact gapless.1 k old
  · by_contra empty
    obtain ⟨x,found⟩ := OrdMap.mem_keys.mp ((mem_keys_held n).mpr (.inl rfl))
    rw [OrdMap.isEmpty_iff.mp (Bool.not_eq_false _ ▸ empty)] at found
    cases found

variable (gapless : Gapless s.snapshot)
include gapless

theorem accept_gapless (number : parse message 34 = some s.snapshot.incoming_sequence)
    (not_past : ∀ turn ∈ turns message s.snapshot, NotPast turn)
    (ran : (accept message timestamp now_millis).run s = .ok actions t) : Gapless t.snapshot := by
  rw [turns,if_pos number,List.forall_mem_cons] at not_past
  simp only [accept,returned] at ran
  obtain ⟨first,u,processed,others,v,waited,rfl,rfl⟩ := ran
  obtain ⟨pending,incoming⟩ := process_numbers processed
  have ahead := process_pending_ahead le_rfl (process_ahead processed not_past.1 gapless.1)
    (by rw [pending,incoming]; exact not_past.2) waited
  refine ⟨ahead,fun is_open => ?_⟩
  by_contra empty
  rw [Bool.not_eq_false] at empty
  simp [empty] at is_open

theorem hold_gapless (early : s.snapshot.incoming_sequence < n)
    (ran : (hold message n timestamp now_millis).run s = .ok actions t) : Gapless t.snapshot := by
  simp only [hold,returned] at ran
  obtain ⟨_,_,u,answered,ran⟩ := ran
  obtain ⟨_,_,rfl⟩ := answer_early_ok answered
  split at ran
  · cases ran
    exact gapless.holds early rfl rfl
  · simp only [returned] at ran
    obtain ⟨_,_,sent,rfl,rfl⟩ := ran
    obtain ⟨_,_,_,rfl⟩ := send_new_ok sent
    exact gapless.holds early rfl rfl

theorem receive_gapless (not_past : ∀ turn ∈ turns message s.snapshot, NotPast turn)
    (ran : (receive message timestamp now_millis).run s = .ok actions t) : Gapless t.snapshot := by
  simp only [receive,returned] at ran
  obtain ⟨_,sequence,parsed,ran⟩ := ran
  split_ifs at ran with early late copy
  · exact hold_gapless gapless early ran
  · cases ran
    exact gapless
  · exact (throw_eq_ok.mp ran).elim
  · obtain rfl : sequence = s.snapshot.incoming_sequence := by omega
    exact accept_gapless gapless parsed not_past ran

theorem receive_all_gapless {messages : List FixMessage}
    (not_past : ∀ e ∈ hear timestamp now_millis s messages, ∀ turn ∈ turns e.1 e.2, NotPast turn)
    (ran : (receive_all timestamp now_millis messages).run s = .ok actions t) : Gapless t.snapshot := by
  induction messages generalizing s actions with
  | nil =>
    cases ran
    exact gapless
  | cons message messages ih =>
    simp only [receive_all,returned] at ran
    obtain ⟨_,u,heard,_,_,ran,_,rfl⟩ := ran
    rw [hear,heard,List.forall_mem_cons] at not_past
    exact ih (receive_gapless gapless not_past.1 heard) not_past.2 ran

omit gapless in
theorem store_gapless {stored next : Stored} {operation : Operation}
    (gapless : Gapless stored.1.snapshot ∧ ∀ snapshot ∈ stored.2, Gapless snapshot) (orderly : Orderly stored operation)
    (ran : operation.store stored = some next) : Gapless next.1.snapshot ∧ ∀ snapshot ∈ next.2, Gapless snapshot := by
  obtain ⟨t,stepped,rfl⟩ := Option.map_eq_some_iff.mp ran
  suffices Gapless t.snapshot from ⟨this,List.forall_mem_cons.mpr ⟨this,gapless.2⟩⟩
  cases operation with
  | restore snapshot =>
    rw [restore_eq_some stepped]
    exact gapless.2 snapshot orderly
  | call bytes made =>
    rw [Operation.next] at stepped
    split at stepped
    · next actions u performed =>
      obtain rfl := Option.some.inj stepped
      cases made with
      | Receive count timestamp now_millis =>
        obtain ⟨messages,decoder,pushed,heard⟩ := receive_bytes_ok performed
        rw [Orderly,Call.hears,pushed] at orderly
        exact receive_all_gapless (s := { stored.1 with decoder }) gapless.1 orderly heard
      | Poll =>
        obtain ⟨⟨_,_,_,_,rfl⟩,_⟩ | ⟨_,_,_,_,_,_,_,_,_,rfl⟩ := poll_ok performed <;> exact gapless.1
      | Connected =>
        obtain ⟨_,_,_,_,_,_,rfl⟩ := connected_apart performed
        exact gapless.1
      | _ =>
        obtain ⟨_,_,_,_,rfl⟩ := perform_apart performed (by simp) (by simp) (by simp)
        exact gapless.1
    · cases stepped

end Holding

/-- If no sequence reset that is taken jumps over a held message, and what is restored was stored, all that is held is
    ahead of the expected number and a resend is open only while something is held: once the expected number has passed
    all that came, the next gap is asked for. -/
theorem gaps_are_asked_for (config : SessionConfig) (dictionary : CompetitionDictionary) (operations : List Operation)
    (start t : FixSession) (snapshots : List SessionSnapshot) (started : try_new config dictionary = .ok start)
    (ran : follow Operation.store Orderly (start,[start.snapshot]) operations = some (t,snapshots)) :
    (∀ k ∈ t.snapshot.pending_inbound.keys, t.snapshot.incoming_sequence < k) ∧
    (t.snapshot.pending_resend_begin.isSome → t.snapshot.pending_inbound.isEmpty = false) ∧
    ((∀ k ∈ t.snapshot.pending_inbound.keys, k < t.snapshot.incoming_sequence) →
      ∀ message n timestamp now_millis actions u, parse message 34 = some n → t.snapshot.incoming_sequence < n →
        (receive message timestamp now_millis).run t = .ok actions u → Asked t timestamp actions u) := by
  have first : Gapless start.snapshot := by
    simp only [try_new,returned] at started
    obtain ⟨_,rfl⟩ := started
    exact ⟨fun _ member => (by cases member),fun is_open => (by cases is_open)⟩
  obtain ⟨⟨ahead,open_resend⟩,_⟩ := follow_keeps Operation.store Orderly (fun holds => store_gapless holds)
    ⟨first,by simpa using first⟩ ran
  refine ⟨ahead,open_resend,fun passed message n timestamp now_millis actions u number early received => ?_⟩
  refine (hold_ok (receive_held number early received)).2.2.1.mpr ?_
  by_contra is_open
  have some_held := open_resend (Option.isSome_iff_ne_none.mpr is_open)
  have none_held : t.snapshot.pending_inbound.isEmpty = true := by
    refine OrdMap.isEmpty_iff.mpr fun k => ?_
    by_contra found
    have member := OrdMap.mem_keys.mpr (Option.ne_none_iff_exists'.mp found)
    exact absurd (ahead k member) (passed k member).not_gt
  cases some_held.symm.trans none_held

/-- The third message is held, the session is restored, and a gap fill over the second comes. -/
theorem gaps_are_asked_for_around_a_gap : ∃ start mid t, try_new (sample_config .Left) (open_dictionary .Left) = .ok start ∧
    follow Operation.store Orderly (start,[start.snapshot]) [.call [] (.Connected "t" 0),arrives (.new "D") 1,
      arrives (.new "D") 3,.restore mid,.call [] (.Connected "t" 0),arrives (gap_fill 3) 2] = some t ∧
    t.1.snapshot.incoming_sequence = 4 ∧
    (t.1.snapshot.pending_resend_begin.isSome → t.1.snapshot.pending_inbound.isEmpty = false) := by
  obtain ⟨start,started,mid,_,t,ran,all⟩ : ∃ start, try_new (sample_config .Left) (open_dictionary .Left) = .ok start ∧
      ∃ mid, (sample_after (fun _ _ => True) [.call [] (.Connected "t" 0),arrives (.new "D") 1,arrives (.new "D") 3]).map
        FixSession.snapshot = some mid ∧
      ∃ t, follow Operation.store Orderly (start,[start.snapshot]) [.call [] (.Connected "t" 0),arrives (.new "D") 1,
        arrives (.new "D") 3,.restore mid,.call [] (.Connected "t" 0),arrives (gap_fill 3) 2] = some t ∧
        t.1.snapshot.incoming_sequence = 4 := by
    decide +kernel
  exact ⟨start,mid,t,started,ran,all,(gaps_are_asked_for _ _ _ start t.1 t.2 started ran).2.1⟩

/-- A sequence reset jumps over a held message: it stays held, and the next gap is not asked for. -/
theorem jumped_message_stays_held :
    (sample_after (fun _ _ => True) [.call [] (.Connected "t" 0),arrives (.new "D") 3,arrives (gap_fill 5) 1]).map
      (fun s => (s.snapshot.incoming_sequence,s.snapshot.pending_inbound.keys,heard s (from_peer (.new "D") 7))) =
    some (5,[3],some [.Persist]) := by
  decide +kernel

/-! ### Test requests -/

/-- A session with the times of the test requests that its polls sent on this connection since its peer last sent
    anything. -/
abbrev Watched := FixSession × List Nat

def Operation.tests (watched : Watched) (next : FixSession) : Operation → List Nat
  | .call _ (.Connected _ _) | .call _ (.Receive _ _ _) | .restore _ => []
  | .call _ (.Poll now_millis _) =>
    if watched.1.snapshot.outstanding_test_request = none ∧ next.snapshot.outstanding_test_request ≠ none then
      now_millis :: watched.2
    else watched.2
  | .call _ _ => watched.2

def Operation.watch (watched : Watched) (operation : Operation) : Option Watched :=
  (operation.next watched.1).map fun next => (next,operation.tests watched next)

/-- The first message of a read is, in its turn, the heartbeat that is waited for. -/
def answers (s : FixSession) (bytes : List UInt8) : Bool :=
  match (Decoder.push bytes).run s.decoder with
  | .ok (message :: _) _ => message.msg_type = "0" ∧ message.value 112 = s.snapshot.outstanding_test_request ∧
    parse message 34 = some s.snapshot.incoming_sequence
  | _ => false

/-- No test request is carried into a connection, what comes while one is open answers it, and once the peer has been
    silent for an interval no more than `slack` goes by before the poll that opens one. -/
def Timely (slack : Nat) (watched : Watched) : Operation → Prop
  | .call _ (.Connected _ _) => watched.1.snapshot.outstanding_test_request = none
  | .call bytes (.Receive count _ _) =>
    watched.1.snapshot.outstanding_test_request = none ∨ answers watched.1 (bytes.take count) = true
  | .call _ (.Poll now_millis _) =>
    watched.1.snapshot.state = .Established → watched.1.snapshot.outstanding_test_request = none →
      watched.1.config.heartbeat_seconds * 1000 ≤ now_millis - watched.1.snapshot.last_received_millis →
      now_millis ≤ watched.1.snapshot.last_received_millis + watched.1.config.heartbeat_seconds * 1000 + slack
  | .call _ _ => True
  | .restore snapshot => snapshot.outstanding_test_request = none

instance (slack : Nat) (watched : Watched) : ∀ operation, Decidable (Timely slack watched operation)
  | .call _ (.Connected _ _) | .restore _ => inferInstanceAs (Decidable (_ = _))
  | .call _ (.Receive _ _ _) => inferInstanceAs (Decidable (_ ∨ _))
  | .call _ (.Poll _ _) => inferInstanceAs (Decidable (_ → _))
  | .call _ (.SendApplication _ _) | .call _ (.SendReplaceable _ _ _) | .call _ (.RequestLogout _ _)
  | .call _ (.Probe _ _ _) => isTrue trivial

/-- A test request is closed or stays as it is. -/
def Settles (s t : FixSession) : Prop :=
  t.config = s.config ∧ (t.snapshot.outstanding_test_request = none ∨
    t.snapshot.outstanding_test_request = s.snapshot.outstanding_test_request)

theorem Settles.closed {s t : FixSession} (settles : Settles s t) (idle : s.snapshot.outstanding_test_request = none) :
    t.snapshot.outstanding_test_request = none :=
  settles.2.elim id fun same => same.trans idle

instance : IsPreorder FixSession Settles where
  refl _ := ⟨rfl,.inr rfl⟩
  trans _ _ _ first next := ⟨next.1.trans first.1,next.2.elim .inl fun same => first.2.imp same.trans same.trans⟩

section Testing
variable {s t u : FixSession} {actions : List SessionAction} {message : FixMessage} {timestamp : String} {now_millis n : Nat}

theorem send_new_settles {journal : Bool} {key : Option String} :
    Leads Settles (send_new message timestamp now_millis journal key) s := by
  refine .get (.orElse fun _ _ => .lift fun _ _ => ?_)
  exact .put ⟨rfl,.inr rfl⟩

theorem replay_requested_settles : Leads Settles (replay_requested message timestamp now_millis) s := by
  refine .get (.orElse fun _ _ => .orElse fun _ _ => ?_)
  refine .refuse fun _ => .lift fun _ _ => ?_
  exact .put ⟨rfl,.inr rfl⟩

theorem process_settles : Leads Settles (process_in_sequence message timestamp now_millis) s := by
  refine .get (.orElse fun next _ => .bind (.set ⟨rfl,.inr rfl⟩) fun _ u ran => ?_)
  obtain rfl := set_eq_ok.mp ran
  split
  · exact .refuse fun _ => .put ⟨rfl,.inr rfl⟩
  · refine .put ⟨rfl,?_⟩
    split_ifs <;> simp
  · exact send_new_settles
  · exact replay_requested_settles
  · exact .orElse fun _ _ => .refuse fun _ => .put ⟨rfl,.inr rfl⟩
  · exact .bind (.set ⟨rfl,.inr rfl⟩) fun _ _ _ => .bind send_new_settles fun _ _ _ => .pure _
  · exact .pure _

theorem process_pending_settles {rounds : Nat} : Leads Settles (process_pending timestamp now_millis rounds) s := by
  induction rounds generalizing s with
  | zero => exact .pure _
  | succ rounds ih =>
    refine .get ?_
    split
    · exact .pure _
    · exact .bind (.set ⟨rfl,.inr rfl⟩) fun _ _ _ => .bind process_settles fun _ _ _ => .bind ih fun _ _ _ => .pure _

theorem accept_settles : Leads Settles (accept message timestamp now_millis) s :=
  .bind process_settles fun _ _ _ => .get (.bind process_pending_settles fun _ _ _ =>
    .get (.put ⟨rfl,.inr rfl⟩))

theorem hold_settles : Leads Settles (hold message n timestamp now_millis) s := by
  have early {u : FixSession} : Leads Settles (answer_early message timestamp now_millis) u :=
    .ite (fun _ => replay_requested_settles) fun _ => .pure _
  refine .get (.refuse fun _ => .bind early fun _ _ _ => .get (.bind (.set ⟨rfl,.inr rfl⟩) fun _ v ran => ?_))
  obtain rfl := set_eq_ok.mp ran
  exact .ite (fun _ => .pure _) fun _ => .bind (.set ⟨rfl,.inr rfl⟩) fun _ _ _ => .bind send_new_settles fun _ _ _ => .pure _

theorem receive_settles : Leads Settles (receive message timestamp now_millis) s :=
  .get (.refuse fun _ => .orElse fun _ _ => .ite (fun _ => hold_settles) fun _ =>
    .ite (fun _ => .ite (fun _ => .pure _) fun _ => .throw _) fun _ => accept_settles)

theorem receive_all_settles {messages : List FixMessage} : Leads Settles (receive_all timestamp now_millis messages) s := by
  induction messages generalizing s with
  | nil => exact .pure _
  | cons message messages ih => exact .bind receive_settles fun _ _ _ => .bind ih fun _ _ _ => .pure _

/-- The heartbeat that is waited for, in its turn, closes the test request. -/
theorem receive_answer (type : message.msg_type = "0") (answer : message.value 112 = s.snapshot.outstanding_test_request)
    (number : parse message 34 = some s.snapshot.incoming_sequence)
    (ran : (receive message timestamp now_millis).run s = .ok actions t) : t.snapshot.outstanding_test_request = none := by
  simp only [receive,returned] at ran
  obtain ⟨_,sequence,parsed,ran⟩ := ran
  cases parsed.symm.trans number
  rw [if_neg (lt_irrefl _),if_neg (lt_irrefl _)] at ran
  simp only [accept,returned] at ran
  obtain ⟨_,u,processed,_,v,waited,_,rfl⟩ := ran
  have closed : u.snapshot.outstanding_test_request = none := by
    simp only [process_in_sequence,type,answer,returned] at processed
    obtain ⟨_,_,_,rfl⟩ := processed
    simp
  exact (process_pending_settles.ok waited).closed closed

/-- An open test request was sent on this connection, at most `slack` after the peer had been silent for an interval. -/
structure Tested (config : SessionConfig) (slack : Nat) (watched : Watched) : Prop where
  same : watched.1.config = config
  sent : watched.1.snapshot.outstanding_test_request ≠ none → ∃ sent ∈ watched.2,
    sent ≤ watched.1.snapshot.last_received_millis + config.heartbeat_seconds * 1000 + slack

theorem watch_tested {config : SessionConfig} {slack : Nat} {watched next : Watched} {operation : Operation}
    (tested : Tested config slack watched) (timely : Timely slack watched operation)
    (ran : operation.watch watched = some next) : Tested config slack next := by
  obtain ⟨t,stepped,rfl⟩ := Option.map_eq_some_iff.mp ran
  obtain ⟨rfl,sent⟩ := tested
  cases operation with
  | restore snapshot =>
    rw [restore_eq_some stepped]
    exact ⟨rfl,fun waits => absurd timely waits⟩
  | call bytes made =>
    rw [Operation.next] at stepped
    split at stepped
    · next actions u performed =>
      obtain rfl := Option.some.inj stepped
      cases made with
      | Receive count timestamp now_millis =>
        obtain ⟨messages,decoder,pushed,heard⟩ := receive_bytes_ok performed
        have settles := receive_all_settles.ok heard
        refine ⟨settles.1,fun waits => absurd ?_ waits⟩
        rcases timely with none | answered
        · exact settles.closed none
        · rw [answers,pushed] at answered
          cases messages with
          | nil => cases answered
          | cons message messages =>
            obtain ⟨type,answer,number⟩ := of_decide_eq_true answered
            simp only [receive_all,returned] at heard
            obtain ⟨_,v,received,_,_,later,_,rfl⟩ := heard
            have closed := receive_answer (s := { watched.1 with decoder }) type answer number received
            exact (receive_all_settles.ok later).closed closed
      | Poll now_millis timestamp =>
        obtain ⟨⟨_,_,_,_,rfl⟩,_⟩ | ⟨up,none,silent,_,_,_,_,_,_,rfl⟩ := poll_ok performed
        · refine ⟨rfl,fun waits => ?_⟩
          rw [Operation.tests,if_neg fun opens => waits opens.1]
          exact sent waits
        · refine ⟨rfl,fun _ => ⟨now_millis,?_,timely up none silent⟩⟩
          rw [Operation.tests,if_pos ⟨none,by simp⟩]
          exact List.mem_cons_self ..
      | Connected =>
        obtain ⟨_,_,_,_,_,_,rfl⟩ := connected_apart performed
        exact ⟨rfl,fun waits => absurd timely waits⟩
      | _ =>
        obtain ⟨_,_,_,_,rfl⟩ := perform_apart performed (by simp) (by simp) (by simp)
        exact ⟨rfl,sent⟩
    · cases stepped

end Testing

/-- If no test request is carried over to a new connection, all that comes while one is open answers it, and test requests
    are sent at most `slack` late, then a poll gives up only a peer that a test request was sent to on this connection, an
    interval less `slack` ago or more, and that sent nothing since. -/
theorem peers_are_tested_before_they_are_given_up (config : SessionConfig) (dictionary : CompetitionDictionary)
    (operations : List Operation) (start s t : FixSession) (tests : List Nat) (slack now_millis : Nat) (timestamp : String)
    (actions : List SessionAction) (started : try_new config dictionary = .ok start)
    (ran : follow Operation.watch (Timely slack) (start,[]) operations = some (s,tests))
    (polled : (poll now_millis timestamp).run s = .ok actions t) (gives_up : .Disconnect ∈ actions) :
    ∃ sent ∈ tests, sent + config.heartbeat_seconds * 1000 ≤ now_millis + slack := by
  simp only [try_new,validate_config,returned,not_or] at started
  obtain ⟨⟨⟨_,_,_,_,beats,_⟩,_⟩,rfl⟩ := started
  obtain ⟨rfl,sent⟩ := follow_keeps Operation.watch (Timely slack) watch_tested ⟨rfl,fun waits => absurd rfl waits⟩ ran
  obtain ⟨_,late⟩ | ⟨_,_,_,stays,_⟩ := poll_ok polled
  · obtain ⟨waits,silent⟩ := late gives_up
    obtain ⟨time,member,in_time⟩ := sent (Option.isSome_iff_ne_none.mp waits)
    refine ⟨time,member,?_⟩
    dsimp only at beats in_time ⊢
    omega
  · exact absurd gives_up stays

def sample_logon : FixMessage := (FixMessage.new "A").push 1137 FIX_50_SP2_APPL_VER_ID

/-- A connection that is opened and tested after thirty seconds. -/
def sample_silence : List Operation := [.call [] (.Connected "t" 0),arrives sample_logon 1,.call [] (.Poll 30001 "t")]

theorem silent_peer_is_given_up : ∃ start s t tests actions, try_new (sample_config .Left) (open_dictionary .Left) = .ok start ∧
    follow Operation.watch (Timely 0) (start,[]) sample_silence = some (s,tests) ∧
    (poll 60001 "t").run s = .ok actions t ∧ .Disconnect ∈ actions ∧
    ∃ sent ∈ tests, sent + (sample_config .Left).heartbeat_seconds * 1000 ≤ 60001 := by
  obtain ⟨start,started,⟨s,tests⟩,ran,actions,t,polled,gives_up⟩ : ∃ start,
      try_new (sample_config .Left) (open_dictionary .Left) = .ok start ∧
      ∃ watched, follow Operation.watch (Timely 0) (start,[]) sample_silence = some watched ∧
        ∃ actions t, (poll 60001 "t").run watched.1 = .ok actions t ∧ .Disconnect ∈ actions := by decide +kernel
  exact ⟨start,s,t,tests,actions,started,ran,polled,gives_up,
    peers_are_tested_before_they_are_given_up _ _ _ start s t tests 0 _ _ _ started ran polled gives_up⟩

/-- A test request of an earlier connection is still waited for, and no other is sent before the peer is given up. -/
theorem earlier_test_request_gives_up :
    (match try_new (sample_config .Left) (open_dictionary .Left) with
    | .ok start => (follow Operation.watch (fun _ _ => True) (start,[]) (sample_silence ++
        [.call [] (.Connected "t" 40000),.call (from_peer sample_logon 2) (.Receive 999 "t" 40001)])).map fun watched =>
      (watched.2,match (poll 100001 "t").run watched.1 with
        | .ok actions _ => actions
        | .error _ _ => [])
    | .error _ => none) = some ([],[.Persist,.Disconnect]) := by
  decide +kernel

end Bunting.Simfix
