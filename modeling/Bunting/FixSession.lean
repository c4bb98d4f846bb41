import Bunting.FixCodec
import Bunting.OrdMap

/-!
The FIX session: numbered messages in both directions over a connection that may
break. A side keeps what it sent in a bounded journal, asks its peer to send
again what it missed, and holds what came too early.
-/

namespace Bunting.Simfix
open Stateful Bytes

/-! ### The state of a session -/

structure SessionConfig where
  sender_comp_id : String
  target_comp_id : String
  heartbeat_seconds : Nat
  max_journal_messages : Nat
  max_pending_inbound : Nat
  wire_limits : WireLimits
  logon_fields : List Field

inductive ConnectionState
  | Disconnected
  | Connecting
  | AwaitingLogon
  | Established
  | LogoutPending
  deriving DecidableEq

structure JournalEntry where
  sequence : Nat
  frame : List UInt8
  replacement_key : Option String
  deriving DecidableEq

structure SessionSnapshot where
  version : Nat
  incoming_sequence : Nat
  outgoing_sequence : Nat
  reconnect_generation : Nat
  state : ConnectionState
  journal : OrdMap Nat JournalEntry
  pending_resend_begin : Option Nat
  pending_inbound : OrdMap Nat FixMessage
  last_received_millis : Nat
  last_sent_millis : Nat
  outstanding_test_request : Option String
  deriving DecidableEq

inductive SessionAction
  | Send (frame : List UInt8)
  | PeerLogon (message : FixMessage)
  | Application (message : FixMessage)
  /-- The state changed and is to be stored. -/
  | Persist
  | Disconnect
  /-- A heartbeat answered the test request of this name. -/
  | TestResponse (test_req_id : String)
  deriving DecidableEq

inductive SessionError
  | Wire (error : WireError)
  | InvalidConfig
  | MissingSequence
  | InvalidSequence
  | InvalidCompId
  | InvalidApplicationVersion
  | InvalidSnapshot
  | InvalidReplacementKey
  | PendingInboundFull
  | NotEstablished
  | ArithmeticOverflow
  deriving DecidableEq

structure FixSession where
  config : SessionConfig
  snapshot : SessionSnapshot
  decoder : Decoder

def FIX_50_SP2_APPL_VER_ID : String := "9"

/-- A number in a field; the counters of a session are as wide as sizes. -/
def parse (message : FixMessage) (tag : UInt32) : Option Nat := do
  let value ← message.value tag
  parse_unsigned usize_max value

def wire {α : Type} : Except WireError α → Except SessionError α := Except.mapError SessionError.Wire

/-! ### Opening -/

def validate_config (config : SessionConfig) : Except SessionError Unit := do
  refuse (config.sender_comp_id.isEmpty ∨ config.target_comp_id.isEmpty ∨
    (as_bytes config.sender_comp_id).length > config.wire_limits.max_field_bytes ∨
    (as_bytes config.target_comp_id).length > config.wire_limits.max_field_bytes ∨
    config.heartbeat_seconds = 0 ∨ config.max_journal_messages = 0 ∨ config.max_pending_inbound = 0 ∨
    config.logon_fields.length > 16 ∨
    config.logon_fields.any fun field => field.tag ∈ [8,9,10,34,35,49,52,56,98,108,1137] ∨
      (as_bytes field.value).length > config.wire_limits.max_field_bytes) SessionError.InvalidConfig
  -- the source sorts the tags and looks for equal neighbours
  refuse (¬ (config.logon_fields.map (·.tag)).Nodup) SessionError.InvalidConfig

namespace FixSession

/-- A disconnected session whose numbers start at one. -/
def try_new (config : SessionConfig) (dictionary : CompetitionDictionary) : Except SessionError FixSession := do
  validate_config config
  pure {
    config
    decoder := .try_new config.wire_limits dictionary
    snapshot := {
      version := 2
      incoming_sequence := 1
      outgoing_sequence := 1
      reconnect_generation := 0
      state := .Disconnected
      journal := ∅
      pending_resend_begin := none
      pending_inbound := ∅
      last_received_millis := 0
      last_sent_millis := 0
      outstanding_test_request := none } }

def restore (config : SessionConfig) (dictionary : CompetitionDictionary) (snapshot : SessionSnapshot) :
    Except SessionError FixSession := do
  validate_config config
  refuse (snapshot.version ≠ 2 ∨ snapshot.journal.size > config.max_journal_messages ∨
    (snapshot.journal.entries.any fun (sequence,entry) => entry.sequence ≠ sequence ∨
      entry.replacement_key.any fun key => key.isEmpty ∨ (as_bytes key).length > config.wire_limits.max_field_bytes) ∨
    snapshot.pending_inbound.size > config.max_pending_inbound ∨ snapshot.incoming_sequence = 0 ∨
    snapshot.outgoing_sequence = 0) SessionError.InvalidSnapshot
  pure ⟨config,snapshot,.try_new config.wire_limits dictionary⟩

end FixSession

/-! ### Sending -/

/-- The tags that the session writes itself. -/
def header_tags : List UInt32 := [49,56,34,43,52,122]

/-- A message without the fields that the session writes. -/
def content (message : FixMessage) : FixMessage :=
  { message with fields := message.fields.filter fun field => field.tag ∉ header_tags }

/-- A message with the header of its session; a copy has the time of its original. -/
def stamped (config : SessionConfig) (message : FixMessage) (sequence : Nat) (timestamp : String)
    (original_timestamp : Option String) : FixMessage :=
  let message := ((content message).push 49 config.sender_comp_id).push 56 config.target_comp_id
  let message := message.push 34 (toString sequence)
  let message := match original_timestamp with
    | some original => (message.push 43 "Y").push 122 original
    | none => message
  message.push 52 timestamp

def encode_at (config : SessionConfig) (message : FixMessage) (sequence : Nat) (timestamp : String)
    (original_timestamp : Option String) : Except SessionError (List UInt8) :=
  wire ((stamped config message sequence timestamp original_timestamp).encode config.wire_limits)

/-- Drops the oldest entries until one more has room. Each round drops one, so as many rounds as entries are enough. -/
def evict (max_journal_messages : Nat) : Nat → OrdMap Nat JournalEntry → OrdMap Nat JournalEntry
  | 0,journal => journal
  | rounds + 1,journal =>
    if max_journal_messages ≤ journal.size then
      match journal.first? with
      | none => journal
      | some (oldest,_) => evict max_journal_messages rounds (journal.erase oldest)
    else journal

/-- The journal with a frame more; of a logical stream only the latest frame is kept. -/
def journaled (config : SessionConfig) (journal : OrdMap Nat JournalEntry) (sequence : Nat) (frame : List UInt8)
    (replacement_key : Option String) : OrdMap Nat JournalEntry :=
  let journal := match replacement_key with
    | some key => journal.retain fun _ entry => entry.replacement_key ≠ some key
    | none => journal
  (evict config.max_journal_messages journal.size journal).insert sequence ⟨sequence,frame,replacement_key⟩

namespace FixSession

def send_new (message : FixMessage) (timestamp : String) (now_millis : Nat) (journal : Bool)
    (replacement_key : Option String) : EStateM SessionError FixSession (List SessionAction) := do
  let session ← get
  let sequence := session.snapshot.outgoing_sequence
  let next_sequence ← orElse (checked_add sequence 1) SessionError.ArithmeticOverflow
  let frame ← encode_at session.config message sequence timestamp none
  set { session with snapshot := { session.snapshot with
    journal :=
      if journal then journaled session.config session.snapshot.journal sequence frame replacement_key
      else session.snapshot.journal
    outgoing_sequence := next_sequence
    last_sent_millis := now_millis } }
  pure [.Send frame,.Persist]

/-- The Logon of a new connection. -/
def connected_at (timestamp : String) (now_millis : Nat) : EStateM SessionError FixSession (List SessionAction) := do
  let session ← get
  let generation ← orElse (checked_add session.snapshot.reconnect_generation 1) SessionError.ArithmeticOverflow
  set { session with
    snapshot := { session.snapshot with
      reconnect_generation := generation
      state := .AwaitingLogon
      last_received_millis := now_millis
      last_sent_millis := now_millis }
    decoder := .try_new session.config.wire_limits session.decoder.dictionary }
  let message := ((FixMessage.new "A").push 98 "0").push 108 (toString session.config.heartbeat_seconds)
  let message := message.push 1137 FIX_50_SP2_APPL_VER_ID
  let message := session.config.logon_fields.foldl (fun message field => message.push field.tag field.value) message
  send_new message timestamp now_millis true none

def send_application (message : FixMessage) (timestamp : String) :
    EStateM SessionError FixSession (List SessionAction) := do
  let session ← get
  refuse (session.snapshot.state ≠ .Established) SessionError.NotEstablished
  send_new message timestamp session.snapshot.last_sent_millis true none

/-- Sends a message that takes the place of an older one with the same key in the journal. -/
def send_replaceable_application (message : FixMessage) (timestamp replacement_key : String) :
    EStateM SessionError FixSession (List SessionAction) := do
  let session ← get
  refuse (session.snapshot.state ≠ .Established) SessionError.NotEstablished
  refuse (replacement_key.isEmpty ∨ (as_bytes replacement_key).length > session.config.wire_limits.max_field_bytes)
    SessionError.InvalidReplacementKey
  send_new message timestamp session.snapshot.last_sent_millis true (some replacement_key)

def request_logout (timestamp : String) (reason : Option String) :
    EStateM SessionError FixSession (List SessionAction) := do
  let session ← get
  refuse (session.snapshot.state ≠ .Established) SessionError.NotEstablished
  set { session with snapshot := { session.snapshot with state := .LogoutPending } }
  let logout := match reason with
    | some reason => (FixMessage.new "5").push 58 reason
    | none => FixMessage.new "5"
  send_new logout timestamp session.snapshot.last_sent_millis true none

def probe (probe_id timestamp : String) (now_millis : Nat) : EStateM SessionError FixSession (List SessionAction) := do
  let session ← get
  refuse (session.snapshot.state ≠ .Established) SessionError.NotEstablished
  refuse probe_id.isEmpty SessionError.InvalidConfig
  send_new ((FixMessage.new "1").push 112 probe_id) timestamp now_millis true none

/-- A heartbeat, a test request or a disconnect, by the time that went by. -/
def poll (now_millis : Nat) (timestamp : String) : EStateM SessionError FixSession (List SessionAction) := do
  let session ← get
  let snapshot := session.snapshot
  if snapshot.state ≠ .Established then pure []
  else
    let interval := session.config.heartbeat_seconds * 1000
    if snapshot.outstanding_test_request.isSome ∧ now_millis - snapshot.last_received_millis ≥ interval * 2 then do
      set { session with snapshot := { snapshot with state := .Disconnected } }
      pure [.Persist,.Disconnect]
    else if now_millis - snapshot.last_received_millis ≥ interval ∧ snapshot.outstanding_test_request = none then do
      let test_req_id := "test-" ++ toString now_millis
      set { session with snapshot := { snapshot with outstanding_test_request := some test_req_id } }
      send_new ((FixMessage.new "1").push 112 test_req_id) timestamp now_millis true none
    else if now_millis - snapshot.last_sent_millis ≥ interval then
      send_new (FixMessage.new "0") timestamp now_millis true none
    else pure []

/-! ### Sending again -/

/-- The first message of a frame. -/
def decode_one (frame : List UInt8) (limits : WireLimits) (dictionary : CompetitionDictionary) :
    Except SessionError FixMessage :=
  match (Decoder.push frame).run (.try_new limits dictionary) with
  | .ok messages _ => orElse messages.head? SessionError.InvalidSequence
  | .error error _ => throw (.Wire error)

/-- The message that passes over the numbers before `next`. -/
def gap_fill (next : Nat) : FixMessage := ((FixMessage.new "4").push 123 "Y").push 36 (toString next)

/-- Copies of what the journal has, and gap fills for the rest. Each round gets further, so as many rounds as there are
    numbers are enough. -/
def replay (session : FixSession) (timestamp : String) (last : Nat) : Nat → Nat → Except SessionError (List SessionAction)
  | 0,_ => pure []
  | rounds + 1,sequence =>
    if last < sequence then pure []
    else match session.snapshot.journal.get? sequence with
      | some entry => do
        let original ← decode_one entry.frame session.config.wire_limits session.decoder.dictionary
        let original_time := (original.value 52).getD timestamp
        let frame ← encode_at session.config original sequence timestamp (some original_time)
        let next ← orElse (checked_add sequence 1) SessionError.ArithmeticOverflow
        let later ← replay session timestamp last rounds next
        pure (.Send frame :: later)
      | none => do
        let next := match session.snapshot.journal.entries.find? (fun entry => sequence ≤ entry.1 ∧ entry.1 ≤ last) with
          | some entry => entry.1
          | none => min (last + 1) usize_max
        let frame ← encode_at session.config (gap_fill next) sequence timestamp (some timestamp)
        let later ← replay session timestamp last rounds next
        pure (.Send frame :: later)

def replay_requested (request : FixMessage) (timestamp : String) (now_millis : Nat) :
    EStateM SessionError FixSession (List SessionAction) := do
  let session ← get
  let first ← orElse (parse request 7) SessionError.MissingSequence
  let requested_end ← orElse (parse request 16) SessionError.MissingSequence
  let last_sent := session.snapshot.outgoing_sequence - 1
  let last := if requested_end = 0 then last_sent else min requested_end last_sent
  refuse (first = 0 ∨ first > min (last + 1) usize_max) SessionError.InvalidSequence
  let actions ← session.replay timestamp last (last + 1 - first) first
  set { session with snapshot := { session.snapshot with last_sent_millis := now_millis } }
  pure (actions ++ [.Persist])

/-! ### Receiving -/

/-- A message whose turn it is. -/
def process_in_sequence (message : FixMessage) (timestamp : String) (now_millis : Nat) :
    EStateM SessionError FixSession (List SessionAction) := do
  let session ← get
  let next ← orElse (checked_add session.snapshot.incoming_sequence 1) SessionError.ArithmeticOverflow
  let session := { session with snapshot := { session.snapshot with
    incoming_sequence := next
    last_received_millis := now_millis } }
  set session
  match message.msg_type with
  | "A" => do
    refuse (message.value 1137 ≠ some FIX_50_SP2_APPL_VER_ID) SessionError.InvalidApplicationVersion
    set { session with snapshot := { session.snapshot with state := .Established } }
    pure [.PeerLogon message]
  | "0" => do
    set { session with snapshot := { session.snapshot with
      outstanding_test_request :=
        if session.snapshot.outstanding_test_request = message.value 112 then none
        else session.snapshot.outstanding_test_request } }
    pure ((message.value 112).toList.map .TestResponse)
  | "1" =>
    let heartbeat := match message.value 112 with
      | some test_req_id => (FixMessage.new "0").push 112 test_req_id
      | none => FixMessage.new "0"
    send_new heartbeat timestamp now_millis true none
  | "2" => replay_requested message timestamp now_millis
  | "4" => do
    let new_sequence ← orElse (parse message 36) SessionError.MissingSequence
    refuse (new_sequence < session.snapshot.incoming_sequence) SessionError.InvalidSequence
    set { session with snapshot := { session.snapshot with incoming_sequence := new_sequence } }
    pure []
  | "5" => do
    set { session with snapshot := { session.snapshot with state := .Disconnected } }
    let output ← send_new ((FixMessage.new "5").push 58 "logout acknowledged") timestamp now_millis false none
    pure (output ++ [.Disconnect])
  | _ => pure [.Application message]

/-- The held messages whose turn comes. Each round takes one out, so as many rounds as are held are enough. -/
def process_pending (timestamp : String) (now_millis : Nat) : Nat → EStateM SessionError FixSession (List SessionAction)
  | 0 => pure []
  | rounds + 1 => do
    let session ← get
    match session.snapshot.pending_inbound.get? session.snapshot.incoming_sequence with
    | none => pure []
    | some next => do
      set { session with snapshot := { session.snapshot with
        pending_inbound := session.snapshot.pending_inbound.erase session.snapshot.incoming_sequence } }
      let first ← process_in_sequence next timestamp now_millis
      let later ← process_pending timestamp now_millis rounds
      pure (first ++ later)

/-- A resend request is answered at once, even ahead of a gap. -/
def answer_early (message : FixMessage) (timestamp : String) (now_millis : Nat) :
    EStateM SessionError FixSession (List SessionAction) :=
  if message.msg_type = "2" then replay_requested message timestamp now_millis else pure []

/-- Of a resend request only the number is held. -/
def queued (message : FixMessage) : FixMessage := if message.msg_type = "2" then FixMessage.new "0" else message

/-- A message that came too early is held, and what is missing is asked for once. -/
def hold (message : FixMessage) (sequence : Nat) (timestamp : String) (now_millis : Nat) :
    EStateM SessionError FixSession (List SessionAction) := do
  let session ← get
  refuse (session.snapshot.pending_inbound.size ≥ session.config.max_pending_inbound) SessionError.PendingInboundFull
  let actions ← answer_early message timestamp now_millis
  let session ← get
  let session := { session with snapshot := { session.snapshot with
    pending_inbound :=
      if session.snapshot.pending_inbound.contains sequence then session.snapshot.pending_inbound
      else session.snapshot.pending_inbound.insert sequence (queued message) } }
  set session
  if session.snapshot.pending_resend_begin.isSome then pure (actions ++ [.Persist])
  else do
    set { session with snapshot := { session.snapshot with
      pending_resend_begin := some session.snapshot.incoming_sequence } }
    let resend := ((FixMessage.new "2").push 7 (toString session.snapshot.incoming_sequence)).push 16 "0"
    let asked ← send_new resend timestamp now_millis true none
    pure (actions ++ asked)

/-- A message whose turn it is, and those that waited for it. -/
def accept (message : FixMessage) (timestamp : String) (now_millis : Nat) :
    EStateM SessionError FixSession (List SessionAction) := do
  let first ← process_in_sequence message timestamp now_millis
  let session ← get
  let later ← process_pending timestamp now_millis session.snapshot.pending_inbound.size
  let session ← get
  set { session with snapshot := { session.snapshot with
    pending_resend_begin :=
      if session.snapshot.pending_inbound.isEmpty then none else session.snapshot.pending_resend_begin } }
  pure (first ++ later ++ [.Persist])

def receive (message : FixMessage) (timestamp : String) (now_millis : Nat) :
    EStateM SessionError FixSession (List SessionAction) := do
  let session ← get
  refuse (message.value 49 ≠ some session.config.target_comp_id ∨
    message.value 56 ≠ some session.config.sender_comp_id) SessionError.InvalidCompId
  let sequence ← orElse (parse message 34) SessionError.MissingSequence
  if sequence > session.snapshot.incoming_sequence then hold message sequence timestamp now_millis
  else if sequence < session.snapshot.incoming_sequence then
    if message.value 43 = some "Y" ∧ (message.value 122).isSome then pure [] else throw .InvalidSequence
  else accept message timestamp now_millis

/-- The messages of one read, in turn. -/
def receive_all (timestamp : String) (now_millis : Nat) :
    List FixMessage → EStateM SessionError FixSession (List SessionAction)
  | [] => pure []
  | message :: messages => do
    let first ← receive message timestamp now_millis
    let later ← receive_all timestamp now_millis messages
    pure (first ++ later)

def receive_bytes_at (bytes : List UInt8) (timestamp : String) (now_millis : Nat) :
    EStateM SessionError FixSession (List SessionAction) := do
  let messages ← zoom FixSession.decoder (fun decoder session => { session with decoder }) SessionError.Wire
    (Decoder.push bytes)
  receive_all timestamp now_millis messages

end FixSession
end Bunting.Simfix
