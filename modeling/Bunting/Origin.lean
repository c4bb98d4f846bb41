import Bunting.Identity
import Bunting.Bytes
import Bunting.Sequencer

/-!
The run that one writer owns. An input is applied in place to the live state and
becomes a record whose chain value hashes it onto the chain before it; a
transition that is poisoned or goes past the bound on events is rolled back by
re-executing the inputs since the last checkpoint. SHA-256 and the JSON of the
values it hashes are parameters (`Hashing`).
-/

namespace Bunting
open Stateful Bytes

deriving instance DecidableEq for Input

namespace Input

def run_id : Input → RunId
  | .Command command => command.run_id
  | .Request request => request.run_id

def command_id : Input → CommandId
  | .Command command => command.command_id
  | .Request request => request.command_id

def expected_sequence : Input → Nat
  | .Command command => command.expected_sequence
  | .Request request => request.expected_sequence

end Input

namespace Origin

/-! ### Records -/

/-- Stable persisted command response. -/
structure CommandResult where
  accepted : Bool
  reject_code : Option String
  committed_sequence : Nat
  order_id : Option OrderId
  deriving DecidableEq

/-- Durable record of one committed input. -/
structure CommandRecord where
  input : Input
  fingerprint : String
  result : CommandResult
  events : List EventEnvelope
  chain : String
  admission : Option AdmissionRecord
  deriving DecidableEq

inductive OriginError
  | UnknownRun
  | VersionConflict (current : Nat)
  | IdempotencyConflict
  | InvalidCommit
  | Unavailable
  | CapacityExceeded
  | Engine (error : EngineError)
  deriving DecidableEq

/-- The fields of a record that its chain value covers. -/
structure Chained where
  input : Input
  fingerprint : String
  result : CommandResult
  events : List EventEnvelope
  admission : Option AdmissionRecord
  deriving DecidableEq

def Chained.of (record : CommandRecord) : Chained :=
  ⟨record.input,record.fingerprint,record.result,record.events,record.admission⟩

/-! ### Digests -/

/-- A SHA-256 value. -/
@[ext] structure Digest where
  bytes : List UInt8
  sized : bytes.length = 32
  deriving DecidableEq

def HEX_DIGITS : List Char := "0123456789abcdef".toList

def hex_digits (byte : UInt8) : List Char :=
  [HEX_DIGITS.getD (byte >>> 4).toNat '0',HEX_DIGITS.getD (byte &&& 0x0f).toNat '0']

def hex (digest : Digest) : String := String.ofList (digest.bytes.flatMap hex_digits)

def hex_value (byte : UInt8) : Except OriginError UInt8 :=
  if 48 ≤ byte ∧ byte ≤ 57 then .ok (byte - 48)
  else if 97 ≤ byte ∧ byte ≤ 102 then .ok (byte - 97 + 10)
  else .error .InvalidCommit

/-- The bytes that pairs of digits stand for. -/
def hex_pairs : List UInt8 → Except OriginError (List UInt8)
  | high :: low :: rest => do
    let high ← hex_value high
    let low ← hex_value low
    let bytes ← hex_pairs rest
    pure (((high <<< 4) ||| low) :: bytes)
  | _ => pure []

def parse_hex (value : String) : Except OriginError Digest := do
  refuse ((as_bytes value).length ≠ 64) OriginError.InvalidCommit
  let bytes ← hex_pairs (as_bytes value)
  -- Sixty-four digits are thirty-two bytes.
  if sized : bytes.length = 32 then pure ⟨bytes,sized⟩ else throw .InvalidCommit

/-- The digits of a byte are two characters of one byte each, and stand for the byte. -/
theorem hex_pairs_digits (byte : UInt8) : ((hex_digits byte).flatMap String.utf8EncodeChar).length = 2 ∧
    hex_pairs ((hex_digits byte).flatMap String.utf8EncodeChar) = .ok [byte] := by
  have all : ∀ n < 256, ((hex_digits (UInt8.ofNat n)).flatMap String.utf8EncodeChar).length = 2 ∧
      hex_pairs ((hex_digits (UInt8.ofNat n)).flatMap String.utf8EncodeChar) = .ok [UInt8.ofNat n] := by
    decide +kernel
  simpa using all byte.toNat byte.toNat_lt

theorem hex_pairs_append {front back bytes : List UInt8} {byte : UInt8} (two : front.length = 2)
    (first : hex_pairs front = .ok [byte]) (rest : hex_pairs back = .ok bytes) :
    hex_pairs (front ++ back) = .ok (byte :: bytes) := by
  obtain ⟨high,low,rfl⟩ := List.length_eq_two.mp two
  simp only [hex_pairs,except_bind_eq_ok,except_pure_eq_ok,List.cons_append,List.nil_append] at first ⊢
  obtain ⟨a,left,b,right,_,rfl,same⟩ := first
  exact ⟨a,left,b,right,bytes,rest,by rw [(List.cons.inj same).1]⟩

theorem parse_hex_hex (digest : Digest) : parse_hex (hex digest) = .ok digest := by
  have parsed (bytes : List UInt8) :
      ((bytes.flatMap hex_digits).flatMap String.utf8EncodeChar).length = 2 * bytes.length ∧
        hex_pairs ((bytes.flatMap hex_digits).flatMap String.utf8EncodeChar) = .ok bytes := by
    induction bytes with
    | nil => exact ⟨rfl,rfl⟩
    | cons byte bytes ih =>
      obtain ⟨two,first⟩ := hex_pairs_digits byte
      rw [List.flatMap_cons,List.flatMap_append]
      refine ⟨?_,hex_pairs_append two first ih.2⟩
      rw [List.length_append,two,ih.1,List.length_cons]
      omega
  obtain ⟨length,values⟩ := parsed digest.bytes
  simp only [parse_hex,hex,as_bytes_ofList,except_bind_eq_ok,except_refuse_eq_ok]
  refine ⟨⟨⟩,by rw [length,digest.sized]; decide,digest.bytes,values,?_⟩
  rw [dif_pos digest.sized]
  rfl

theorem hex_injective : Function.Injective hex := fun a b same => by
  have read := parse_hex_hex a
  rw [same,parse_hex_hex] at read
  exact (Except.ok.inj read).symm

/-- The digests the origin takes. The values it encodes have no maps and no floats, so their JSON always exists; that of
    a whole state may not. -/
structure Hashing where
  sha256 : List UInt8 → Digest
  command_json : Command → List UInt8
  request_json : SimulationCommandRequest → List UInt8
  chained_json : Chained → List UInt8
  state_hash : RunState → Option String

namespace Hashing
variable (h : Hashing)

def GENESIS_DOMAIN : String := "bunting.journal.v3.genesis\x00"

/-- The idempotency fingerprint of an input. -/
def fingerprint : Input → Digest
  | .Command command => h.sha256 (h.command_json command)
  | .Request request => h.sha256 (h.request_json request)

def genesis_chain (state : RunState) : Except OriginError Digest := do
  let state_hash ← orElse (h.state_hash state) OriginError.InvalidCommit
  pure (h.sha256 (as_bytes GENESIS_DOMAIN ++ as_bytes state_hash))

def next_chain (previous : Digest) (record : Chained) : Digest := h.sha256 (previous.bytes ++ h.chained_json record)

end Hashing

/-! ### The live run -/

/-- Per-run bounds. -/
structure RunLimits where
  max_commands : Nat := 2097152
  max_events : Nat := 16777216
  checkpoint_interval : Nat := 8192

structure IndexedCommand where
  fingerprint : Digest
  result : CommandResult
  deriving DecidableEq

inductive Execution
  | Duplicate (result : CommandResult)
  | Committed (record : CommandRecord)
  deriving DecidableEq

/-- The writer-owned state of one run: the live state, the last checkpoint, and the inputs committed since. -/
structure LiveRun where
  state : RunState
  chain : Digest
  base : RunState
  base_chain : Digest
  tail : List Input
  index : OrdMap CommandId IndexedCommand
  limits : RunLimits
  poisoned : Bool

def reexecute (inputs : List Input) : EStateM ApplyError RunState PUnit := inputs.forM fun input => discard input.step

namespace LiveRun
variable (h : Hashing)

def genesis (state : RunState) (limits : RunLimits) : Except OriginError LiveRun := do
  let chain ← h.genesis_chain state
  pure { state, chain, base := state, base_chain := chain, tail := [], index := ∅, limits, poisoned := false }

theorem genesis_state {h : Hashing} {state : RunState} {limits : RunLimits} {start : LiveRun}
    (opened : genesis h state limits = .ok start) : start.state = state := by
  simp only [genesis,returned] at opened
  obtain ⟨_,_,rfl⟩ := opened
  rfl

/-- Restores the last committed state; if the history no longer re-executes the run stops serving. -/
def rebuild : EStateM OriginError LiveRun PUnit := fun live =>
  match (reexecute live.tail).run live.base with
  | .ok _ state => .ok ⟨⟩ { live with state }
  | .error _ _ => .error .Unavailable { live with poisoned := true }

/-- The engine's transition, on the live state. -/
def transition (input : Input) : EStateM OriginError LiveRun Applied := fun live =>
  match input.step.run live.state with
  | .ok applied state => .ok applied { live with state }
  | .error (.Unchanged fault) state => .error (.Engine fault.error) { live with state }
  | .error (.Poisoned fault) state =>
    (do rebuild; throw (.Engine fault.error) : EStateM OriginError LiveRun Applied).run { live with state }

/-- Undoes a transition that went past the bound on events. -/
def check_events : EStateM OriginError LiveRun PUnit := do
  let live ← get
  if live.state.event_sequence > live.limits.max_events then
    rebuild
    throw .CapacityExceeded

/-- Records a transition that has been made. -/
def record (input : Input) (admission : Option AdmissionRecord) (applied : Applied) :
    EStateM OriginError LiveRun CommandRecord := do
  let live ← get
  let result : CommandResult := ⟨applied.accepted,applied.reject_code,live.state.sequence,applied.order_id⟩
  let fingerprint := hex (h.fingerprint input)
  let chain := h.next_chain live.chain ⟨input,fingerprint,result,applied.events,admission⟩
  set { live with
    index := live.index.insert input.command_id ⟨h.fingerprint input,result⟩
    tail := live.tail ++ [input]
    chain }
  pure ⟨input,fingerprint,result,applied.events,hex chain,admission⟩

/-- Applies one input in place and returns the record to persist. -/
def execute_admitted (input : Input) (admission : Option AdmissionRecord) : EStateM OriginError LiveRun Execution := do
  let live ← get
  refuse live.poisoned OriginError.Unavailable
  refuse (input.run_id ≠ live.state.run_id) OriginError.UnknownRun
  match live.index.get? input.command_id with
  | some entry =>
    if entry.fingerprint = h.fingerprint input then pure (.Duplicate entry.result) else throw .IdempotencyConflict
  | none =>
    refuse (live.state.sequence ≠ input.expected_sequence) (OriginError.VersionConflict live.state.sequence)
    refuse (live.limits.max_commands ≤ live.index.size) OriginError.CapacityExceeded
    let applied ← transition input
    check_events
    let record ← record h input admission applied
    pure (.Committed record)

/-- Makes the live state the rollback base. -/
def checkpoint : EStateM OriginError LiveRun PUnit := do
  let live ← get
  refuse live.poisoned OriginError.Unavailable
  set { live with base := live.state, base_chain := live.chain, tail := [] }

def checkpoint_state (live : LiveRun) : RunState × String := (live.base,hex live.base_chain)

/-! ### Committing -/

variable {h}

/-- An input was committed: it was new and in sequence, the engine took it, and the record is chained and indexed. -/
structure Commits (h : Hashing) (live : LiveRun) (input : Input) (admission : Option AdmissionRecord) (record : CommandRecord)
    (live' : LiveRun) : Prop where
  serves : live.poisoned = false
  run : input.run_id = live.state.run_id
  new : live.index.get? input.command_id = none
  sequence : live.state.sequence = input.expected_sequence
  room : live.index.size < live.limits.max_commands
  made : ∃ applied state, input.step.run live.state = .ok applied state ∧
    state.event_sequence ≤ live.limits.max_events ∧
    record.result = ⟨applied.accepted,applied.reject_code,state.sequence,applied.order_id⟩ ∧
    record.events = applied.events ∧
    live' = { live with
      state
      index := live.index.insert input.command_id ⟨h.fingerprint input,record.result⟩
      tail := live.tail ++ [input]
      chain := h.next_chain live.chain (.of record) }
  about : record.input = input
  stamped : record.fingerprint = hex (h.fingerprint input)
  admitted : record.admission = admission
  chained : record.chain = hex live'.chain

section Executing
variable {live live' : LiveRun} {input : Input} {admission : Option AdmissionRecord} {applied : Applied}
  {state : RunState} {e : OriginError}

theorem transition_eq_ok : (transition input).run live = .ok applied live' ↔
    ∃ state, input.step.run live.state = .ok applied state ∧ { live with state } = live' := by
  simp only [transition,EStateM.run]
  split
  · next made => simp [made]
  · next made => simp [made]
  · next made =>
    simp only [made,reduceCtorEq,false_and,exists_false,iff_false]
    intro ran
    obtain ⟨_,_,_,ran⟩ := bind_eq_ok.mp ran
    exact throw_eq_ok.mp ran

theorem check_events_eq_ok {x : PUnit} : check_events.run live = .ok x live' ↔
    live.state.event_sequence ≤ live.limits.max_events ∧ live = live' := by
  simp only [check_events,returned]
  split_ifs with past
  · simp only [returned,and_false,exists_false,false_iff,not_and]
    exact fun within => absurd past (not_lt.mpr within)
  · simp only [returned,true_and,iff_and_self]
    exact fun _ => not_lt.mp past

theorem execute_committed {record : CommandRecord} :
    (execute_admitted h input admission).run live = .ok (.Committed record) live' ↔
      Commits h live input admission record live' := by
  simp only [execute_admitted,returned,ne_eq,not_not,Bool.not_eq_true]
  constructor
  · rintro ⟨serves,run,ran⟩
    split at ran
    · split_ifs at ran
      · cases (pure_eq_ok.mp ran).1
      · exact (throw_eq_ok.mp ran).elim
    next new =>
    simp only [LiveRun.record,returned,transition_eq_ok,check_events_eq_ok,not_not,not_le] at ran
    obtain ⟨sequence,room,applied,_,⟨state,made,rfl⟩,within,same,rfl⟩ := ran
    cases same
    exact ⟨serves,run,new,sequence,room,⟨applied,state,made,within,rfl,rfl,rfl⟩,rfl,rfl,rfl,rfl⟩
  · rintro ⟨serves,run,new,sequence,room,⟨applied,state,made,within,result,events,rfl⟩,about,stamped,admitted,chained⟩
    obtain ⟨_,_,_,_,_,_⟩ := record
    simp only [Chained.of] at result events about stamped admitted chained ⊢
    subst result events about stamped admitted chained
    refine ⟨serves,run,?_⟩
    simp only [new,LiveRun.record,returned,transition_eq_ok,check_events_eq_ok,not_not,not_le]
    exact ⟨sequence,room,applied,_,⟨state,made,rfl⟩,within,rfl,rfl⟩

/-- A new input in sequence is committed if the engine takes it within the bounds. -/
theorem commits_of_step (serves : live.poisoned = false)
    (run : input.run_id = live.state.run_id) (new : live.index.get? input.command_id = none)
    (sequence : live.state.sequence = input.expected_sequence) (room : live.index.size < live.limits.max_commands)
    (made : input.step.run live.state = .ok applied state) (within : state.event_sequence ≤ live.limits.max_events) :
    ∃ record live', Commits h live input admission record live' ∧ live'.state = state := by
  let result : CommandResult := ⟨applied.accepted,applied.reject_code,state.sequence,applied.order_id⟩
  let chain := h.next_chain live.chain ⟨input,hex (h.fingerprint input),result,applied.events,admission⟩
  exact ⟨⟨input,hex (h.fingerprint input),result,applied.events,hex chain,admission⟩,_,
    ⟨serves,run,new,sequence,room,⟨applied,state,made,within,rfl,rfl,rfl⟩,rfl,rfl,rfl,rfl⟩,rfl⟩

theorem execute_duplicate {result : CommandResult} :
    (execute_admitted h input admission).run live = .ok (.Duplicate result) live' ↔
      live.poisoned = false ∧ input.run_id = live.state.run_id ∧
        live.index.get? input.command_id = some ⟨h.fingerprint input,result⟩ ∧ live = live' := by
  simp only [execute_admitted,returned,ne_eq,not_not,Bool.not_eq_true]
  refine and_congr_right fun _ => and_congr_right fun _ => ?_
  cases found : live.index.get? input.command_id with
  | none => simp only [returned,reduceCtorEq,false_and,and_false,exists_false]
  | some entry =>
    obtain ⟨fingerprint,kept⟩ := entry
    dsimp only
    split_ifs with same <;> simp [same]

/-! ### What is not committed -/

/-- The live state is the checkpoint with the inputs since applied in order. -/
def Restores (live : LiveRun) : Prop := (reexecute live.tail).run live.base = .ok ⟨⟩ live.state

variable (restores : live.Restores)
include restores

theorem rebuild_eq (state : RunState) :
    rebuild.run { live with state } = .ok ⟨⟩ live := by
  simp only [rebuild,EStateM.run]
  rw [show (reexecute live.tail live.base) = _ from restores]

theorem transition_refused (failed : (transition input).run live = .error e live') : live' = live := by
  simp only [transition,EStateM.run] at failed
  split at failed
  · cases failed
  · next made =>
    obtain rfl := Input.step_unchanged made
    cases failed
    rfl
  · next made =>
    rcases bind_eq_error.mp failed with failed | ⟨_,_,ran,failed⟩
    · rw [rebuild_eq restores] at failed
      cases failed
    · rw [rebuild_eq restores] at ran
      cases ran
      exact (throw_eq_error.mp failed).2.symm

theorem check_events_refused (failed : check_events.run { live with state } = .error e live') : live' = live := by
  simp only [check_events,returned,raised] at failed
  split_ifs at failed
  · rcases bind_eq_error.mp failed with failed | ⟨_,_,ran,failed⟩
    · rw [rebuild_eq restores] at failed
      cases failed
    · rw [rebuild_eq restores] at ran
      cases ran
      exact (throw_eq_error.mp failed).2.symm
  · cases failed

/-- An input that is refused, for whatever reason, leaves the run as it was. -/
theorem execute_refused (failed : (execute_admitted h input admission).run live = .error e live') :
    live' = live := by
  simp only [execute_admitted,returned,raised] at failed
  obtain ⟨_,_,same⟩ | ⟨_,⟨_,_,same⟩ | ⟨_,failed⟩⟩ := failed
  · exact same.symm
  · exact same.symm
  split at failed
  · split_ifs at failed
    · cases failed
    · exact (throw_eq_error.mp failed).2.symm
  · simp only [LiveRun.record,returned,raised,transition_eq_ok] at failed
    obtain ⟨_,_,same⟩ | ⟨_,⟨_,_,same⟩ | ⟨_,failed | ⟨_,_,⟨_,_,rfl⟩,failed⟩⟩⟩ := failed
    · exact same.symm
    · exact same.symm
    · exact transition_refused restores failed
    · exact check_events_refused restores failed

end Executing

/-! ### Any calls -/

inductive Call
  | Execute (input : Input) (admission : Option AdmissionRecord)
  | Checkpoint

/-- The run after a call, and the record it committed. -/
def called (h : Hashing) (live : LiveRun) : Call → LiveRun × List CommandRecord
  | .Execute input admission =>
    match (execute_admitted h input admission).run live with
    | .ok (.Committed record) live' => (live',[record])
    | .ok (.Duplicate _) live' | .error _ live' => (live',[])
  | .Checkpoint =>
    match checkpoint.run live with
    | .ok _ live' | .error _ live' => (live',[])

/-- The run after the calls, and everything committed, oldest first. -/
def serve (h : Hashing) (calls : List Call) (start : LiveRun) : LiveRun × List CommandRecord :=
  calls.foldl (fun served call => ((called h served.1 call).1,served.2 ++ (called h served.1 call).2)) (start,[])

/-- The chain value after records. -/
def chain_through (h : Hashing) (first : Digest) (records : List CommandRecord) : Digest :=
  records.foldl (fun chain record => h.next_chain chain (.of record)) first

theorem chain_through_concat (first : Digest) (records : List CommandRecord) (record : CommandRecord) :
    chain_through h first (records ++ [record]) = h.next_chain (chain_through h first records) (.of record) := by
  simp [chain_through]

theorem reexecute_concat {inputs : List Input} {input : Input} {s t u : RunState} {applied : Applied}
    (before : (reexecute inputs).run s = .ok ⟨⟩ t) (step : input.step.run t = .ok applied u) :
    (reexecute (inputs ++ [input])).run s = .ok ⟨⟩ u := by
  rw [reexecute,List.forM_eq_forM,List.forM_append]
  refine bind_eq_ok.mpr ⟨⟨⟩,t,before,?_⟩
  rw [List.forM_cons]
  exact bind_eq_ok.mpr ⟨⟨⟩,u,bind_eq_ok.mpr ⟨applied,u,step,rfl⟩,rfl⟩

/-- The live run is its journal. -/
structure Journaled (h : Hashing) (start live : LiveRun) (records : List CommandRecord) : Prop where
  serves : live.poisoned = false
  restores : live.Restores
  identity : live.state.identity = start.state.identity
  chain : live.chain = chain_through h start.chain records
  once : (records.map fun record => record.input.command_id).Nodup
  indexed : ∀ id entry, live.index.get? id = some entry ↔
    ∃ record ∈ records, record.input.command_id = id ∧ entry = ⟨h.fingerprint record.input,record.result⟩
  ours : ∀ record ∈ records, record.input.run_id = live.state.run_id

section Journaled
variable {start live live' : LiveRun} {records : List CommandRecord}

theorem Journaled.opened {state : RunState} {limits : RunLimits} (opened : genesis h state limits = .ok start) :
    Journaled h start start [] := by
  simp only [genesis,returned] at opened
  obtain ⟨_,_,rfl⟩ := opened
  exact ⟨rfl,rfl,rfl,rfl,.nil,by simp,by simp⟩

section
variable (journaled : Journaled h start live records)
include journaled

theorem Journaled.commit {input : Input} {admission : Option AdmissionRecord} {record : CommandRecord}
    (commits : Commits h live input admission record live') :
    Journaled h start live' (records ++ [record]) := by
  obtain ⟨applied,state,made,_,_,_,rfl⟩ := commits.made
  obtain rfl := commits.about
  have identity := Input.step_identity made
  have run_id : state.run_id = live.state.run_id := congrArg Prod.fst identity
  have new (other : CommandRecord) (member : other ∈ records) : other.input.command_id ≠ record.input.command_id := by
    intro same
    have found := (journaled.indexed _ _).mpr ⟨other,member,same,rfl⟩
    rw [commits.new] at found
    cases found
  refine ⟨journaled.serves,reexecute_concat journaled.restores made,identity.trans journaled.identity,?_,?_,?_,?_⟩
  · rw [chain_through_concat,← journaled.chain]
  · rw [List.map_append]
    refine List.nodup_append.mpr ⟨journaled.once,by simp,?_⟩
    simpa using new
  · intro id entry
    rw [OrdMap.get?_insert]
    split_ifs with same
    · subst same
      constructor
      · intro found
        exact ⟨record,by simp,rfl,(Option.some.inj found).symm⟩
      · rintro ⟨other,member,same,rfl⟩
        rcases List.mem_append.mp member with member | member
        · exact (new other member same).elim
        · rw [List.mem_singleton.mp member]
    · rw [journaled.indexed]
      constructor
      · rintro ⟨other,member,found⟩
        exact ⟨other,by simp [member],found⟩
      · rintro ⟨other,member,found,rfl⟩
        rcases List.mem_append.mp member with member | member
        · exact ⟨other,member,found,rfl⟩
        · rw [List.mem_singleton.mp member] at found
          exact (same found.symm).elim
  · intro other member
    rw [run_id]
    rcases List.mem_append.mp member with member | member
    · exact journaled.ours other member
    · rw [List.mem_singleton.mp member]
      exact commits.run

/-- A call commits a record, changes nothing, or takes a checkpoint. -/
theorem called_cases (call : Call) :
    (∃ record live', LiveRun.called h live call = (live',[record]) ∧
      Commits h live record.input record.admission record live') ∨
    LiveRun.called h live call = (live,[]) ∨
    LiveRun.called h live call = ({ live with base := live.state, base_chain := live.chain, tail := [] },[]) := by
  cases call with
  | Execute input admission =>
    simp only [LiveRun.called]
    split
    · next record live' ran =>
      have commits := execute_committed.mp ran
      obtain rfl := commits.about
      obtain rfl := commits.admitted
      exact .inl ⟨record,live',rfl,commits⟩
    · next ran =>
      obtain ⟨_,_,_,rfl⟩ := execute_duplicate.mp ran
      exact .inr (.inl rfl)
    · next ran =>
      obtain rfl := execute_refused journaled.restores ran
      exact .inr (.inl rfl)
  | Checkpoint => exact .inr (.inr (by simp [LiveRun.called,checkpoint,EStateM.run_bind,run_refuse,journaled.serves]))

theorem Journaled.called (call : Call) :
    Journaled h start (LiveRun.called h live call).1 (records ++ (LiveRun.called h live call).2) := by
  rcases called_cases journaled call with ⟨record,live',called,commits⟩ | called | called
  · rw [called]
    exact journaled.commit commits
  · rw [called,List.append_nil]
    exact journaled
  · rw [called,List.append_nil]
    exact { journaled with restores := rfl }

end

theorem Journaled.serve (journaled : Journaled h start start []) (calls : List Call) :
    Journaled h start (LiveRun.serve h calls start).1 (LiveRun.serve h calls start).2 := by
  unfold LiveRun.serve
  induction calls using List.reverseRecOn with
  | nil => exact journaled
  | append_singleton calls call ih =>
    rw [List.foldl_append]
    exact ih.called call

/-- After any calls a live run serves, its state is the last checkpoint with the later inputs applied, its chain folds the
    records, and its index has one entry for each. An input it refuses or answers as a duplicate changes nothing, and a
    committed input is answered with its first result for ever. -/
theorem live_run_is_its_journal (h : Hashing) (genesis : RunState) (limits : RunLimits) (start : LiveRun)
    (opened : LiveRun.genesis h genesis limits = .ok start) (calls : List Call) (live : LiveRun)
    (records : List CommandRecord) (served : LiveRun.serve h calls start = (live,records)) :
    live.poisoned = false ∧
    (reexecute live.tail).run live.base = .ok ⟨⟩ live.state ∧
    (∃ first, h.genesis_chain genesis = .ok first ∧ live.chain = chain_through h first records) ∧
    (records.map fun record => record.input.command_id).Nodup ∧
    (∀ id entry, live.index.get? id = some entry ↔
      ∃ record ∈ records, record.input.command_id = id ∧ entry = ⟨h.fingerprint record.input,record.result⟩) ∧
    (∀ input admission, (∀ e live', (execute_admitted h input admission).run live = .error e live' → live' = live) ∧
      ∀ result live', (execute_admitted h input admission).run live = .ok (.Duplicate result) live' → live' = live) ∧
    ∀ record ∈ records, ∀ admission,
      (execute_admitted h record.input admission).run live = .ok (.Duplicate record.result) live := by
  have journaled := (Journaled.opened opened).serve calls
  rw [served] at journaled
  simp only [LiveRun.genesis,returned] at opened
  obtain ⟨first,chained,rfl⟩ := opened
  refine ⟨journaled.serves,journaled.restores,⟨first,chained,journaled.chain⟩,journaled.once,journaled.indexed,?_,?_⟩
  · intro input admission
    exact ⟨fun e live' => execute_refused journaled.restores,fun result live' ran => (execute_duplicate.mp ran).2.2.2.symm⟩
  · intro record member admission
    exact execute_duplicate.mpr ⟨journaled.serves,journaled.ours record member,
      (journaled.indexed _ _).mpr ⟨record,member,rfl,rfl⟩,rfl⟩

/-- Digests that keep the last bytes they are given, over encodings that name only an input's id, time and sequence. -/
def sample_hashing : Hashing where
  sha256 bytes := ⟨(bytes.reverse ++ List.replicate 32 0).take 32,by simp⟩
  command_json command :=
    [UInt8.ofNat command.command_id,UInt8.ofNat command.logical_time,UInt8.ofNat command.expected_sequence]
  request_json request :=
    [UInt8.ofNat request.command_id,UInt8.ofNat request.logical_time,UInt8.ofNat request.expected_sequence]
  chained_json record := [UInt8.ofNat record.input.command_id,UInt8.ofNat record.input.logical_time]
  state_hash _ := some "state"

/-- The small market, as its writer opens it. -/
theorem sample_starts (P : RunState → LiveRun → Prop)
    (opens : ∃ state, RunState.from_scenario sample_codec 1 1 sample = .ok state ∧
      ∃ start, LiveRun.genesis sample_hashing state {} = .ok start ∧ P state start) :
    ∃ state start, Starts sample state ∧ LiveRun.genesis sample_hashing state {} = .ok start ∧ P state start := by
  obtain ⟨state,begins,start,opened,holds⟩ := opens
  exact ⟨state,start,⟨sample_codec,1,1,begins⟩,opened,holds⟩

/-- Two orders with a checkpoint between, the first one sent again, and one that is out of sequence. -/
def sample_calls : List Call :=
  [.Execute (place 0 0 1 1 .Buy 5 (.Limit 10)) none,.Checkpoint,
    .Execute (place 0 0 1 1 .Buy 5 (.Limit 10)) none,
    .Execute (place 1 0 2 2 .Sell 3 (.Limit 10)) none,
    .Execute (place 5 0 3 2 .Sell 3 (.Limit 10)) none]

theorem live_run_is_its_journal_of_two_orders : ∃ genesis start live records,
    LiveRun.genesis sample_hashing genesis {} = .ok start ∧
    LiveRun.serve sample_hashing sample_calls start = (live,records) ∧ records.length = 2 ∧
    ∀ record ∈ records, ∀ admission,
      (execute_admitted sample_hashing record.input admission).run live = .ok (.Duplicate record.result) live := by
  obtain ⟨genesis,start,_,opened,two⟩ := sample_starts
    (fun _ start => (LiveRun.serve sample_hashing sample_calls start).2.length = 2) (by decide +kernel)
  exact ⟨genesis,start,_,_,opened,rfl,two,
    (live_run_is_its_journal sample_hashing genesis {} start opened sample_calls _ _ rfl).2.2.2.2.2.2⟩

end Journaled
end LiveRun
end Origin
end Bunting
