import Bunting.BnpTypes
import Bunting.Cancellation
import Bunting.Recovery

/-!
Identity over the native protocol. The client order ids of a participant and the
command ids of its requests are put into a namespace of the run and the
participant: a resent request has the same command id, and a cancel that was
committed, even as a rejection, uses up its own.
-/

namespace Bunting.Bnp
open Stateful Bytes

inductive BnpMappingError
  | ZeroIdentifier
  | InvalidMarketOrder
  | InvalidDisplayQuantity
  deriving DecidableEq

/-- The number of a namespace; never zero. -/
def identity_namespace (sha256 : List UInt8 → Origin.Digest) (domain : String) (run_id : RunId)
    (participant : ParticipantId) : Nat :=
  max (from_be_bytes ((sha256 (as_bytes "bunting.bnp-namespace.v1\x00" ++ as_bytes domain ++ to_be_bytes 16 run_id ++
    to_be_bytes 16 participant)).bytes.take 8)) 1

def scoped_id (space : Nat) (id : U64) : Except BnpMappingError Nat := do
  refuse (id = 0) BnpMappingError.ZeroIdentifier
  pure ((space <<< 64) ||| id.toNat)

/-- The namespaces of one participant's identities in one run. -/
structure BnpIdentity where
  run_id : RunId
  participant : ParticipantId
  orders : Nat
  new_orders : Nat
  cancels : Nat
  kill_switches : Nat
  kill_switch_resets : Nat

def side : Side → Bunting.Side
  | .Buy => .Buy
  | .Sell => .Sell

def listing_key (listing : Listing) : ListingKey := ⟨listing.venue_id.toNat,listing.instrument_id.toNat⟩

/-- The order type and terms, or why the protocol refuses them. -/
def order_kind (order : NewOrder) : Except BnpMappingError OrderKind := do
  refuse (order.display_quantity.any (fun display => display.toInt ≤ 0 ∨ display.toInt > order.quantity.toInt))
    BnpMappingError.InvalidDisplayQuantity
  match order.order_type with
  | .Market =>
    refuse (¬ (order.time_in_force = .Ioc ∧ order.post_only = false ∧ order.display_quantity = none))
      BnpMappingError.InvalidMarketOrder
    pure .Market
  | .Limit price =>
    let policy (time_in_force : TimeInForcePolicy) : OrderKind :=
      .LimitWithPolicy price.toInt time_in_force order.post_only (order.display_quantity.map BitVec.toInt)
    pure (match order.time_in_force with
      | .Gtc => if order.post_only = false ∧ order.display_quantity = none then .Limit price.toInt else policy .Gtc
      | .Ioc => policy .Ioc
      | .Fok => policy .Fok
      | .Day => policy .Day
      | .Gtd expires_at_ns => policy (.Gtd expires_at_ns.toNat))

namespace BnpIdentity

def new (sha256 : List UInt8 → Origin.Digest) (run_id : RunId) (participant : ParticipantId) : BnpIdentity :=
  let space (domain : String) := identity_namespace sha256 domain run_id participant
  ⟨run_id,participant,space "order",space "new-order",space "cancel",space "kill-switch",space "kill-switch-reset"⟩

variable (identity : BnpIdentity)

/-- The canonical order id of a client order id. -/
def order_id (client_order_id : U64) : Except BnpMappingError OrderId := scoped_id identity.orders client_order_id

/-- Sequence and logical time are stamped when the sequencer releases the command. -/
def command (command_id : CommandId) (correlation_id : CorrelationId) (payload : CommandPayload) : Command :=
  ⟨identity.run_id,command_id,correlation_id,0,0,identity.participant,payload⟩

def new_order (order : NewOrder) (correlation_id : CorrelationId) : Except BnpMappingError Command := do
  let kind ← order_kind order
  let listing_key := listing_key order.listing
  let command_id ← scoped_id identity.new_orders order.client_order_id
  let order_id ← identity.order_id order.client_order_id
  pure (identity.command command_id correlation_id (.SubmitOrderAtListing listing_key ⟨order_id,listing_key.instrument_id,
    identity.participant,side order.side,order.quantity.toInt,kind,order.anonymous⟩))

/-- The command that cancels one of this participant's orders. -/
def cancel (client_order_id : U64) (correlation_id : CorrelationId) : Except BnpMappingError Command := do
  let command_id ← scoped_id identity.cancels client_order_id
  let order_id ← identity.order_id client_order_id
  pure (identity.command command_id correlation_id (.CancelOrder ⟨order_id,identity.participant⟩))

end BnpIdentity

/-- The command as the sequencer releases it. -/
def stamped (command : Command) (expected_sequence logical_time : Nat) : Command :=
  { command with expected_sequence, logical_time }

section Cancelling
open Origin LiveRun

/-- What a live order needs to be canceled under a command id: no command of that id was committed, the run has room for
    another command, it catches up to the time of the cancel with room for one more event, and nothing overflows. -/
structure Cancellable (live : LiveRun) (command : Command) : Prop where
  new : live.index.get? command.command_id = none
  room : live.index.size < live.limits.max_commands
  catches : ∃ caught, (catch_up command.logical_time false).run { run := live.state } = .ok () caught ∧
    live.state.event_sequence + caught.payloads.length + 1 ≤ live.limits.max_events
  fits : ∀ e s, (RunState.apply command).run live.state = .error e s → e.fault.cause ≠ .Overflow

/-- In any history of a run, the cancel of an order that its participant has, live or not, is committed and leaves it
    closed exactly if it is cancellable. -/
theorem cancel_commits_iff (h : Hashing) (scenario : ScenarioDefinition) (genesis : RunState)
    (starts : Starts scenario genesis) (limits : RunLimits) (start : LiveRun)
    (opened : LiveRun.genesis h genesis limits = .ok start) (calls : List LiveRun.Call) (live : LiveRun)
    (records : List CommandRecord) (served : LiveRun.serve h calls start = (live,records)) (identity : BnpIdentity)
    (ours : identity.run_id = live.state.run_id) (client_order_id : U64) (correlation_id : CorrelationId) (command : Command)
    (built : identity.cancel client_order_id correlation_id = .ok command) (order_id : OrderId)
    (named : identity.order_id client_order_id = .ok order_id) (owned : OwnedOrder)
    (found : live.state.ownership.get? order_id = some owned) (mine : owned.participant_id = identity.participant)
    (time : Nat) (in_time : live.state.simulation.clock.now ≤ time)
    (admission : Option AdmissionRecord) :
    (∃ record live', (execute_admitted h (.Command (stamped command live.state.sequence time)) admission).run live =
        .ok (.Committed record) live' ∧
      ∀ after, live'.state.ownership.get? order_id = some after → after.state ≠ .Active) ↔
    Cancellable live (stamped command live.state.sequence time) := by
  have follows := (Follows.opened opened).serve calls
  rw [served] at follows
  rw [← genesis_state opened] at starts
  have sane : Sane live.state := (follows.reachable starts).sane
  simp only [BnpIdentity.cancel,returned] at built
  obtain ⟨command_id,_,_,named',made⟩ := built
  cases named.symm.trans named'
  have run : command.run_id = live.state.run_id := by
    rw [← made]
    exact ours
  have cancels : (stamped command live.state.sequence time).payload = .CancelOrder ⟨order_id,identity.participant⟩ := by
    rw [← made]
    rfl
  constructor
  · rintro ⟨record,live',ran,_⟩
    have commits := execute_committed.mp ran
    obtain ⟨applied,state,made,within,_⟩ := commits.made
    obtain ⟨caught,t,applies⟩ := apply_ok made
    refine ⟨commits.new,commits.room,⟨caught,applies.catches,?_⟩,fun e s failed => ?_⟩
    · rw [← applies.cancel_events cancels]
      exact within
    · cases failed.symm.trans made
  · rintro ⟨new,room,⟨caught,catches,events⟩,fits⟩
    rcases Input.cancel_commits cancels sane ⟨run.symm,rfl⟩ in_time catches with ⟨applied,state,made⟩ | ⟨e,s,failed,large⟩
    · obtain ⟨caught',t,applies⟩ := apply_ok made
      cases catches.symm.trans applies.catches
      have committed : ∃ record live', Commits h live (.Command (stamped command live.state.sequence time)) admission record
          live' ∧ live'.state = state :=
        commits_of_step follows.journaled.serves run new rfl room made (by rw [applies.cancel_events cancels]; exact events)
      obtain ⟨record,live',commits,same⟩ := committed
      refine ⟨record,live',execute_committed.mpr commits,?_⟩
      rw [same]
      exact Input.canceled cancels sane made found mine
    · exact absurd large (fits e s failed)

/-- A digest that keeps the domain of a namespace. -/
def sample_sha256 (bytes : List UInt8) : Digest := ⟨((bytes.drop 25) ++ List.replicate 32 0).take 32,by simp⟩

def sample_identity : BnpIdentity := .new sample_sha256 1 1

/-- A limit buy of client order 7. -/
def sample_order : NewOrder := ⟨7,⟨1,1⟩,.Buy,5,.Limit 10,.Gtc,false,false,none⟩

/-- An order that arrives after its own cancel is live, and its next cancel is refused for the command id of the first. -/
theorem early_cancel_blocks_the_next : ∃ genesis start cancel order order_id live records owned,
    Starts sample genesis ∧ LiveRun.genesis sample_hashing genesis {} = .ok start ∧
    sample_identity.cancel 7 1 = .ok cancel ∧ sample_identity.new_order sample_order 1 = .ok order ∧
    sample_identity.order_id 7 = .ok order_id ∧
    LiveRun.serve sample_hashing [.Execute (.Command (stamped cancel 0 0)) none,.Execute (.Command (stamped order 1 0)) none]
      start = (live,records) ∧
    live.state.ownership.get? order_id = some owned ∧ owned.participant_id = 1 ∧ owned.state = .Active ∧
    ∃ live', (execute_admitted sample_hashing (.Command (stamped cancel live.state.sequence 0)) none).run live =
      .error .IdempotencyConflict live' := by
  obtain ⟨genesis,start,starts,opened,cancel,built,order,built',order_id,named,owned,found,mine,active,refused⟩ :=
    sample_starts (fun _ start => ∃ cancel, sample_identity.cancel 7 1 = .ok cancel ∧
      ∃ order, sample_identity.new_order sample_order 1 = .ok order ∧ ∃ order_id, sample_identity.order_id 7 = .ok order_id ∧
      let live := (LiveRun.serve sample_hashing
        [.Execute (.Command (stamped cancel 0 0)) none,.Execute (.Command (stamped order 1 0)) none] start).1
      ∃ owned, live.state.ownership.get? order_id = some owned ∧ owned.participant_id = 1 ∧ owned.state = .Active ∧
        (match (execute_admitted sample_hashing (.Command (stamped cancel live.state.sequence 0)) none).run live with
          | .error .IdempotencyConflict _ => true
          | _ => false : Bool) = true) (by decide +kernel)
  refine ⟨genesis,start,cancel,order,order_id,_,_,owned,starts,opened,built,built',named,rfl,found,mine,active,?_⟩
  split at refused
  · next live' ran => exact ⟨live',ran⟩
  · cases refused

theorem cancel_commits_after_its_order : ∃ live cancel order_id record live',
    sample_identity.order_id 7 = .ok order_id ∧
    (execute_admitted sample_hashing (.Command (stamped cancel live.state.sequence 0)) none).run live =
      .ok (.Committed record) live' ∧
    ∀ after, live'.state.ownership.get? order_id = some after → after.state ≠ .Active := by
  obtain ⟨genesis,start,starts,opened,cancel,built,order,built',order_id,named,owned,found,holds⟩ :=
    sample_starts (fun _ start => ∃ cancel, sample_identity.cancel 7 1 = .ok cancel ∧
      ∃ order, sample_identity.new_order sample_order 1 = .ok order ∧ ∃ order_id, sample_identity.order_id 7 = .ok order_id ∧
      let live := (LiveRun.serve sample_hashing [.Execute (.Command (stamped order 0 0)) none] start).1
      let cancel := stamped cancel live.state.sequence 0
      ∃ owned, live.state.ownership.get? order_id = some owned ∧ decide (owned.participant_id = 1 ∧ live.state.run_id = 1 ∧
        live.state.simulation.clock.now = 0 ∧ live.index.get? cancel.command_id = none ∧
        live.index.size < live.limits.max_commands ∧
        (∃ x caught, (catch_up cancel.logical_time false).run { run := live.state } = .ok x caught ∧
          live.state.event_sequence + caught.payloads.length + 1 ≤ live.limits.max_events) ∧
        ∃ answer s, (RunState.apply cancel).run live.state = .ok answer s ∧ True) = true) (by decide +kernel)
  obtain ⟨mine,run,now,new,room,⟨_,caught,catches,fits⟩,_,_,applies,_⟩ := of_decide_eq_true holds
  obtain ⟨record,live',ran,closed⟩ := (cancel_commits_iff sample_hashing sample genesis starts {} start opened _ _ _
    rfl sample_identity run.symm 7 1 cancel built order_id named owned found mine 0 now.le none).mpr
      ⟨new,room,⟨caught,catches,fits⟩,fun e s failed => (by cases applies.symm.trans failed)⟩
  exact ⟨_,cancel,order_id,record,live',named,ran,closed⟩

end Cancelling
end Bunting.Bnp
