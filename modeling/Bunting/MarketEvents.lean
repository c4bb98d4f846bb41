import Bunting.MarketTypes

/-! Commands of the run and the durable facts it emits. -/

namespace Bunting

/-- Lifetime of a limit order on the run's logical clock. -/
inductive TimeInForcePolicy
  | Gtc
  | Ioc
  | Fok
  | Gtd (expires_at : Nat)
  | Day
  deriving DecidableEq

inductive OrderKind
  | Limit (price : Int)
  | Market
  | LimitWithPolicy (price : Int) (time_in_force : TimeInForcePolicy) (post_only : Bool)
      (display_quantity : Option Int)
  deriving DecidableEq

structure SubmitOrder where
  order_id : OrderId
  instrument_id : InstrumentId
  participant_id : ParticipantId
  side : Side
  quantity : Int
  kind : OrderKind
  anonymous : Bool
  deriving DecidableEq

structure CancelOrder where
  order_id : OrderId
  participant_id : ParticipantId
  deriving DecidableEq

/-- Deterministic logical-clock execution policy. -/
inductive ClockMode
  | Lockstep
  | Accelerated (max_steps_per_advance : Nat)
  | Paced (step_interval_ns : Nat)
  deriving DecidableEq

inductive NewsAudience
  | Public
  | Participant (id : ParticipantId)
  | Team (id : Nat)
  | Role (name : String)
  deriving DecidableEq

inductive TenderDecision
  | Accept
  | Decline
  deriving DecidableEq

inductive OtcDecision
  | Accept
  | Reject
  | Break
  deriving DecidableEq

inductive CompositePolicy
  | BestEffort
  | MinimumFill
  | AllOrNone
  | AtomicConversion
  deriving DecidableEq

structure CompositeLeg where
  instrument_id : InstrumentId
  side : Side
  quantity : Int
  limit_price : Int
  deriving DecidableEq

/-- Simulation-domain commands sharing the authoritative run sequence. -/
inductive SimulationCommand
  | StartRun
  | PauseRun
  | ResumeRun
  | Advance (steps : Nat)
  | ClockTick
  | SetPacing (mode : ClockMode) (reason : String)
  | Terminate (reason : String)
  | SetListingHalt (instrument_id : InstrumentId) (halted : Bool) (reason : String)
  | MassCancel (participant_id : Option ParticipantId) (instrument_id : Option InstrumentId)
  | PublishNews (news_id : NewsId) (audience : NewsAudience) (headline body : String)
  | OpenTender (tender_id : TenderId) (participant_id : ParticipantId) (instrument_id : InstrumentId) (side : Side)
      (quantity : Int) (price : Int) (expires_at : Nat)
  | DecideTender (tender_id : TenderId) (decision : TenderDecision)
  | OpenOtc (negotiation_id : NegotiationId) (counterparty_id : ParticipantId) (instrument_id : InstrumentId)
      (side : Side) (quantity : Int) (price : Int) (expires_at : Nat)
  | CounterOtc (negotiation_id : NegotiationId) (quantity : Int) (price : Int)
  | DecideOtc (negotiation_id : NegotiationId) (decision : OtcDecision)
  | SubmitComposite (policy : CompositePolicy) (minimum_fill : Int) (legs : List CompositeLeg)
  | ScheduleCashflow (participant_id : ParticipantId) (currency_id : CurrencyId) (amount : Int)
      (effective_at : Nat) (reason : String)
  | ApplyFine (participant_id : ParticipantId) (currency_id : CurrencyId) (amount : Int) (reason : String)
  | ScheduleFacilityJob (facility_id : FacilityId) (participant_id : ParticipantId)
      (input_quantity output_quantity : Int) (completes_at : Nat)
  | ScoreIteration
  deriving DecidableEq

inductive CommandPayload
  | SubmitOrder (order : SubmitOrder)
  | SubmitOrderAtListing (listing_key : ListingKey) (order : SubmitOrder)
  | CancelOrder (cancel : CancelOrder)
  | ActivateKillSwitch
  | ResetKillSwitch
  deriving DecidableEq

/-- Administrator and simulation command envelope. -/
structure SimulationCommandRequest where
  run_id : RunId
  command_id : CommandId
  correlation_id : CorrelationId
  logical_time : Nat
  expected_sequence : Nat
  actor : ParticipantId
  payload : SimulationCommand
  deriving DecidableEq

structure Command where
  run_id : RunId
  command_id : CommandId
  correlation_id : CorrelationId
  logical_time : Nat
  expected_sequence : Nat
  actor : ParticipantId
  payload : CommandPayload
  deriving DecidableEq

inductive RejectCode
  | DuplicateOrderId
  | InvalidOrderId
  | UnknownOrder
  | NotOrderOwner
  | KillSwitchActive
  | RunNotActive
  | ListingHalted
  | ParticipantDisabled
  | InvalidQuantity
  | InvalidInstrument
  | PriceOutOfBounds
  | MaxOrderQuantity
  | MaxOpenOrderQuantity
  | MaxLiveOrders
  | PositionLimit
  | InsufficientCash
  | InsufficientInventory
  | InsufficientLiquidity
  | PostOnlyWouldCross
  | InvalidTimeInForce
  | MarketClosed
  | CallPhaseOrderType
  | LogicalTimeRegression
  | SequenceConflict
  | ArithmeticOverflow
  | PriceNotOnTick
  deriving DecidableEq

/-- The text of a code in a persisted command response. -/
def RejectCode.text : RejectCode → String
  | .DuplicateOrderId => "DuplicateOrderId"
  | .InvalidOrderId => "InvalidOrderId"
  | .UnknownOrder => "UnknownOrder"
  | .NotOrderOwner => "NotOrderOwner"
  | .KillSwitchActive => "KillSwitchActive"
  | .RunNotActive => "RunNotActive"
  | .ListingHalted => "ListingHalted"
  | .ParticipantDisabled => "ParticipantDisabled"
  | .InvalidQuantity => "InvalidQuantity"
  | .InvalidInstrument => "InvalidInstrument"
  | .PriceOutOfBounds => "PriceOutOfBounds"
  | .MaxOrderQuantity => "MaxOrderQuantity"
  | .MaxOpenOrderQuantity => "MaxOpenOrderQuantity"
  | .MaxLiveOrders => "MaxLiveOrders"
  | .PositionLimit => "PositionLimit"
  | .InsufficientCash => "InsufficientCash"
  | .InsufficientInventory => "InsufficientInventory"
  | .InsufficientLiquidity => "InsufficientLiquidity"
  | .PostOnlyWouldCross => "PostOnlyWouldCross"
  | .InvalidTimeInForce => "InvalidTimeInForce"
  | .MarketClosed => "MarketClosed"
  | .CallPhaseOrderType => "CallPhaseOrderType"
  | .LogicalTimeRegression => "LogicalTimeRegression"
  | .SequenceConflict => "SequenceConflict"
  | .ArithmeticOverflow => "ArithmeticOverflow"
  | .PriceNotOnTick => "PriceNotOnTick"

inductive CancelReason
  | Requested
  | KillSwitch
  | MarketRemainder
  | MassCancel
  | Expired
  | Halt
  deriving DecidableEq

/-- A venue's trading-session phase. -/
inductive SessionPhase
  | Closed
  | PreOpen
  | Continuous
  | ClosingCall
  deriving DecidableEq

/-- Deterministic run lifecycle. -/
inductive RunLifecycle
  | Stopped
  | Active
  | Paused
  | Terminated
  deriving DecidableEq

/-- Lifecycle of a targeted tender. -/
inductive TenderStatus
  | «open»
  | accepted
  | declined
  | expired
  deriving DecidableEq

/-- Lifecycle of a bilateral negotiation. -/
inductive OtcStatus
  | proposed
  | countered
  | accepted
  | rejected
  | broken
  | expired
  deriving DecidableEq

structure InstrumentMark where
  instrument_id : InstrumentId
  price : Int
  deriving DecidableEq

structure DayScore where
  participant_id : ParticipantId
  net_liquidation_value : Int
  rank : Nat
  deriving DecidableEq

structure ClosingPrice where
  listing_key : ListingKey
  price : Int
  deriving DecidableEq

/-- Durable simulation facts applied during replay. -/
inductive SimulationEvent
  | LifecycleChanged (status : RunLifecycle)
  | ClockAdvanced (before after : Nat)
  | PacingChanged (mode : ClockMode) (reason : String)
  | AdministratorChangeRecorded (reason : String)
  | ListingHaltChanged (instrument_id : InstrumentId) (halted : Bool)
  | MassCancelCompleted (canceled_orders : List OrderId)
  | NewsPublished (news_id : NewsId) (audience : NewsAudience)
  | TenderChanged (tender_id : TenderId) (status : TenderStatus)
  | TenderSettled (tender_id : TenderId) (participant_id : ParticipantId) (instrument_id : InstrumentId) (side : Side)
      (quantity : Int) (price : Int)
  | OtcSettled (negotiation_id : NegotiationId) (buyer_id seller_id : ParticipantId) (instrument_id : InstrumentId)
      (quantity : Int) (price : Int)
  | OtcChanged (negotiation_id : NegotiationId) (status : OtcStatus)
  | CompositeCompleted (policy : CompositePolicy) (accepted_legs : Nat)
  | CashflowScheduled (participant_id : ParticipantId) (currency_id : CurrencyId) (amount : Int)
  | FineApplied (participant_id : ParticipantId) (currency_id : CurrencyId) (amount : Int)
      (policy_version : Nat)
  | FacilityJobScheduled (facility_id : FacilityId) (participant_id : ParticipantId)
  | ScheduledActionApplied (action_id : Nat)
  | IterationScored (participant_count : Nat)
  | SessionPhaseChanged (venue_id : VenueId) (day : Nat) (phase : SessionPhase)
  | AuctionUncrossed (listing_key : ListingKey) (price : Int) (quantity : Int)
  | DayClosed (venue_id : VenueId) (day : Nat) (closes : List ClosingPrice)
  | DaySettled (day : Nat) (marks : List InstrumentMark) (scores : List DayScore)
  deriving DecidableEq

inductive EventPayload
  | OrderReceived (order : SubmitOrder) (listing_key : Option ListingKey)
  | OrderAccepted (order_id : OrderId)
  | OrderRejected (order_id : Option OrderId) (code : RejectCode)
  | OrderRested (order_id : OrderId) (participant_id : ParticipantId) (instrument_id : InstrumentId)
      (listing_key : Option ListingKey) (side : Side) (price : Int) (remaining : Int)
  | OrderReduced (order_id : OrderId) (remaining : Int)
  | OrderCompleted (order_id : OrderId)
  | OrderCanceled (order_id : OrderId) (participant_id : ParticipantId) (instrument_id : InstrumentId)
      (listing_key : Option ListingKey) (remaining : Int) (reason : CancelReason)
  | TradeExecuted (instrument_id : InstrumentId) (listing_key : Option ListingKey)
      (maker_order_id taker_order_id : OrderId) (buyer_id seller_id : ParticipantId) (price : Int)
      (quantity : Int) (buyer_fee seller_fee : Int)
  | PositionChanged (participant_id : ParticipantId) (instrument_id : InstrumentId) (delta : Int)
  | BalanceChanged (participant_id : ParticipantId) (delta : Int)
  | KillSwitchActivated
  | KillSwitchReset
  | Simulation (event : SimulationEvent)
  deriving DecidableEq

def EVENT_SCHEMA_VERSION : Nat := 1

structure EventEnvelope where
  schema_version : Nat
  run_id : RunId
  event_id : EventId
  sequence : Nat
  logical_time : Nat
  actor : ParticipantId
  command_id : CommandId
  correlation_id : CorrelationId
  causation_sequence : Option Nat
  payload : EventPayload
  deriving DecidableEq

end Bunting
