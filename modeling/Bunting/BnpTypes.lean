import Bunting.Codecs

/-!
The Bunting Native Protocol: its messages, the bytes that name them and the
values each enumeration has on the wire.
-/

namespace Bunting.Bnp
open Stateful Codecs

/-! ### Numbers -/

/-- Machine integers, by their bits; the signed ones in two's complement. -/
abbrev U16 := BitVec 16
abbrev U32 := BitVec 32
abbrev U64 := BitVec 64
abbrev U128 := BitVec 128
abbrev I64 := BitVec 64
abbrev I128 := BitVec 128

def MAGIC : List UInt8 := [0x42,0x4e,0x50,0x31]
def LENGTH_BYTES : Nat := 4
def MAX_FRAME_BYTES : Nat := 65536
def MAX_STRING_BYTES : Nat := 1024
def MAX_GROUP_ENTRIES : Nat := 4096

inductive WireError
  | FrameTooLarge (limit actual : Nat)
  | EmptyFrame
  | Truncated
  | TrailingBytes
  | UnknownMessageType (kind : UInt8)
  | WrongDirection (kind : UInt8)
  | InvalidValue (field : String) (value : Nat)
  | StringTooLong (bytes : Nat)
  | InvalidUtf8
  | GroupTooLarge (entries : Nat)
  | BadMagic
  deriving DecidableEq

/-! ### Message types -/

namespace msg_type

@[match_pattern] abbrev HELLO : UInt8 := 0x01
@[match_pattern] abbrev CLIENT_HEARTBEAT : UInt8 := 0x02
@[match_pattern] abbrev PROBE_REPLY : UInt8 := 0x03
@[match_pattern] abbrev PING : UInt8 := 0x04
@[match_pattern] abbrev CLIENT_LOGOUT : UInt8 := 0x05
@[match_pattern] abbrev ENROLL : UInt8 := 0x06
@[match_pattern] abbrev NEW_ORDER : UInt8 := 0x10
@[match_pattern] abbrev CANCEL_ORDER : UInt8 := 0x11
@[match_pattern] abbrev KILL_SWITCH : UInt8 := 0x12
@[match_pattern] abbrev KILL_SWITCH_RESET : UInt8 := 0x13
@[match_pattern] abbrev TENDER_DECISION : UInt8 := 0x18
@[match_pattern] abbrev OTC_PROPOSE : UInt8 := 0x19
@[match_pattern] abbrev OTC_COUNTER : UInt8 := 0x1a
@[match_pattern] abbrev OTC_DECISION : UInt8 := 0x1b
@[match_pattern] abbrev SUBSCRIBE : UInt8 := 0x20
@[match_pattern] abbrev UNSUBSCRIBE : UInt8 := 0x21
@[match_pattern] abbrev SNAPSHOT_REQUEST : UInt8 := 0x22
@[match_pattern] abbrev LISTINGS_REQUEST : UInt8 := 0x30
@[match_pattern] abbrev OPEN_ORDERS_REQUEST : UInt8 := 0x31
@[match_pattern] abbrev ACCOUNT_REQUEST : UInt8 := 0x32
@[match_pattern] abbrev DEALS_REQUEST : UInt8 := 0x33
@[match_pattern] abbrev REFERENCE_DATA_REQUEST : UInt8 := 0x34
@[match_pattern] abbrev OPERATOR_COMMAND : UInt8 := 0x38
@[match_pattern] abbrev WELCOME : UInt8 := 0x41
@[match_pattern] abbrev ENROLLED : UInt8 := 0x4e
@[match_pattern] abbrev SERVER_HEARTBEAT : UInt8 := 0x42
@[match_pattern] abbrev PROBE : UInt8 := 0x43
@[match_pattern] abbrev PONG : UInt8 := 0x44
@[match_pattern] abbrev REJECT : UInt8 := 0x45
@[match_pattern] abbrev REPLAY_COMPLETE : UInt8 := 0x46
@[match_pattern] abbrev SERVER_LOGOUT : UInt8 := 0x47
@[match_pattern] abbrev ACCESS_DELAY : UInt8 := 0x48
@[match_pattern] abbrev OPERATOR_DONE : UInt8 := 0x49
@[match_pattern] abbrev DEAL_DONE : UInt8 := 0x4a
@[match_pattern] abbrev ORDER_ACCEPTED : UInt8 := 0x50
@[match_pattern] abbrev ORDER_REJECTED : UInt8 := 0x51
@[match_pattern] abbrev ORDER_RESTED : UInt8 := 0x52
@[match_pattern] abbrev FILL : UInt8 := 0x53
@[match_pattern] abbrev ORDER_DONE : UInt8 := 0x54
@[match_pattern] abbrev ORDER_CANCELED : UInt8 := 0x55
@[match_pattern] abbrev CANCEL_REJECTED : UInt8 := 0x56
@[match_pattern] abbrev POSITION_CHANGED : UInt8 := 0x57
@[match_pattern] abbrev BALANCE_CHANGED : UInt8 := 0x58
@[match_pattern] abbrev KILL_SWITCH_ACTIVATED : UInt8 := 0x59
@[match_pattern] abbrev ORDER_REDUCED : UInt8 := 0x5a
@[match_pattern] abbrev KILL_SWITCH_RESET_DONE : UInt8 := 0x5b
@[match_pattern] abbrev RUN_STATUS : UInt8 := 0x5c
@[match_pattern] abbrev LISTING_HALT : UInt8 := 0x5d
@[match_pattern] abbrev NEWS : UInt8 := 0x5e
@[match_pattern] abbrev MARKET_SNAPSHOT : UInt8 := 0x60
@[match_pattern] abbrev MARKET_UPDATE : UInt8 := 0x61
@[match_pattern] abbrev ORDER_SNAPSHOT : UInt8 := 0x62
@[match_pattern] abbrev ORDER_UPDATE : UInt8 := 0x63
@[match_pattern] abbrev TAPE_SNAPSHOT : UInt8 := 0x64
@[match_pattern] abbrev TAPE_UPDATE : UInt8 := 0x65
@[match_pattern] abbrev LISTINGS : UInt8 := 0x70
@[match_pattern] abbrev OPEN_ORDERS : UInt8 := 0x71
@[match_pattern] abbrev ACCOUNT : UInt8 := 0x72
@[match_pattern] abbrev DEALS : UInt8 := 0x73
@[match_pattern] abbrev TENDER : UInt8 := 0x74
@[match_pattern] abbrev NEGOTIATION : UInt8 := 0x75
@[match_pattern] abbrev REFERENCE_DATA : UInt8 := 0x76

end msg_type

/-! ### Enumerations -/

/-- A one-byte enumeration: its name, its values and their bytes, which tell them apart. -/
class WireEnum (α : Type) where
  name : String
  ALL : List α
  to_wire : α → UInt8
  distinct : ∀ x, ALL.find? (fun y => to_wire y == to_wire x) = some x

export WireEnum (to_wire)

/-- The value a byte stands for. -/
def from_wire {α : Type} [enumeration : WireEnum α] (value : UInt8) : Except WireError α :=
  orElse (enumeration.ALL.find? (fun y => to_wire y == value)) (WireError.InvalidValue enumeration.name value.toNat)

theorem from_to_wire {α : Type} [enumeration : WireEnum α] (x : α) : from_wire (to_wire x) = .ok x := by
  rw [from_wire,enumeration.distinct x]
  rfl

inductive Side
  | Buy | Sell
  deriving DecidableEq

instance : WireEnum Side where
  name := "Side"
  ALL := [.Buy,.Sell]
  to_wire | .Buy => 1 | .Sell => 2
  distinct x := by cases x <;> rfl

inductive Role
  | Participant | Team | Instructor | Administrator | BuiltInAgent
  deriving DecidableEq

instance : WireEnum Role where
  name := "Role"
  ALL := [.Participant,.Team,.Instructor,.Administrator,.BuiltInAgent]
  to_wire | .Participant => 1 | .Team => 2 | .Instructor => 3 | .Administrator => 4 | .BuiltInAgent => 5
  distinct x := by cases x <;> rfl

inductive ResumeStatus
  | Live | Replaying | Gap
  deriving DecidableEq

instance : WireEnum ResumeStatus where
  name := "ResumeStatus"
  ALL := [.Live,.Replaying,.Gap]
  to_wire | .Live => 0 | .Replaying => 1 | .Gap => 2
  distinct x := by cases x <;> rfl

inductive Liquidity
  | Maker | Taker
  deriving DecidableEq

instance : WireEnum Liquidity where
  name := "Liquidity"
  ALL := [.Maker,.Taker]
  to_wire | .Maker => 1 | .Taker => 2
  distinct x := by cases x <;> rfl

inductive EntryKind
  | Trade | Bid | Ask
  deriving DecidableEq

instance : WireEnum EntryKind where
  name := "EntryKind"
  ALL := [.Trade,.Bid,.Ask]
  to_wire | .Trade => 0 | .Bid => 1 | .Ask => 2
  distinct x := by cases x <;> rfl

inductive OrderAction
  | Add | Change | Delete
  deriving DecidableEq

instance : WireEnum OrderAction where
  name := "OrderAction"
  ALL := [.Add,.Change,.Delete]
  to_wire | .Add => 1 | .Change => 2 | .Delete => 3
  distinct x := by cases x <;> rfl

inductive DelaySource
  | None | Kernel | Probe | Both
  deriving DecidableEq

instance : WireEnum DelaySource where
  name := "DelaySource"
  ALL := [.None,.Kernel,.Probe,.Both]
  to_wire | .None => 0 | .Kernel => 1 | .Probe => 2 | .Both => 3
  distinct x := by cases x <;> rfl

inductive RejectReason
  | DuplicateOrderId | InvalidOrderId | UnknownOrder | NotOrderOwner | KillSwitchActive | RunNotActive
  | ListingHalted | ParticipantDisabled | InvalidQuantity | InvalidInstrument | PriceOutOfBounds
  | MaxOrderQuantity | MaxOpenOrderQuantity | MaxLiveOrders | PositionLimit | InsufficientCash
  | InsufficientInventory | InsufficientLiquidity | PostOnlyWouldCross | InvalidTimeInForce
  | LogicalTimeRegression | SequenceConflict | ArithmeticOverflow | UnknownListing | MarketClosed
  | CallPhaseOrderType | PriceNotOnTick
  deriving DecidableEq

instance : WireEnum RejectReason where
  name := "RejectReason"
  ALL := [.DuplicateOrderId,.InvalidOrderId,.UnknownOrder,.NotOrderOwner,.KillSwitchActive,.RunNotActive,
    .ListingHalted,.ParticipantDisabled,.InvalidQuantity,.InvalidInstrument,.PriceOutOfBounds,.MaxOrderQuantity,
    .MaxOpenOrderQuantity,.MaxLiveOrders,.PositionLimit,.InsufficientCash,.InsufficientInventory,
    .InsufficientLiquidity,.PostOnlyWouldCross,.InvalidTimeInForce,.LogicalTimeRegression,.SequenceConflict,
    .ArithmeticOverflow,.UnknownListing,.MarketClosed,.CallPhaseOrderType,.PriceNotOnTick]
  to_wire
    | .DuplicateOrderId => 1 | .InvalidOrderId => 2 | .UnknownOrder => 3 | .NotOrderOwner => 4
    | .KillSwitchActive => 5 | .RunNotActive => 6 | .ListingHalted => 7 | .ParticipantDisabled => 8
    | .InvalidQuantity => 9 | .InvalidInstrument => 10 | .PriceOutOfBounds => 11 | .MaxOrderQuantity => 12
    | .MaxOpenOrderQuantity => 13 | .MaxLiveOrders => 14 | .PositionLimit => 15 | .InsufficientCash => 16
    | .InsufficientInventory => 17 | .InsufficientLiquidity => 18 | .PostOnlyWouldCross => 19
    | .InvalidTimeInForce => 20 | .LogicalTimeRegression => 21 | .SequenceConflict => 22
    | .ArithmeticOverflow => 23 | .UnknownListing => 24 | .MarketClosed => 25 | .CallPhaseOrderType => 26
    | .PriceNotOnTick => 27
  distinct x := by cases x <;> rfl

inductive InstrumentKind
  | Equity | Currency | Bond | Option | Future | Commodity | Synthetic
  deriving DecidableEq

instance : WireEnum InstrumentKind where
  name := "InstrumentKind"
  ALL := [.Equity,.Currency,.Bond,.Option,.Future,.Commodity,.Synthetic]
  to_wire
    | .Equity => 1 | .Currency => 2 | .Bond => 3 | .Option => 4 | .Future => 5 | .Commodity => 6
    | .Synthetic => 7
  distinct x := by cases x <;> rfl

inductive CancelReason
  | Requested | KillSwitch | MarketRemainder | MassCancel | Expired | Halt
  deriving DecidableEq

instance : WireEnum CancelReason where
  name := "CancelReason"
  ALL := [.Requested,.KillSwitch,.MarketRemainder,.MassCancel,.Expired,.Halt]
  to_wire
    | .Requested => 1 | .KillSwitch => 2 | .MarketRemainder => 3 | .MassCancel => 4 | .Expired => 5 | .Halt => 6
  distinct x := by cases x <;> rfl

inductive TenderStatus
  | Open | Accepted | Declined | Expired
  deriving DecidableEq

instance : WireEnum TenderStatus where
  name := "TenderStatus"
  ALL := [.Open,.Accepted,.Declined,.Expired]
  to_wire | .Open => 1 | .Accepted => 2 | .Declined => 3 | .Expired => 4
  distinct x := by cases x <;> rfl

inductive NegotiationStatus
  | Proposed | Countered | Accepted | Rejected | Broken | Expired
  deriving DecidableEq

instance : WireEnum NegotiationStatus where
  name := "NegotiationStatus"
  ALL := [.Proposed,.Countered,.Accepted,.Rejected,.Broken,.Expired]
  to_wire | .Proposed => 1 | .Countered => 2 | .Accepted => 3 | .Rejected => 4 | .Broken => 5 | .Expired => 6
  distinct x := by cases x <;> rfl

inductive OtcDecision
  | Accept | Reject | Break
  deriving DecidableEq

instance : WireEnum OtcDecision where
  name := "OtcDecision"
  ALL := [.Accept,.Reject,.Break]
  to_wire | .Accept => 1 | .Reject => 2 | .Break => 3
  distinct x := by cases x <;> rfl

/-! ### Records -/

structure Listing where
  venue_id : U128
  instrument_id : U128
  deriving DecidableEq

/-- Which public entries a feed carries; only the four known bits. -/
structure FeedFlags where
  bits : UInt8
  known : bits &&& ~~~15 = 0
  deriving DecidableEq

def FeedFlags.from_wire (value : UInt8) : Except WireError FeedFlags :=
  if known : value &&& ~~~15 = 0 then pure ⟨value,known⟩ else throw (.InvalidValue "FeedFlags" value.toNat)

def FeedFlags.to_wire (flags : FeedFlags) : UInt8 := flags.bits

inductive NewsAudience
  | Public
  | Participant (id : U128)
  | Team (id : U128)
  | Role (role : String)
  deriving DecidableEq

inductive OperatorAction
  | Start
  | Pause
  | Resume
  | Advance (steps : U32)
  | Terminate (reason : String)
  | Halt (instrument_id : U128) (halted : Bool) (reason : String)
  | MassCancel (participant_id instrument_id : Option U128)
  | PublishNews (news_id : U128) (audience : NewsAudience) (headline body : String)
  | Score
  | Fine (participant_id currency_id : U128) (amount : I128) (reason : String)
  | OpenTender (tender_id participant_id instrument_id : U128) (side : Side) (quantity price : I64)
    (expires_at_ns : U64)
  deriving DecidableEq

def OperatorAction.code : OperatorAction → UInt8
  | .Start => 1
  | .Pause => 2
  | .Resume => 3
  | .Advance .. => 4
  | .Terminate .. => 5
  | .Halt .. => 6
  | .MassCancel .. => 7
  | .PublishNews .. => 8
  | .Score => 9
  | .Fine .. => 10
  | .OpenTender .. => 11

structure TenderInfo where
  tender_id : U128
  participant_id : U128
  instrument_id : U128
  side : Side
  quantity : I64
  price : I64
  expires_at_ns : U64
  status : TenderStatus
  deriving DecidableEq

structure NegotiationInfo where
  negotiation_id : U128
  proposer_id : U128
  counterparty_id : U128
  instrument_id : U128
  side : Side
  quantity : I64
  price : I64
  expires_at_ns : U64
  status : NegotiationStatus
  awaiting : U128
  deriving DecidableEq

inductive TimeInForce
  | Gtc
  | Ioc
  | Fok
  | Day
  | Gtd (expires_at_ns : U64)
  deriving DecidableEq

inductive OrderType
  | Limit (price : I64)
  | Market
  deriving DecidableEq

structure NewOrder where
  client_order_id : U64
  listing : Listing
  side : Side
  quantity : I64
  order_type : OrderType
  time_in_force : TimeInForce
  post_only : Bool
  anonymous : Bool
  display_quantity : Option I64
  deriving DecidableEq

structure Welcome where
  version : U16
  run_id : U128
  participant_id : U128
  role : Role
  heartbeat_ms : U32
  max_frame_bytes : U32
  resume : ResumeStatus
  run_sequence : U64
  deriving DecidableEq

structure Stamp where
  sequence : U64
  logical_time_ns : U64
  deriving DecidableEq

structure Level where
  price : I64
  quantity : I64
  deriving DecidableEq

structure Entry where
  kind : EntryKind
  price : I64
  quantity : I64
  deriving DecidableEq

structure BookOrder where
  side : Side
  reference : U64
  price : I64
  quantity : I64
  broker : Option U128
  queue_position : U32
  deriving DecidableEq

inductive OrderEntry
  | Trade (price quantity : I64) (resting_reference : Option U64) (buyer seller : Option U128)
  | Order (action : OrderAction) (side : Side) (reference : U64) (price quantity : I64) (broker : Option U128)
  deriving DecidableEq

structure TapeQuote where
  venue_id : U128
  side : Side
  price : I64
  quantity : I64
  deriving DecidableEq

structure TapeEntry where
  venue_id : U128
  kind : EntryKind
  price : I64
  quantity : I64
  deriving DecidableEq

structure ListingInfo where
  listing : Listing
  symbol : String
  deriving DecidableEq

structure CurrencyInfo where
  currency_id : U128
  code : String
  name : String
  minor_decimals : UInt8
  deriving DecidableEq

structure InstrumentInfo where
  instrument_id : U128
  symbol : String
  kind : InstrumentKind
  underlying : Option U128
  strike : Option I64
  expiry_ns : Option U64
  is_call : Bool
  physical_delivery : Bool
  coupon_bps : U32
  components : List (U128 × I64)
  multiplier : I64
  currency_id : U128
  quoted_decimals : UInt8
  shortable : Bool
  tradeable : Bool
  window_start_ns : Option U64
  window_stop_ns : Option U64
  display_unit : String
  description : String
  opening_mark : Option I64
  max_order_quantity : Option I64
  deriving DecidableEq

structure ListingReference where
  listing : Listing
  symbol : String
  min_price : I64
  max_price : I64
  tick_size : I64
  taker_fee_per_lot : I128
  maker_fee_per_lot : I128
  broker_ids : Bool
  primary : Bool
  halted : Bool
  in_window : Bool
  deriving DecidableEq

structure OpenOrder where
  client_order_id : U64
  order_id : U128
  listing : Listing
  side : Side
  price : I64
  original_quantity : I64
  remaining_quantity : I64
  deriving DecidableEq

structure CashBalance where
  currency_id : U128
  balance : I128
  reserved : I128
  deriving DecidableEq

structure Position where
  instrument_id : U128
  position : I64
  open_buy : I64
  open_sell : I64
  deriving DecidableEq

/-! ### Messages -/

inductive ClientMessage
  | Hello (version : U16) (resume_after : Option U64) (client_name : String)
  | Heartbeat
  | ProbeReply (probe_id : U64)
  | Ping (nonce : U64)
  | Logout (reason : String)
  | NewOrder (order : NewOrder)
  | CancelOrder (client_order_id : U64)
  | KillSwitch (request_id : U64)
  | KillSwitchReset (request_id : U64)
  | Subscribe (request_id : U32) (listing : Listing) (flags : FeedFlags)
  | Unsubscribe (request_id : U32)
  | SnapshotRequest (request_id : U32) (listing : Listing) (depth : U16)
  | ListingsRequest (request_id : U32)
  | OpenOrdersRequest (request_id : U32)
  | AccountRequest (request_id : U32)
  | OperatorCommand (request_id : U64) (action : OperatorAction)
  | TenderDecision (request_id : U64) (tender_id : U128) (accept : Bool)
  | OtcPropose (request_id negotiation_id : U64) (counterparty_id instrument_id : U128) (side : Side)
    (quantity price : I64) (expires_at_ns : U64)
  | OtcCounter (request_id : U64) (negotiation_id : U128) (quantity price : I64)
  | OtcDecision (request_id : U64) (negotiation_id : U128) (decision : OtcDecision)
  | DealsRequest (request_id : U32)
  | ReferenceDataRequest (request_id : U32) (after_instrument : Option U128) (limit : U16)
  | Enroll (secret csr_pem : String)
  deriving DecidableEq

def ClientMessage.msg_type : ClientMessage → UInt8
  | .Hello .. => msg_type.HELLO
  | .Heartbeat => msg_type.CLIENT_HEARTBEAT
  | .ProbeReply .. => msg_type.PROBE_REPLY
  | .Ping .. => msg_type.PING
  | .Logout .. => msg_type.CLIENT_LOGOUT
  | .NewOrder .. => msg_type.NEW_ORDER
  | .CancelOrder .. => msg_type.CANCEL_ORDER
  | .KillSwitch .. => msg_type.KILL_SWITCH
  | .KillSwitchReset .. => msg_type.KILL_SWITCH_RESET
  | .Subscribe .. => msg_type.SUBSCRIBE
  | .Unsubscribe .. => msg_type.UNSUBSCRIBE
  | .SnapshotRequest .. => msg_type.SNAPSHOT_REQUEST
  | .ListingsRequest .. => msg_type.LISTINGS_REQUEST
  | .OpenOrdersRequest .. => msg_type.OPEN_ORDERS_REQUEST
  | .AccountRequest .. => msg_type.ACCOUNT_REQUEST
  | .OperatorCommand .. => msg_type.OPERATOR_COMMAND
  | .TenderDecision .. => msg_type.TENDER_DECISION
  | .OtcPropose .. => msg_type.OTC_PROPOSE
  | .OtcCounter .. => msg_type.OTC_COUNTER
  | .OtcDecision .. => msg_type.OTC_DECISION
  | .DealsRequest .. => msg_type.DEALS_REQUEST
  | .ReferenceDataRequest .. => msg_type.REFERENCE_DATA_REQUEST
  | .Enroll .. => msg_type.ENROLL

inductive ServerMessage
  | Welcome (welcome : Welcome)
  | Heartbeat
  | Probe (probe_id : U64)
  | Pong (nonce server_time_us : U64)
  | Reject (request_type : UInt8) (reference : U64) (reason : String)
  | ReplayComplete (through_sequence : U64)
  | Logout (reason : String)
  | AccessDelay (source : DelaySource) (min_rtt_us one_way_us : Option U64) (probe_samples : U64)
  | OperatorDone (request_id run_sequence : U64)
  | DealDone (request_id run_sequence : U64)
  | Tender (stamp : Stamp) (tender : TenderInfo)
  | Negotiation (stamp : Stamp) (negotiation : NegotiationInfo)
  | RunStatus (stamp : Stamp) (status : String)
  | ListingHalt (stamp : Stamp) (instrument_id : U128) (halted : Bool)
  | News (stamp : Stamp) (news_id : U128) (headline body : String)
  | OrderAccepted (stamp : Stamp) (client_order_id : U64) (order_id : U128) (listing : Listing) (side : Side)
    (quantity : I64) (price : Option I64)
  | OrderRejected (stamp : Stamp) (client_order_id : U64) (reason : RejectReason)
  | OrderRested (stamp : Stamp) (client_order_id : U64) (order_id : U128) (price remaining : I64)
    (reference : Option U64)
  | OrderReduced (stamp : Stamp) (client_order_id : U64) (order_id : U128) (remaining : I64) (reference : Option U64)
  | Fill (stamp : Stamp) (client_order_id : U64) (order_id : U128) (listing : Listing) (side : Side)
    (price quantity : I64) (fee : I128) (liquidity : Liquidity)
  | OrderDone (stamp : Stamp) (client_order_id : U64) (order_id : U128)
  | OrderCanceled (stamp : Stamp) (client_order_id : U64) (order_id : U128) (remaining : I64) (reason : CancelReason)
  | CancelRejected (stamp : Stamp) (client_order_id : U64) (reason : RejectReason)
  | PositionChanged (stamp : Stamp) (instrument_id : U128) (delta : I64)
  | BalanceChanged (stamp : Stamp) (delta : I128)
  | KillSwitchActivated (stamp : Stamp)
  | KillSwitchReset (stamp : Stamp)
  | MarketSnapshot (request_id : U32) (listing : Listing) (next_report : U64) (bids asks : List Level)
  | MarketUpdate (request_id : U32) (listing : Listing) (first_report : U64) (entries : List Entry)
  | OrderSnapshot (request_id : U32) (listing : Listing) (next_report : U64) (complete : Bool)
    (orders : List BookOrder)
  | OrderUpdate (request_id : U32) (listing : Listing) (first_report : U64) (entries : List OrderEntry)
  | TapeSnapshot (request_id : U32) (instrument_id : U128) (last_report : U64) (quotes : List TapeQuote)
  | TapeUpdate (request_id : U32) (instrument_id : U128) (first_report : U64) (entries : List TapeEntry)
  | Listings (request_id : U32) (listings : List ListingInfo)
  | OpenOrders (request_id : U32) (run_sequence : U64) (orders : List OpenOrder)
  | Account (request_id : U32) (run_sequence : U64) (cash : List CashBalance) (positions : List Position)
  | Deals (request_id : U32) (run_sequence : U64) (tenders : List TenderInfo) (negotiations : List NegotiationInfo)
  | ReferenceData (request_id : U32) (run_sequence : U64) (next_after : Option U128) (currencies : List CurrencyInfo)
    (instruments : List InstrumentInfo) (listings : List ListingReference)
  | Enrolled (participant_id : U128) (certificate_pem ca_pem : String)
  deriving DecidableEq

def ServerMessage.msg_type : ServerMessage → UInt8
  | .Welcome .. => msg_type.WELCOME
  | .Heartbeat => msg_type.SERVER_HEARTBEAT
  | .Probe .. => msg_type.PROBE
  | .Pong .. => msg_type.PONG
  | .Reject .. => msg_type.REJECT
  | .ReplayComplete .. => msg_type.REPLAY_COMPLETE
  | .Logout .. => msg_type.SERVER_LOGOUT
  | .AccessDelay .. => msg_type.ACCESS_DELAY
  | .OperatorDone .. => msg_type.OPERATOR_DONE
  | .DealDone .. => msg_type.DEAL_DONE
  | .Tender .. => msg_type.TENDER
  | .Negotiation .. => msg_type.NEGOTIATION
  | .RunStatus .. => msg_type.RUN_STATUS
  | .ListingHalt .. => msg_type.LISTING_HALT
  | .News .. => msg_type.NEWS
  | .OrderAccepted .. => msg_type.ORDER_ACCEPTED
  | .OrderRejected .. => msg_type.ORDER_REJECTED
  | .OrderRested .. => msg_type.ORDER_RESTED
  | .OrderReduced .. => msg_type.ORDER_REDUCED
  | .Fill .. => msg_type.FILL
  | .OrderDone .. => msg_type.ORDER_DONE
  | .OrderCanceled .. => msg_type.ORDER_CANCELED
  | .CancelRejected .. => msg_type.CANCEL_REJECTED
  | .PositionChanged .. => msg_type.POSITION_CHANGED
  | .BalanceChanged .. => msg_type.BALANCE_CHANGED
  | .KillSwitchActivated .. => msg_type.KILL_SWITCH_ACTIVATED
  | .KillSwitchReset .. => msg_type.KILL_SWITCH_RESET_DONE
  | .MarketSnapshot .. => msg_type.MARKET_SNAPSHOT
  | .MarketUpdate .. => msg_type.MARKET_UPDATE
  | .OrderSnapshot .. => msg_type.ORDER_SNAPSHOT
  | .OrderUpdate .. => msg_type.ORDER_UPDATE
  | .TapeSnapshot .. => msg_type.TAPE_SNAPSHOT
  | .TapeUpdate .. => msg_type.TAPE_UPDATE
  | .Listings .. => msg_type.LISTINGS
  | .OpenOrders .. => msg_type.OPEN_ORDERS
  | .Account .. => msg_type.ACCOUNT
  | .Deals .. => msg_type.DEALS
  | .ReferenceData .. => msg_type.REFERENCE_DATA
  | .Enrolled .. => msg_type.ENROLLED

end Bunting.Bnp
