import Bunting.BnpTypes

/-!
Encoding and decoding of BNP messages, field by field as the codec has them: a
frame is its length, the byte of the message type and the fields of the
message, each in its place.
-/

namespace Bunting.Bnp
open Stateful Codecs Bytes

abbrev Writer := Codecs.Writer WireError
abbrev Reader := Codecs.Reader WireError

/-! ### Fields -/

namespace Writer

def u8 (value : UInt8) : Writer Unit := Codecs.Writer.bytes [value]
def bool (value : Bool) : Writer Unit := u8 (if value then 1 else 0)
def u16 (value : U16) : Writer Unit := Codecs.Writer.le 2 value
def u32 (value : U32) : Writer Unit := Codecs.Writer.le 4 value
def u64 (value : U64) : Writer Unit := Codecs.Writer.le 8 value
def i64 (value : I64) : Writer Unit := Codecs.Writer.le 8 value
def u128 (value : U128) : Writer Unit := Codecs.Writer.le 16 value
def i128 (value : I128) : Writer Unit := Codecs.Writer.le 16 value

/-- A presence flag, and the value if there is one. -/
def option {α : Type} (value : Option α) (write : α → Writer Unit) : Writer Unit :=
  match value with
  | some value => do
    u8 1
    write value
  | none => u8 0

/-- The number of bytes, and the bytes. -/
def string (value : String) : Writer Unit := do
  let length := (as_bytes value).length
  refuse (65535 < length ∨ MAX_STRING_BYTES < length) (WireError.StringTooLong length)
  u16 (BitVec.ofNat 16 length)
  Codecs.Writer.bytes (as_bytes value)

def listing (listing : Listing) : Writer Unit := do
  u128 listing.venue_id
  u128 listing.instrument_id

def stamp (stamp : Stamp) : Writer Unit := do
  u64 stamp.sequence
  u64 stamp.logical_time_ns

def level (level : Level) : Writer Unit := do
  i64 level.price
  i64 level.quantity

/-- The number of entries, and the entries. -/
def group {α : Type} (items : List α) (write : α → Writer Unit) : Writer Unit := do
  refuse (65535 < items.length ∨ MAX_GROUP_ENTRIES < items.length) (WireError.GroupTooLarge items.length)
  u16 (BitVec.ofNat 16 items.length)
  forM items write

end Writer

namespace Reader

def bytes (count : Nat) : Reader (List UInt8) := Codecs.Reader.bytes .Truncated count

def u8 : Reader UInt8 := do
  let array ← bytes 1
  pure (array.headD 0)

def bool : Reader Bool := do
  match ← u8 with
  | 0 => pure false
  | 1 => pure true
  | other => throw (.InvalidValue "bool" other.toNat)

def u16 : Reader U16 := Codecs.Reader.le .Truncated 2 16
def u32 : Reader U32 := Codecs.Reader.le .Truncated 4 32
def u64 : Reader U64 := Codecs.Reader.le .Truncated 8 64
def i64 : Reader I64 := Codecs.Reader.le .Truncated 8 64
def u128 : Reader U128 := Codecs.Reader.le .Truncated 16 128
def i128 : Reader I128 := Codecs.Reader.le .Truncated 16 128

/-- A byte that has to be a value of an enumeration. -/
def wire (α : Type) [WireEnum α] : Reader α := do
  let value ← u8
  liftM (from_wire value : Except WireError α)

def option {α : Type} (read : Reader α) : Reader (Option α) := do
  if ← bool then some <$> read else pure none

def string : Reader String := do
  let length ← u16
  refuse (length.toNat > MAX_STRING_BYTES) (WireError.StringTooLong length.toNat)
  let text ← bytes length.toNat
  orElse (from_utf8 text) WireError.InvalidUtf8

def listing : Reader Listing := return { venue_id := (← u128), instrument_id := (← u128) }

def stamp : Reader Stamp := return { sequence := (← u64), logical_time_ns := (← u64) }

def level : Reader Level := return { price := (← i64), quantity := (← i64) }

/-- An entry has a byte at least, so there are no more entries than bytes. -/
def group {α : Type} (read : Reader α) : Reader (List α) := do
  let count ← u16
  refuse (count.toNat > MAX_GROUP_ENTRIES) (WireError.GroupTooLarge count.toNat)
  let left ← get
  refuse (count.toNat > left.length) WireError.Truncated
  Codecs.Reader.many read count.toNat

def finish : Reader Unit := do
  let left ← get
  refuse (left ≠ []) WireError.TrailingBytes

end Reader

/-! ### Records -/

section Writers
open Writer

def write_audience : NewsAudience → Writer Unit
  | .Public => u8 0
  | .Participant id => do
    u8 1
    u128 id
  | .Team id => do
    u8 2
    u128 id
  | .Role role => do
    u8 3
    string role

def write_operator_action (action : OperatorAction) : Writer Unit := do
  u8 action.code
  match action with
  | .Start | .Pause | .Resume | .Score => pure ()
  | .Advance steps => u32 steps
  | .Terminate reason => string reason
  | .Halt instrument_id halted reason =>
    u128 instrument_id
    bool halted
    string reason
  | .MassCancel participant_id instrument_id =>
    option participant_id u128
    option instrument_id u128
  | .PublishNews news_id audience headline body =>
    u128 news_id
    write_audience audience
    string headline
    string body
  | .Fine participant_id currency_id amount reason =>
    u128 participant_id
    u128 currency_id
    i128 amount
    string reason
  | .OpenTender tender_id participant_id instrument_id side quantity price expires_at_ns =>
    u128 tender_id
    u128 participant_id
    u128 instrument_id
    u8 (to_wire side)
    i64 quantity
    i64 price
    u64 expires_at_ns

def write_tender (tender : TenderInfo) : Writer Unit := do
  u128 tender.tender_id
  u128 tender.participant_id
  u128 tender.instrument_id
  u8 (to_wire tender.side)
  i64 tender.quantity
  i64 tender.price
  u64 tender.expires_at_ns
  u8 (to_wire tender.status)

def write_negotiation (negotiation : NegotiationInfo) : Writer Unit := do
  u128 negotiation.negotiation_id
  u128 negotiation.proposer_id
  u128 negotiation.counterparty_id
  u128 negotiation.instrument_id
  u8 (to_wire negotiation.side)
  i64 negotiation.quantity
  i64 negotiation.price
  u64 negotiation.expires_at_ns
  u8 (to_wire negotiation.status)
  u128 negotiation.awaiting

/-- The byte of the order type and a price, which is zero for a market order. -/
def write_order_type : OrderType → Writer Unit
  | .Limit price => do
    u8 1
    i64 price
  | .Market => do
    u8 2
    i64 0

/-- The byte of the time in force and a time, which is zero where the order does not expire by time. -/
def write_time_in_force (time_in_force : TimeInForce) : Writer Unit := do
  let (tif,expires) := match time_in_force with
    | .Gtc => ((0 : UInt8),(0 : U64))
    | .Ioc => (1,0)
    | .Fok => (2,0)
    | .Day => (3,0)
    | .Gtd expires_at_ns => (4,expires_at_ns)
  u8 tif
  u64 expires

def write_new_order (order : NewOrder) : Writer Unit := do
  u64 order.client_order_id
  listing order.listing
  u8 (to_wire order.side)
  i64 order.quantity
  write_order_type order.order_type
  write_time_in_force order.time_in_force
  bool order.post_only
  bool order.anonymous
  option order.display_quantity i64

def write_instrument (instrument : InstrumentInfo) : Writer Unit := do
  u128 instrument.instrument_id
  string instrument.symbol
  u8 (to_wire instrument.kind)
  option instrument.underlying u128
  option instrument.strike i64
  option instrument.expiry_ns u64
  bool instrument.is_call
  bool instrument.physical_delivery
  u32 instrument.coupon_bps
  group instrument.components fun (component,weight) => do
    u128 component
    i64 weight
  i64 instrument.multiplier
  u128 instrument.currency_id
  u8 instrument.quoted_decimals
  bool instrument.shortable
  bool instrument.tradeable
  option instrument.window_start_ns u64
  option instrument.window_stop_ns u64
  string instrument.display_unit
  string instrument.description
  option instrument.opening_mark i64
  option instrument.max_order_quantity i64

def write_currency (currency : CurrencyInfo) : Writer Unit := do
  u128 currency.currency_id
  string currency.code
  string currency.name
  u8 currency.minor_decimals

def write_listing_reference (reference : ListingReference) : Writer Unit := do
  listing reference.listing
  string reference.symbol
  i64 reference.min_price
  i64 reference.max_price
  i64 reference.tick_size
  i128 reference.taker_fee_per_lot
  i128 reference.maker_fee_per_lot
  bool reference.broker_ids
  bool reference.primary
  bool reference.halted
  bool reference.in_window

def write_book_order (order : BookOrder) : Writer Unit := do
  u8 (to_wire order.side)
  u64 order.reference
  i64 order.price
  i64 order.quantity
  option order.broker u128
  u32 order.queue_position

/-- A trade has the byte zero, which no order action has. -/
def ORDER_ENTRY_TRADE : UInt8 := 0

def write_order_entry : OrderEntry → Writer Unit
  | .Trade price quantity resting_reference buyer seller => do
    u8 ORDER_ENTRY_TRADE
    i64 price
    i64 quantity
    option resting_reference u64
    option buyer u128
    option seller u128
  | .Order action side reference price quantity broker => do
    u8 (to_wire action)
    u8 (to_wire side)
    u64 reference
    i64 price
    i64 quantity
    option broker u128

def write_tape_quote (quote : TapeQuote) : Writer Unit := do
  u128 quote.venue_id
  u8 (to_wire quote.side)
  i64 quote.price
  i64 quote.quantity

def write_tape_entry (entry : TapeEntry) : Writer Unit := do
  u128 entry.venue_id
  u8 (to_wire entry.kind)
  i64 entry.price
  i64 entry.quantity

def write_entry (entry : Entry) : Writer Unit := do
  u8 (to_wire entry.kind)
  i64 entry.price
  i64 entry.quantity

def write_listing_info (info : ListingInfo) : Writer Unit := do
  listing info.listing
  string info.symbol

def write_open_order (order : OpenOrder) : Writer Unit := do
  u64 order.client_order_id
  u128 order.order_id
  listing order.listing
  u8 (to_wire order.side)
  i64 order.price
  i64 order.original_quantity
  i64 order.remaining_quantity

def write_cash_balance (balance : CashBalance) : Writer Unit := do
  u128 balance.currency_id
  i128 balance.balance
  i128 balance.reserved

def write_position (position : Position) : Writer Unit := do
  u128 position.instrument_id
  i64 position.position
  i64 position.open_buy
  i64 position.open_sell

def write_welcome (welcome : Welcome) : Writer Unit := do
  u16 welcome.version
  u128 welcome.run_id
  u128 welcome.participant_id
  u8 (to_wire welcome.role)
  u32 welcome.heartbeat_ms
  u32 welcome.max_frame_bytes
  u8 (to_wire welcome.resume)
  u64 welcome.run_sequence

end Writers

section Readers
open Reader

def read_audience : Reader NewsAudience := do
  match ← u8 with
  | 0 => return .Public
  | 1 => return .Participant (← u128)
  | 2 => return .Team (← u128)
  | 3 => return .Role (← string)
  | other => throw (.InvalidValue "NewsAudience" other.toNat)

def read_operator_action : Reader OperatorAction := do
  match ← u8 with
  | 1 => return .Start
  | 2 => return .Pause
  | 3 => return .Resume
  | 4 => return .Advance (← u32)
  | 5 => return .Terminate (← string)
  | 6 => return .Halt (← u128) (← bool) (← string)
  | 7 => return .MassCancel (← option u128) (← option u128)
  | 8 => return .PublishNews (← u128) (← read_audience) (← string) (← string)
  | 9 => return .Score
  | 10 => return .Fine (← u128) (← u128) (← i128) (← string)
  | 11 => return .OpenTender (← u128) (← u128) (← u128) (← wire Side) (← i64) (← i64) (← u64)
  | other => throw (.InvalidValue "OperatorAction" other.toNat)

def read_tender : Reader TenderInfo := return {
  tender_id := (← u128)
  participant_id := (← u128)
  instrument_id := (← u128)
  side := (← wire Side)
  quantity := (← i64)
  price := (← i64)
  expires_at_ns := (← u64)
  status := (← wire TenderStatus) }

def read_negotiation : Reader NegotiationInfo := return {
  negotiation_id := (← u128)
  proposer_id := (← u128)
  counterparty_id := (← u128)
  instrument_id := (← u128)
  side := (← wire Side)
  quantity := (← i64)
  price := (← i64)
  expires_at_ns := (← u64)
  status := (← wire NegotiationStatus)
  awaiting := (← u128) }

/-- The price of a market order is read and dropped. -/
def read_order_type : Reader OrderType := do
  match ← u8 with
  | 1 => return .Limit (← i64)
  | 2 => do
    let _ ← i64
    return .Market
  | other => throw (.InvalidValue "OrderType" other.toNat)

/-- The time of an order that does not expire by time is read and dropped. -/
def read_time_in_force : Reader TimeInForce := do
  let tif ← u8
  let expires_at_ns ← u64
  match tif with
  | 0 => return .Gtc
  | 1 => return .Ioc
  | 2 => return .Fok
  | 3 => return .Day
  | 4 => return .Gtd expires_at_ns
  | other => throw (.InvalidValue "TimeInForce" other.toNat)

def read_new_order : Reader NewOrder := return {
  client_order_id := (← u64)
  listing := (← listing)
  side := (← wire Side)
  quantity := (← i64)
  order_type := (← read_order_type)
  time_in_force := (← read_time_in_force)
  post_only := (← bool)
  anonymous := (← bool)
  display_quantity := (← option i64) }

def read_instrument : Reader InstrumentInfo := return {
  instrument_id := (← u128)
  symbol := (← string)
  kind := (← wire InstrumentKind)
  underlying := (← option u128)
  strike := (← option i64)
  expiry_ns := (← option u64)
  is_call := (← bool)
  physical_delivery := (← bool)
  coupon_bps := (← u32)
  components := (← group do return ((← u128),(← i64)))
  multiplier := (← i64)
  currency_id := (← u128)
  quoted_decimals := (← u8)
  shortable := (← bool)
  tradeable := (← bool)
  window_start_ns := (← option u64)
  window_stop_ns := (← option u64)
  display_unit := (← string)
  description := (← string)
  opening_mark := (← option i64)
  max_order_quantity := (← option i64) }

def read_currency : Reader CurrencyInfo := return {
  currency_id := (← u128)
  code := (← string)
  name := (← string)
  minor_decimals := (← u8) }

def read_listing_reference : Reader ListingReference := return {
  listing := (← listing)
  symbol := (← string)
  min_price := (← i64)
  max_price := (← i64)
  tick_size := (← i64)
  taker_fee_per_lot := (← i128)
  maker_fee_per_lot := (← i128)
  broker_ids := (← bool)
  primary := (← bool)
  halted := (← bool)
  in_window := (← bool) }

def read_book_order : Reader BookOrder := return {
  side := (← wire Side)
  reference := (← u64)
  price := (← i64)
  quantity := (← i64)
  broker := (← option u128)
  queue_position := (← u32) }

def read_order_entry : Reader OrderEntry := do
  let kind ← u8
  if kind = ORDER_ENTRY_TRADE then
    return .Trade (← i64) (← i64) (← option u64) (← option u128) (← option u128)
  else do
    let action ← (from_wire kind : Except WireError OrderAction)
    return .Order action (← wire Side) (← u64) (← i64) (← i64) (← option u128)

def read_tape_quote : Reader TapeQuote := return {
  venue_id := (← u128)
  side := (← wire Side)
  price := (← i64)
  quantity := (← i64) }

def read_tape_entry : Reader TapeEntry := return {
  venue_id := (← u128)
  kind := (← wire EntryKind)
  price := (← i64)
  quantity := (← i64) }

def read_entry : Reader Entry := return { kind := (← wire EntryKind), price := (← i64), quantity := (← i64) }

def read_listing_info : Reader ListingInfo := return { listing := (← listing), symbol := (← string) }

def read_open_order : Reader OpenOrder := return {
  client_order_id := (← u64)
  order_id := (← u128)
  listing := (← listing)
  side := (← wire Side)
  price := (← i64)
  original_quantity := (← i64)
  remaining_quantity := (← i64) }

def read_cash_balance : Reader CashBalance := return {
  currency_id := (← u128)
  balance := (← i128)
  reserved := (← i128) }

def read_position : Reader Position := return {
  instrument_id := (← u128)
  position := (← i64)
  open_buy := (← i64)
  open_sell := (← i64) }

def read_welcome : Reader Welcome := return {
  version := (← u16)
  run_id := (← u128)
  participant_id := (← u128)
  role := (← wire Role)
  heartbeat_ms := (← u32)
  max_frame_bytes := (← u32)
  resume := (← wire ResumeStatus)
  run_sequence := (← u64) }

def read_flags : Reader FeedFlags := do
  let value ← u8
  liftM (FeedFlags.from_wire value)

end Readers

section Messages

open Writer in
def write_client : ClientMessage → Writer Unit
  | .Hello version resume_after client_name => do
    Codecs.Writer.bytes MAGIC
    u16 version
    option resume_after u64
    string client_name
  | .Heartbeat => pure ()
  | .ProbeReply probe_id => u64 probe_id
  | .Ping nonce => u64 nonce
  | .Logout reason => string reason
  | .NewOrder order => write_new_order order
  | .CancelOrder client_order_id => u64 client_order_id
  | .KillSwitch request_id | .KillSwitchReset request_id => u64 request_id
  | .Subscribe request_id listing_of flags => do
    u32 request_id
    listing listing_of
    u8 flags.to_wire
  | .Unsubscribe request_id | .ListingsRequest request_id | .OpenOrdersRequest request_id | .AccountRequest request_id
  | .DealsRequest request_id => u32 request_id
  | .Enroll secret csr_pem => do
    string secret
    string csr_pem
  | .ReferenceDataRequest request_id after_instrument limit => do
    u32 request_id
    option after_instrument u128
    u16 limit
  | .OperatorCommand request_id action => do
    u64 request_id
    write_operator_action action
  | .TenderDecision request_id tender_id accept => do
    u64 request_id
    u128 tender_id
    bool accept
  | .OtcPropose request_id negotiation_id counterparty_id instrument_id side quantity price expires_at_ns => do
    u64 request_id
    u64 negotiation_id
    u128 counterparty_id
    u128 instrument_id
    u8 (to_wire side)
    i64 quantity
    i64 price
    u64 expires_at_ns
  | .OtcCounter request_id negotiation_id quantity price => do
    u64 request_id
    u128 negotiation_id
    i64 quantity
    i64 price
  | .OtcDecision request_id negotiation_id decision => do
    u64 request_id
    u128 negotiation_id
    u8 (to_wire decision)
  | .SnapshotRequest request_id listing_of depth => do
    u32 request_id
    listing listing_of
    u16 depth

open Reader in
def read_client (kind : UInt8) : Reader ClientMessage :=
  match kind with
  | msg_type.HELLO => do
    let magic ← bytes MAGIC.length
    refuse (magic ≠ MAGIC) WireError.BadMagic
    return .Hello (← u16) (← option u64) (← string)
  | msg_type.CLIENT_HEARTBEAT => return .Heartbeat
  | msg_type.PROBE_REPLY => return .ProbeReply (← u64)
  | msg_type.PING => return .Ping (← u64)
  | msg_type.CLIENT_LOGOUT => return .Logout (← string)
  | msg_type.NEW_ORDER => return .NewOrder (← read_new_order)
  | msg_type.CANCEL_ORDER => return .CancelOrder (← u64)
  | msg_type.KILL_SWITCH => return .KillSwitch (← u64)
  | msg_type.KILL_SWITCH_RESET => return .KillSwitchReset (← u64)
  | msg_type.SUBSCRIBE => return .Subscribe (← u32) (← listing) (← read_flags)
  | msg_type.UNSUBSCRIBE => return .Unsubscribe (← u32)
  | msg_type.SNAPSHOT_REQUEST => return .SnapshotRequest (← u32) (← listing) (← u16)
  | msg_type.LISTINGS_REQUEST => return .ListingsRequest (← u32)
  | msg_type.OPEN_ORDERS_REQUEST => return .OpenOrdersRequest (← u32)
  | msg_type.ACCOUNT_REQUEST => return .AccountRequest (← u32)
  | msg_type.OPERATOR_COMMAND => return .OperatorCommand (← u64) (← read_operator_action)
  | msg_type.TENDER_DECISION => return .TenderDecision (← u64) (← u128) (← bool)
  | msg_type.OTC_PROPOSE =>
    return .OtcPropose (← u64) (← u64) (← u128) (← u128) (← wire Side) (← i64) (← i64) (← u64)
  | msg_type.OTC_COUNTER => return .OtcCounter (← u64) (← u128) (← i64) (← i64)
  | msg_type.OTC_DECISION => return .OtcDecision (← u64) (← u128) (← wire OtcDecision)
  | msg_type.DEALS_REQUEST => return .DealsRequest (← u32)
  | msg_type.ENROLL => return .Enroll (← string) (← string)
  | msg_type.REFERENCE_DATA_REQUEST => return .ReferenceDataRequest (← u32) (← option u128) (← u16)
  | other =>
    if 0x40 ≤ other ∧ other ≤ 0x7f then throw (.WrongDirection other) else throw (.UnknownMessageType other)

open Writer in
def write_server : ServerMessage → Writer Unit
  | .Welcome welcome => write_welcome welcome
  | .Heartbeat => pure ()
  | .Probe probe_id => u64 probe_id
  | .Pong nonce server_time_us => do
    u64 nonce
    u64 server_time_us
  | .Reject request_type reference reason => do
    u8 request_type
    u64 reference
    string reason
  | .ReplayComplete through_sequence => u64 through_sequence
  | .Logout reason => string reason
  | .OperatorDone request_id run_sequence | .DealDone request_id run_sequence => do
    u64 request_id
    u64 run_sequence
  | .Tender at_stamp tender => do
    stamp at_stamp
    write_tender tender
  | .Negotiation at_stamp negotiation => do
    stamp at_stamp
    write_negotiation negotiation
  | .Deals request_id run_sequence tenders negotiations => do
    u32 request_id
    u64 run_sequence
    group tenders write_tender
    group negotiations write_negotiation
  | .Enrolled participant_id certificate_pem ca_pem => do
    u128 participant_id
    string certificate_pem
    string ca_pem
  | .ReferenceData request_id run_sequence next_after currencies instruments listings => do
    u32 request_id
    u64 run_sequence
    option next_after u128
    group currencies write_currency
    group instruments write_instrument
    group listings write_listing_reference
  | .RunStatus at_stamp status => do
    stamp at_stamp
    string status
  | .ListingHalt at_stamp instrument_id halted => do
    stamp at_stamp
    u128 instrument_id
    bool halted
  | .News at_stamp news_id headline body => do
    stamp at_stamp
    u128 news_id
    string headline
    string body
  | .AccessDelay source min_rtt_us one_way_us probe_samples => do
    u8 (to_wire source)
    option min_rtt_us u64
    option one_way_us u64
    u64 probe_samples
  | .OrderSnapshot request_id listing_of next_report complete orders => do
    u32 request_id
    listing listing_of
    u64 next_report
    bool complete
    group orders write_book_order
  | .OrderUpdate request_id listing_of first_report entries => do
    u32 request_id
    listing listing_of
    u64 first_report
    group entries write_order_entry
  | .TapeSnapshot request_id instrument_id last_report quotes => do
    u32 request_id
    u128 instrument_id
    u64 last_report
    group quotes write_tape_quote
  | .TapeUpdate request_id instrument_id first_report entries => do
    u32 request_id
    u128 instrument_id
    u64 first_report
    group entries write_tape_entry
  | .OrderAccepted at_stamp client_order_id order_id listing_of side quantity price => do
    stamp at_stamp
    u64 client_order_id
    u128 order_id
    listing listing_of
    u8 (to_wire side)
    i64 quantity
    option price i64
  | .OrderRejected at_stamp client_order_id reason | .CancelRejected at_stamp client_order_id reason => do
    stamp at_stamp
    u64 client_order_id
    u8 (to_wire reason)
  | .OrderRested at_stamp client_order_id order_id price remaining reference => do
    stamp at_stamp
    u64 client_order_id
    u128 order_id
    i64 price
    i64 remaining
    option reference u64
  | .OrderReduced at_stamp client_order_id order_id remaining reference => do
    stamp at_stamp
    u64 client_order_id
    u128 order_id
    i64 remaining
    option reference u64
  | .Fill at_stamp client_order_id order_id listing_of side price quantity fee liquidity => do
    stamp at_stamp
    u64 client_order_id
    u128 order_id
    listing listing_of
    u8 (to_wire side)
    i64 price
    i64 quantity
    i128 fee
    u8 (to_wire liquidity)
  | .OrderDone at_stamp client_order_id order_id => do
    stamp at_stamp
    u64 client_order_id
    u128 order_id
  | .OrderCanceled at_stamp client_order_id order_id remaining reason => do
    stamp at_stamp
    u64 client_order_id
    u128 order_id
    i64 remaining
    u8 (to_wire reason)
  | .PositionChanged at_stamp instrument_id delta => do
    stamp at_stamp
    u128 instrument_id
    i64 delta
  | .BalanceChanged at_stamp delta => do
    stamp at_stamp
    i128 delta
  | .KillSwitchActivated at_stamp | .KillSwitchReset at_stamp => stamp at_stamp
  | .MarketSnapshot request_id listing_of next_report bids asks => do
    u32 request_id
    listing listing_of
    u64 next_report
    group bids level
    group asks level
  | .MarketUpdate request_id listing_of first_report entries => do
    u32 request_id
    listing listing_of
    u64 first_report
    group entries write_entry
  | .Listings request_id listings => do
    u32 request_id
    group listings write_listing_info
  | .OpenOrders request_id run_sequence orders => do
    u32 request_id
    u64 run_sequence
    group orders write_open_order
  | .Account request_id run_sequence cash positions => do
    u32 request_id
    u64 run_sequence
    group cash write_cash_balance
    group positions write_position

open Reader in
def read_server (kind : UInt8) : Reader ServerMessage :=
  match kind with
  | msg_type.WELCOME => return .Welcome (← read_welcome)
  | msg_type.SERVER_HEARTBEAT => return .Heartbeat
  | msg_type.PROBE => return .Probe (← u64)
  | msg_type.PONG => return .Pong (← u64) (← u64)
  | msg_type.REJECT => return .Reject (← u8) (← u64) (← string)
  | msg_type.REPLAY_COMPLETE => return .ReplayComplete (← u64)
  | msg_type.SERVER_LOGOUT => return .Logout (← string)
  | msg_type.OPERATOR_DONE => return .OperatorDone (← u64) (← u64)
  | msg_type.DEAL_DONE => return .DealDone (← u64) (← u64)
  | msg_type.TENDER => return .Tender (← stamp) (← read_tender)
  | msg_type.NEGOTIATION => return .Negotiation (← stamp) (← read_negotiation)
  | msg_type.DEALS => return .Deals (← u32) (← u64) (← group read_tender) (← group read_negotiation)
  | msg_type.ENROLLED => return .Enrolled (← u128) (← string) (← string)
  | msg_type.REFERENCE_DATA =>
    return .ReferenceData (← u32) (← u64) (← option u128) (← group read_currency) (← group read_instrument)
      (← group read_listing_reference)
  | msg_type.RUN_STATUS => return .RunStatus (← stamp) (← string)
  | msg_type.LISTING_HALT => return .ListingHalt (← stamp) (← u128) (← bool)
  | msg_type.NEWS => return .News (← stamp) (← u128) (← string) (← string)
  | msg_type.ACCESS_DELAY => return .AccessDelay (← wire DelaySource) (← option u64) (← option u64) (← u64)
  | msg_type.ORDER_SNAPSHOT =>
    return .OrderSnapshot (← u32) (← listing) (← u64) (← bool) (← group read_book_order)
  | msg_type.ORDER_UPDATE => return .OrderUpdate (← u32) (← listing) (← u64) (← group read_order_entry)
  | msg_type.TAPE_SNAPSHOT => return .TapeSnapshot (← u32) (← u128) (← u64) (← group read_tape_quote)
  | msg_type.TAPE_UPDATE => return .TapeUpdate (← u32) (← u128) (← u64) (← group read_tape_entry)
  | msg_type.ORDER_ACCEPTED =>
    return .OrderAccepted (← stamp) (← u64) (← u128) (← listing) (← wire Side) (← i64) (← option i64)
  | msg_type.ORDER_REJECTED => return .OrderRejected (← stamp) (← u64) (← wire RejectReason)
  | msg_type.ORDER_RESTED => return .OrderRested (← stamp) (← u64) (← u128) (← i64) (← i64) (← option u64)
  | msg_type.ORDER_REDUCED => return .OrderReduced (← stamp) (← u64) (← u128) (← i64) (← option u64)
  | msg_type.FILL =>
    return .Fill (← stamp) (← u64) (← u128) (← listing) (← wire Side) (← i64) (← i64) (← i128) (← wire Liquidity)
  | msg_type.ORDER_DONE => return .OrderDone (← stamp) (← u64) (← u128)
  | msg_type.ORDER_CANCELED => return .OrderCanceled (← stamp) (← u64) (← u128) (← i64) (← wire CancelReason)
  | msg_type.CANCEL_REJECTED => return .CancelRejected (← stamp) (← u64) (← wire RejectReason)
  | msg_type.POSITION_CHANGED => return .PositionChanged (← stamp) (← u128) (← i64)
  | msg_type.BALANCE_CHANGED => return .BalanceChanged (← stamp) (← i128)
  | msg_type.KILL_SWITCH_ACTIVATED => return .KillSwitchActivated (← stamp)
  | msg_type.KILL_SWITCH_RESET_DONE => return .KillSwitchReset (← stamp)
  | msg_type.MARKET_SNAPSHOT => return .MarketSnapshot (← u32) (← listing) (← u64) (← group level) (← group level)
  | msg_type.MARKET_UPDATE => return .MarketUpdate (← u32) (← listing) (← u64) (← group read_entry)
  | msg_type.LISTINGS => return .Listings (← u32) (← group read_listing_info)
  | msg_type.OPEN_ORDERS => return .OpenOrders (← u32) (← u64) (← group read_open_order)
  | msg_type.ACCOUNT => return .Account (← u32) (← u64) (← group read_cash_balance) (← group read_position)
  | other =>
    if 0x01 ≤ other ∧ other ≤ 0x3f then throw (.WrongDirection other) else throw (.UnknownMessageType other)

end Messages

/-! ### Frames -/

/-- Appends a frame. On a failure what was written is cut off again. -/
def frame (kind : UInt8) (body : Writer Unit) : Writer Unit := fun out =>
  let start := out.length
  let written := body.run (out ++ List.replicate LENGTH_BYTES 0 ++ [kind])
  let out := match written with
    | .ok _ out | .error _ out => out
  let length := out.length - start - LENGTH_BYTES
  let result : Except WireError Nat := do
    match written with
    | .ok .. => pure ()
    | .error e _ => throw e
    refuse (length > MAX_FRAME_BYTES) (WireError.FrameTooLarge MAX_FRAME_BYTES length)
    refuse (length > 4294967295) (WireError.FrameTooLarge MAX_FRAME_BYTES length)
    pure length
  match result with
  | .ok length => .ok () (out.take start ++ to_le_bytes LENGTH_BYTES length ++ out.drop (start + LENGTH_BYTES))
  | .error e => .error e (out.take start)

def encode_client (message : ClientMessage) : Writer Unit := frame message.msg_type (write_client message)
def encode_server (message : ServerMessage) : Writer Unit := frame message.msg_type (write_server message)

/-- A message of which nothing is left over. -/
def decode {M : Type} (read : UInt8 → Reader M) (frame : List UInt8) : Except WireError M :=
  match frame with
  | [] => throw .EmptyFrame
  | kind :: body =>
    match EStateM.run (do let message ← read kind; Reader.finish; pure message) body with
    | .ok message _ => pure message
    | .error e _ => throw e

def decode_client : List UInt8 → Except WireError ClientMessage := decode read_client
def decode_server : List UInt8 → Except WireError ServerMessage := decode read_server

/-- Splits a byte stream into frames, each a type byte and a body. -/
structure FrameDecoder where
  max_frame_bytes : Nat
  buffer : List UInt8

namespace FrameDecoder

def new (max_frame_bytes : Nat) : FrameDecoder := ⟨min (max max_frame_bytes 1) MAX_FRAME_BYTES,[]⟩

/-- How many bytes the first frame has with its length, if it is all there. -/
def next_frame_len (max_frame_bytes : Nat) (buffer : List UInt8) : Except WireError (Option Nat) :=
  if buffer.length < LENGTH_BYTES then pure none
  else do
    let length := from_le_bytes (buffer.take LENGTH_BYTES)
    refuse (length = 0) WireError.EmptyFrame
    refuse (length > max_frame_bytes) (WireError.FrameTooLarge max_frame_bytes length)
    if buffer.length < LENGTH_BYTES + length then pure none
    else pure (some (LENGTH_BYTES + length))

/-- The frames of a buffer and what is left of it. Every frame has a byte at least, so as many rounds as bytes are enough. -/
def read_frames (max_frame_bytes : Nat) : Nat → List UInt8 → Except WireError (List (List UInt8) × List UInt8)
  | 0,buffer => pure ([],buffer)
  | rounds + 1,buffer => do
    match ← next_frame_len max_frame_bytes buffer with
    | none => pure ([],buffer)
    | some offset =>
      let (frames,rest) ← read_frames max_frame_bytes rounds (buffer.drop offset)
      pure ((buffer.take offset).drop LENGTH_BYTES :: frames,rest)

/-- Adds received bytes and returns every complete frame, in order. -/
def push (bytes : List UInt8) : EStateM WireError FrameDecoder (List (List UInt8)) := do
  modify fun decoder => { decoder with buffer := decoder.buffer ++ bytes }
  let decoder ← get
  let (frames,rest) ← read_frames decoder.max_frame_bytes decoder.buffer.length decoder.buffer
  set { decoder with buffer := rest }
  pure frames

def push_all (chunks : List (List UInt8)) : EStateM WireError FrameDecoder (List (List UInt8)) := do
  let frames ← chunks.mapM push
  pure frames.flatten

end FrameDecoder

end Bunting.Bnp
