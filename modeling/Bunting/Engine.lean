import Bunting.RunState

/-!
The transitions of a run. A transition is a program on the run, the events it
has emitted and the listings it has touched. `apply` runs it on a copy where a
scheduled action is due and in place otherwise. A `Fault` carries beside the
source's error the cause of it, which the source drops.
-/

namespace Bunting
open Stateful

/-- What stopped a transition. -/
inductive Cause
  | Overflow
  | Settlement (error : LedgerError)
  | Resting
  | Other
  deriving DecidableEq

structure Fault where
  error : EngineError
  cause : Cause
  deriving DecidableEq

namespace Fault

def plain (error : EngineError) : Fault := ⟨error,.Other⟩
def overflow (error : EngineError) : Fault := ⟨error,.Overflow⟩
def accounting (error : LedgerError) : Fault :=
  ⟨.Accounting,if error = .ArithmeticOverflow then .Overflow else .Other⟩
/-- The ledger refused an execution. -/
def settling (error : LedgerError) : Fault :=
  ⟨.Accounting,if error = .ArithmeticOverflow then .Overflow else .Settlement error⟩
def booking (error : BookError) : Fault := ⟨.OwnershipInvariant,if error = .Overflow then .Overflow else .Other⟩
/-- The book refused the remainder of an order. -/
def resting (error : BookError) : Fault := ⟨.OwnershipInvariant,if error = .Overflow then .Overflow else .Resting⟩
def simulation (error : SimulationError) : Fault :=
  ⟨.Simulation error,
    if error = .ArithmeticOverflow ∨ error = .Ledger .ArithmeticOverflow then .Overflow else .Other⟩

end Fault

inductive ApplyError
  | Unchanged (fault : Fault)
  | Poisoned (fault : Fault)
  deriving DecidableEq

def ApplyError.fault : ApplyError → Fault
  | .Unchanged fault | .Poisoned fault => fault

/-- Committed facts of one transition. -/
structure Applied where
  events : List EventEnvelope
  accepted : Bool
  reject_code : Option String
  order_id : Option OrderId
  changed_listings : OrdSet ListingKey
  deriving DecidableEq

/-- A run under way, with what the transition has emitted so far. -/
structure Transition where
  run : RunState
  payloads : List EventPayload := []
  changed : OrdSet ListingKey := ∅

abbrev Engine := EStateM Fault Transition

def emit (payloads : List EventPayload) : Engine Unit :=
  modify (fun t => { t with payloads := t.payloads ++ payloads })

def modify_run (f : RunState → RunState) : Engine Unit := modify (fun t => { t with run := f t.run })

def touch (listing : ListingKey) : Engine Unit := modify (fun t => { t with changed := t.changed.insert listing () })

def posting {α : Type} (fault : LedgerError → Fault) (m : EStateM LedgerError Ledger α) : Engine α :=
  zoom (fun t => t.run.ledger) (fun ledger t => { t with run := { t.run with ledger } }) fault m

def on_simulation {α : Type} (m : Simulating α) : Engine α :=
  zoom (fun t => ⟨t.run.simulation,t.run.ledger⟩)
    (fun world t => { t with run := { t.run with simulation := world.sim, ledger := world.ledger } }) Fault.simulation m

namespace RunState

def context (run : RunState) : SimulationContext := ⟨run.participants,run.reporting_currency,run.fx_rates⟩

/-- The book of a listing; the empty book where there is no such listing. -/
def book (run : RunState) (key : ListingKey) : Book := ((run.listings.get? key).map ListingState.book).getD {}

def set_book (run : RunState) (key : ListingKey) (book : Book) : RunState :=
  match run.listings.get? key with
  | none => run
  | some listing => { run with listings := run.listings.insert key { listing with book } }

def live_order_count (run : RunState) (participant : ParticipantId) : Nat := (run.live_orders.get? participant).getD 0

/-- Without a calendar every venue trades continuously. -/
def session_phase (run : RunState) (venue : VenueId) : SessionPhase :=
  if run.calendar.isNone then .Continuous else Calendar.phase_after ((run.session_steps.get? venue).getD 0)

def venue_listings (run : RunState) (venue : VenueId) : List ListingKey :=
  run.listings.keys.filter (fun listing => listing.venue_id = venue)

def listing_key_for_instrument (run : RunState) (instrument : InstrumentId) : Except Fault ListingKey :=
  match run.listings.keys.filter (fun key => key.instrument_id = instrument) with
  | [] => .error (.plain .UnknownListing)
  | [key] => .ok key
  | _ => .error (.plain .AmbiguousListing)

def net_liquidation_value (run : RunState) (participant : ParticipantId) : Except LedgerError Int :=
  run.ledger.reporting_value participant run.reporting_currency run.fx_rates

end RunState

def on_book {α : Type} (key : ListingKey) (fault : BookError → Fault) (m : EStateM BookError Book α) : Engine α := do
  let t ← get
  let _ ← orElse (t.run.listings.get? key) (Fault.plain .UnknownListing)
  zoom (fun t => t.run.book key) (fun book t => { t with run := t.run.set_book key book }) fault m

/-! ### Settlement -/

def per_lot_fee (per_lot quantity : Int) : Except Fault Int :=
  orElse (to_i128 (per_lot * quantity)) (Fault.overflow .Accounting)

/-- Takes an executed quantity from an order's record. Returns what the order reports. -/
def reduce_order (order_id : OrderId) (quantity : Int) : Engine (List EventPayload) := do
  let t ← get
  let owned ← orElse (t.run.ownership.get? order_id) (Fault.plain .OwnershipInvariant)
  let remaining ← orElse (to_i64 (owned.remaining_quantity - quantity)) (Fault.overflow .Accounting)
  refuse (remaining < 0) (Fault.plain .Accounting)
  let state := if remaining = 0 then .Filled else owned.state
  let ownership := t.run.ownership.insert order_id { owned with remaining_quantity := remaining, state }
  modify_run (fun run => { run with ownership })
  pure [if remaining = 0 then .OrderCompleted order_id else .OrderReduced order_id remaining]

/-- Drops the expiry of an order that has nothing left. -/
def drop_filled_expiry (order_id : OrderId) (expires_at : Option Nat) (run : RunState) : RunState :=
  match expires_at with
  | none => run
  | some time =>
    if (run.ownership.get? order_id).any (fun owned => owned.remaining_quantity = 0) then
      { run with expiries := run.expiries.erase (toLex (time,order_id)) }
    else run

/-- One side of an execution between two orders. -/
def OwnedOrder.party (participants : OrdMap ParticipantId ParticipantDefinition) (owned : OwnedOrder) (fee : Int) :
    FillParty := ⟨owned.participant_id,fee,some owned.reservation,funded participants owned.participant_id⟩

/-- Records a settled execution: both orders are reduced, and the trade is reported. -/
def record_fill (key : ListingKey) (maker_id taker_id : OrderId) (maker taker : OwnedOrder) (price quantity : Int)
    (auction : Bool) (trade : EventPayload) : Engine Unit := do
  modify_run (fun run =>
    { run with day_trades := if run.calendar.isSome then run.day_trades.insert key price else run.day_trades })
  let maker_report ← reduce_order maker_id quantity
  emit maker_report
  let taker_report ← reduce_order taker_id quantity
  emit (if auction then taker_report else [])
  modify_run (fun run =>
    let run := drop_filled_expiry maker_id maker.expires_at run
    if auction then drop_filled_expiry taker_id taker.expires_at run else run)
  emit [trade]

/-- Settles one execution through the ledger. In continuous trading the taker
    is the arriving order, whose completion its submission reports; in a call
    auction both orders rested, both report here and both pay the taker fee. -/
def settle_fill (key : ListingKey) (maker_id taker_id : OrderId) (price quantity : Int) (auction : Bool) :
    Engine Unit := do
  let t ← get
  let listing ← orElse (t.run.listings.get? key) (Fault.plain .UnknownListing)
  let fees := listing.definition.fees
  let maker ← orElse (t.run.ownership.get? maker_id) (Fault.plain .OwnershipInvariant)
  let taker ← orElse (t.run.ownership.get? taker_id) (Fault.plain .OwnershipInvariant)
  refuse (maker.listing_key ≠ key ∨ maker.state ≠ .Active ∨ taker.listing_key ≠ key) (Fault.plain .OwnershipInvariant)
  let maker_fee ← per_lot_fee (if auction then fees.taker_per_lot else fees.maker_per_lot) quantity
  let taker_fee ← per_lot_fee fees.taker_per_lot quantity
  let maker_party := maker.party t.run.participants maker_fee
  let taker_party := taker.party t.run.participants taker_fee
  let buyer := if taker.side = .Buy then taker_party else maker_party
  let seller := if taker.side = .Buy then maker_party else taker_party
  posting Fault.settling (Ledger.settle ⟨key.instrument_id,price,quantity,some buyer,some seller,true⟩)
  record_fill key maker_id taker_id maker taker price quantity auction (.TradeExecuted key.instrument_id (some key)
    maker_id taker_id buyer.participant seller.participant price quantity buyer.fee seller.fee)

def settle_matches (taker_id : OrderId) (key : ListingKey) (matches_ : List Match) : Engine Unit :=
  forM matches_ (fun fill => settle_fill key fill.maker taker_id fill.price fill.quantity false)

/-! ### Cancelling and expiring -/

def unrest (key : ListingKey) (order_id : OrderId) : Engine BookOrder := do
  let t ← get
  let listing ← orElse (t.run.listings.get? key) (Fault.plain .UnknownListing)
  let taken := Book.cancel order_id listing.book
  modify_run (fun run => run.set_book key taken.2)
  orElse taken.1 (Fault.plain .OwnershipInvariant)

def OwnedOrder.canceled (owned : OwnedOrder) : OwnedOrder := { owned with state := .Canceled, remaining_quantity := 0 }

/-- Removes a live order from its book and releases its reservation. -/
def cancel (order_id : OrderId) (reason : CancelReason) : Engine Unit := do
  let t ← get
  let owned ← orElse ((t.run.ownership.get? order_id).filter (fun owned => owned.state = .Active))
    (Fault.plain .OwnershipInvariant)
  let resting ← unrest owned.listing_key order_id
  refuse (resting.remaining ≠ owned.remaining_quantity) (Fault.plain .OwnershipInvariant)
  posting Fault.accounting (Ledger.close_order owned.participant_id owned.listing_key.instrument_id owned.side
    owned.remaining_quantity owned.reservation)
  modify_run (fun run => { run with
    expiries := owned.expires_at.elim run.expiries (fun time => run.expiries.erase (toLex (time,order_id)))
    ownership := run.ownership.insert order_id owned.canceled })
  emit [.OrderCanceled order_id owned.participant_id owned.listing_key.instrument_id (some owned.listing_key)
    owned.remaining_quantity reason]

/-- Cancels orders one by one, each with its listing. -/
def cancel_all (reason : CancelReason) (orders : List (OrderId × ListingKey)) : Engine Unit :=
  forM orders (fun entry => do
    touch entry.2
    cancel entry.1 reason)

def expire_loop (now : Nat) : Nat → Engine Unit
  | 0 => pure ()
  | fuel + 1 => do
    let t ← get
    match t.run.expiries.first? with
    | none => pure ()
    | some (expiry,_) =>
      if (ofLex expiry).1 > now then pure ()
      else do
        let owned ← orElse (t.run.ownership.get? (ofLex expiry).2) (Fault.plain .OwnershipInvariant)
        touch owned.listing_key
        cancel (ofLex expiry).2 .Expired
        expire_loop now fuel

/-- Cancels every order whose expiry is at or before `now`. A cancel drops the
    expiry it was made for; where it does not, the next one fails. -/
def expire_due (now : Nat) : Engine Unit := do
  let t ← get
  expire_loop now (t.run.expiries.size + 1)

/-! ### Session boundaries -/

/-- Settles one execution of an auction. The order that rested first is the maker. -/
def settle_cross (key : ListingKey) (price : Int) (cross : Cross) : Engine Unit :=
  if cross.buy_priority < cross.sell_priority then settle_fill key cross.buy cross.sell price cross.quantity true
  else settle_fill key cross.sell cross.buy price cross.quantity true

/-- Uncrosses one listing's book at its call-auction price. -/
def auction (key : ListingKey) : Engine Unit := do
  let t ← get
  let listing ← orElse (t.run.listings.get? key) (Fault.plain .UnknownListing)
  match listing.book.auction_price ((t.run.ledger.mark key.instrument_id).getD 1) with
  | none => pure ()
  | some (price,quantity) => do
    let crosses ← on_book key Fault.booking (Book.uncross price)
    forM crosses (settle_cross key price)
    emit [.Simulation (.AuctionUncrossed key price quantity)]

namespace RunState

/-- Records the closing price of one listing: its last trade of the day, else
    its previous close, else the instrument's mark. -/
def close_listing (state : RunState × List ClosingPrice) (key : ListingKey) : RunState × List ClosingPrice :=
  let run := state.1
  let price := (run.day_trades.get? key).or ((run.closes.get? key).or (run.ledger.mark key.instrument_id))
  let run := { run with day_trades := run.day_trades.erase key }
  match price with
  | none => (run,state.2)
  | some price => ({ run with closes := run.closes.insert key price },state.2 ++ [⟨key,price⟩])

def close_day (run : RunState) (venue : VenueId) : RunState × List ClosingPrice :=
  (run.venue_listings venue).foldl close_listing (run,[])

/-- The listing whose close is the day-end mark of an instrument: its only
    listing, else the one flagged primary. -/
def primary_listing (run : RunState) (instrument : InstrumentId) : Option ListingKey :=
  let definitions := run.listings.values.map ListingState.definition
  match definitions.filter (fun listing => listing.key.instrument_id = instrument) with
  | [only] => some only.key
  | _ => (definitions.find? (fun listing => listing.key.instrument_id = instrument ∧ listing.primary)).map
    ListingDefinition.key

/-- The day-end marks of the instruments with an official close. -/
def day_marks (run : RunState) : List InstrumentMark :=
  run.instruments.keys.filterMap (fun instrument =>
    ((run.primary_listing instrument).bind run.closes.get?).map (fun price => ⟨instrument,price⟩))

end RunState

/-- Ends a trading day: the closes become marks, and every participant's value
    at those marks is frozen as the day's score. -/
def settle_day (day : Nat) : Engine SimulationEvent := do
  let t ← get
  let marks := t.run.day_marks
  forM marks (fun mark => posting Fault.accounting (Ledger.set_mark mark.instrument_id mark.price))
  let t ← get
  let scores ← posting Fault.accounting (liftM (t.run.participants.keys.mapM (fun participant =>
    (participant,·) <$> t.run.net_liquidation_value participant)))
  let scores ← orElse (ranked scores) (Fault.overflow .SequenceOverflow)
  pure (.DaySettled day marks (scores.map (fun score => ⟨score.participant_id,score.score,score.rank⟩)))

/-- The auctions of a venue's listings, where the boundary opens or closes it. -/
def uncross_venue (venue : VenueId) (phase : SessionPhase) : Engine Unit :=
  if phase = .Continuous ∨ phase = .Closed then do
    let t ← get
    forM (t.run.venue_listings venue) (fun listing => do
      touch listing
      auction listing)
  else pure ()

def RunState.day_orders (run : RunState) (venue : VenueId) : List OrderId :=
  (run.ownership.values.filter (fun owned =>
    owned.day ∧ owned.state = .Active ∧ owned.listing_key.venue_id = venue)).map OwnedOrder.order_id

def expire_day_orders (venue : VenueId) (phase : SessionPhase) : Engine Unit :=
  if phase = .Closed then do
    let t ← get
    forM (t.run.day_orders venue) (fun order_id => cancel order_id .Expired)
  else pure ()

/-- Records the closes of a venue, and ends the day once every venue has closed. -/
def record_close (venue : VenueId) (boundary : Boundary) : Engine Unit :=
  if boundary.phase = .Closed then do
    let t ← get
    let closed := t.run.close_day venue
    modify_run (fun _ => closed.1)
    emit [.Simulation (.DayClosed venue boundary.day closed.2)]
    let t ← get
    if t.run.session_steps.keys.all (fun venue => t.run.session_phase venue = .Closed) then do
      let settled ← settle_day boundary.day
      emit [.Simulation settled]
    else pure ()
  else pure ()

/-- Moves a venue into the phase a boundary starts. -/
def cross_boundary (venue : VenueId) (step : Nat) (boundary : Boundary) : Engine Unit := do
  let next ← orElse (to_u64 (step + 1)) (Fault.overflow .SequenceOverflow)
  modify_run (fun run => { run with session_steps := run.session_steps.insert venue next })
  uncross_venue venue boundary.phase
  expire_day_orders venue boundary.phase
  emit [.Simulation (.SessionPhaseChanged venue boundary.day boundary.phase)]
  record_close venue boundary

namespace RunState

/-- The earlier of two boundaries, the lower venue first. -/
def earlier (best : Option (VenueId × Nat × Boundary)) (next : VenueId × Nat × Boundary) :
    Option (VenueId × Nat × Boundary) :=
  match best with
  | none => some next
  | some best =>
    if next.2.2.at_ns < best.2.2.at_ns ∨ (next.2.2.at_ns = best.2.2.at_ns ∧ next.1 < best.1) then some next
    else some best

/-- The earliest boundary any venue has yet to pass. -/
def next_boundary (run : RunState) : Option (VenueId × Nat × Boundary) := do
  let calendar ← run.calendar
  (run.session_steps.entries.filterMap (fun entry =>
    (calendar.boundary entry.1 entry.2).map (fun boundary => (entry.1,entry.2,boundary)))).foldl earlier none

/-- The earliest boundary still to pass, if it is due. -/
def due_boundary (run : RunState) (time : Nat) : Option (VenueId × Nat × Boundary) :=
  run.next_boundary.filter (fun next => next.2.2.at_ns ≤ time)

/-- A bound of the boundaries still to pass. -/
def boundaries_left (run : RunState) : Nat :=
  run.calendar.elim 0 (fun calendar =>
    (run.session_steps.values.map (fun step => BOUNDARIES_PER_DAY * calendar.days - step)).sum)

end RunState

/-- Session boundaries in time order, each after the expiries due before it. -/
def cross_boundaries (time : Nat) : Nat → Engine Unit
  | 0 => pure ()
  | fuel + 1 => do
    let t ← get
    match t.run.due_boundary time with
    | none => pure ()
    | some (venue,step,boundary) => do
      expire_due boundary.at_ns
      cross_boundary venue step boundary
      cross_boundaries time fuel

/-- Moves the run clock and applies everything due by then. -/
def catch_up (time : Nat) (sweep : Bool) : Engine Unit := do
  let events ← on_simulation (SimulationState.catch_up time sweep)
  emit (events.map EventPayload.Simulation)
  let t ← get
  cross_boundaries time t.run.boundaries_left
  expire_due time

/-! ### Submitting an order -/

/-- What a submission carries from its checks to its execution. -/
structure Ticket where
  limit : Option Int
  time_in_force : TimeInForcePolicy
  display : Option Int
  expires_at : Option Nat
  immediate : Bool
  call : Bool
  admission : Admission
  deriving DecidableEq

/-- The limit, lifetime, post-only flag and displayed quantity of an order. -/
def OrderKind.terms : OrderKind → Option Int × TimeInForcePolicy × Bool × Option Int
  | .Limit price => (some price,.Gtc,false,none)
  | .Market => (none,.Ioc,false,none)
  | .LimitWithPolicy price time_in_force post_only display => (some price,time_in_force,post_only,display)

/-- Immediate orders never rest. -/
def TimeInForcePolicy.immediate : TimeInForcePolicy → Bool
  | .Ioc | .Fok => true
  | _ => false

/-- The expiry of an order; one that is not later than `now` is refused. -/
def TimeInForcePolicy.expiry (now : Nat) : TimeInForcePolicy → Except RejectCode (Option Nat)
  | .Gtd expires_at => if expires_at ≤ now then .error .InvalidTimeInForce else .ok (some expires_at)
  | _ => .ok none

/-- A closed venue takes no orders; a call phase collects orders for its auction. -/
def SessionPhase.collects : SessionPhase → Except RejectCode Bool
  | .Closed => .error .MarketClosed
  | .PreOpen | .ClosingCall => .ok true
  | .Continuous => .ok false

def ListingDefinition.terms (definition : ListingDefinition) : ListingTerms :=
  ⟨definition.price_bounds,definition.fees.bound,definition.tick_size⟩

/-- The price that caps the cash of a market order. -/
def ListingDefinition.market_bound (definition : ListingDefinition) : Side → Int
  | .Buy => definition.price_bounds.max
  | .Sell => definition.price_bounds.min

/-- The checks of a submission, before it changes anything. -/
def screen (run : RunState) (listing : ListingState) (order : SubmitOrder) (key : ListingKey) (now : Nat) :
    Except RejectCode Ticket := do
  refuse (order.order_id = 0) RejectCode.InvalidOrderId
  refuse (run.ownership.contains order.order_id = true) RejectCode.DuplicateOrderId
  refuse (run.ownership.size - run.retired.length ≥ MAX_LIVE_ORDERS) RejectCode.MaxOpenOrderQuantity
  refuse (order.quantity ≤ 0) RejectCode.InvalidQuantity
  let participant ← orElse (run.participants.get? order.participant_id) RejectCode.ParticipantDisabled
  let (limit,time_in_force,post_only,display) := order.kind.terms
  let expires_at ← time_in_force.expiry now
  let immediate := time_in_force.immediate
  refuse (display.any (fun peak => peak ≤ 0 ∨ peak > order.quantity) = true ∨
    (immediate = true ∧ (post_only = true ∨ display.isSome = true))) RejectCode.InvalidTimeInForce
  let call ← (run.session_phase key.venue_id).collects
  refuse (call = true ∧ (limit = none ∨ immediate = true)) RejectCode.CallPhaseOrderType
  refuse (limit = none ∧ listing.book.best order.side.opposite = none) RejectCode.InsufficientLiquidity
  refuse (limit.any (fun price => listing.book.would_cross order.side price) = true ∧ post_only = true ∧ call = false)
    RejectCode.PostOnlyWouldCross
  let admission ← admit_order participant.limits participant.enabled order listing.definition.terms run.ledger
    (if limit = none then some (listing.definition.market_bound order.side) else none)
  (if immediate = true then pure ()
  else admit_live_order_count participant.limits (run.live_order_count order.participant_id) : Except RejectCode Unit)
  pure ⟨limit,time_in_force,display,expires_at,immediate,call,admission⟩

def SubmitOrder.owned (order : SubmitOrder) (key : ListingKey) (ticket : Ticket) : OwnedOrder where
  order_id := order.order_id
  participant_id := order.participant_id
  listing_key := key
  side := order.side
  limit_price := ticket.admission.reservation_price
  original_quantity := order.quantity
  remaining_quantity := order.quantity
  state := .Active
  reservation := ticket.admission.reservation
  expires_at := ticket.expires_at
  day := ticket.time_in_force = .Day
  anonymous := order.anonymous

/-- Reserves what an admitted order needs and records it as live. -/
def accept (order : SubmitOrder) (key : ListingKey) (ticket : Ticket) : Engine Unit := do
  posting Fault.accounting (Ledger.open_order order.participant_id order.instrument_id order.side order.quantity
    ticket.admission.reservation)
  modify_run (fun run => { run with ownership := run.ownership.insert order.order_id (order.owned key ticket) })
  let t ← get
  let count ← orElse (to_u32 (t.run.live_order_count order.participant_id + 1)) (Fault.overflow .OwnershipInvariant)
  modify_run (fun run => { run with live_orders := run.live_orders.insert order.participant_id count })
  emit [.OrderAccepted order.order_id]

/-- Nothing matches in a call phase, and a fill-or-kill order only if all of it can. -/
def fillable (book : Book) (order : SubmitOrder) (ticket : Ticket) : Bool :=
  ¬ ticket.call ∧ (ticket.time_in_force ≠ .Fok ∨ book.executable order.side ticket.limit ≥ order.quantity)

/-- Executes an accepted order on arrival and returns what is left of it. -/
def match_order (order : SubmitOrder) (key : ListingKey) (ticket : Ticket) : Engine Int := do
  let t ← get
  if fillable (t.run.book key) order ticket then do
    let (found,remaining) ← on_book key Fault.booking (Book.execute order.side ticket.limit order.quantity)
    settle_matches order.order_id key found
    pure remaining
  else pure order.quantity

/-- Rests what is left of a limit order. -/
def rest_remainder (order : SubmitOrder) (key : ListingKey) (ticket : Ticket) (price remaining : Int) :
    Engine Unit := do
  on_book key Fault.resting (Book.rest order.order_id order.side price remaining ticket.display)
  modify_run (fun run => { run with
    expiries := ticket.expires_at.elim run.expiries (fun time => run.expiries.insert (toLex (time,order.order_id)) ()) })
  emit [.OrderRested order.order_id order.participant_id order.instrument_id (some key) order.side price remaining]

/-- Cancels what is left of an order that does not rest. -/
def drop_remainder (order : SubmitOrder) (key : ListingKey) (ticket : Ticket) (remaining : Int) : Engine Unit := do
  posting Fault.accounting (Ledger.close_order order.participant_id order.instrument_id order.side remaining
    ticket.admission.reservation)
  let t ← get
  let owned ← orElse (t.run.ownership.get? order.order_id) (Fault.plain .OwnershipInvariant)
  modify_run (fun run => { run with ownership := run.ownership.insert order.order_id owned.canceled })
  emit [.OrderCanceled order.order_id order.participant_id order.instrument_id (some key) remaining
    (if ticket.limit = none then .MarketRemainder else .Expired)]

def settle_remainder (order : SubmitOrder) (key : ListingKey) (ticket : Ticket) (remaining : Int) : Engine Unit :=
  if remaining = 0 then emit [.OrderCompleted order.order_id]
  else
    match ticket.limit, ticket.immediate with
    | some price, false => rest_remainder order key ticket price remaining
    | _, _ => drop_remainder order key ticket remaining

/-- Admits, matches and rests or cancels one order. -/
def submit (order : SubmitOrder) (key : ListingKey) (now : Nat) : Engine (Except RejectCode Unit) := do
  let t ← get
  let listing ← orElse (t.run.listings.get? key) (Fault.plain .UnknownListing)
  match screen t.run listing order key now with
  | .error code => pure (.error code)
  | .ok ticket => do
    accept order key ticket
    let remaining ← match_order order key ticket
    settle_remainder order key ticket remaining
    pure (.ok ())

/-! ### Commands -/

/-- The owner of a retired order has one live order fewer. -/
def drop_live (order_id : OrderId) (run : RunState) : OrdMap ParticipantId Nat :=
  match run.ownership.get? order_id with
  | none => run.live_orders
  | some owned =>
    match run.live_orders.get? owned.participant_id with
    | none => run.live_orders
    | some count =>
      if count - 1 = 0 then run.live_orders.erase owned.participant_id
      else run.live_orders.insert owned.participant_id (count - 1)

/-- Retires a terminal order; the oldest retired orders leave the records first. -/
def retire (order_id : OrderId) (run : RunState) : RunState :=
  let retired := run.retired ++ [order_id]
  let excess := retired.length - MAX_RETIRED_ORDERS
  { run with
    live_orders := drop_live order_id run
    retired := retired.drop excess
    ownership := (retired.take excess).foldl OrdMap.erase run.ownership }

def EventPayload.terminal : EventPayload → Option OrderId
  | .OrderCompleted order_id => some order_id
  | .OrderCanceled order_id .. => some order_id
  | _ => none

/-- Projects one event and retires the order it ends. -/
def commit_payload (time : Nat) (payload : EventPayload) : Engine Unit := do
  let t ← get
  match t.run.simulation.project_event time payload with
  | .error e => throw (Fault.simulation e)
  | .ok simulation => do
    modify_run (fun run => { run with simulation })
    modify_run (fun run => payload.terminal.elim run (fun order_id => retire order_id run))

/-- The events of one command, numbered on from the run's last event. -/
def envelope (command : Command) (current : Nat) (payloads : List EventPayload) : Except Fault (List EventEnvelope) :=
  payloads.zipIdx.mapM (fun entry => do
    let sequence ← orElse (to_u64 (current + (entry.2 + 1))) (Fault.overflow .SequenceOverflow)
    pure {
      schema_version := EVENT_SCHEMA_VERSION
      run_id := command.run_id
      event_id := sequence
      sequence
      logical_time := command.logical_time
      actor := command.actor
      command_id := command.command_id
      correlation_id := command.correlation_id
      causation_sequence := none
      payload := entry.1 })

/-- What a command answers beside its events. -/
structure Answer where
  accepted : Bool
  reject_code : Option String
  order_id : Option OrderId

/-- Commits the events as the next run sequence. -/
def finish (command : Command) (next : Nat) (answer : Answer) : Engine Applied := do
  let t ← get
  forM t.payloads (commit_payload command.logical_time)
  let t ← get
  let events ← envelope command t.run.event_sequence t.payloads
  modify_run (fun run => { run with
    sequence := next
    event_sequence := events.getLast?.elim run.event_sequence EventEnvelope.sequence })
  pure ⟨events,answer.accepted,answer.reject_code,answer.order_id,t.changed⟩

/-- The answer to a command about one order; a rejection is an event too. -/
def answer_order (order_id : OrderId) : Except RejectCode Unit → Engine Answer
  | .ok _ => pure ⟨true,none,some order_id⟩
  | .error code => do
    emit [.OrderRejected (some order_id) code]
    pure ⟨false,some code.text,some order_id⟩

/-- An order reaches submission while the run is active, its owner has not
    switched itself off, and its instrument is not halted. -/
def submit_gated (order : SubmitOrder) (key : ListingKey) (now : Nat) : Engine (Except RejectCode Unit) := do
  let t ← get
  if t.run.simulation.lifecycle ≠ .Active then pure (.error .RunNotActive)
  else if t.run.kill_switched.contains order.participant_id then pure (.error .KillSwitchActive)
  else if t.run.simulation.halted_instruments.contains order.instrument_id then pure (.error .ListingHalted)
  else do
    touch key
    submit order key now

def submit_command (order : SubmitOrder) (key : Option ListingKey) (now : Nat) : Engine Answer := do
  let key ← orElse key (Fault.plain .UnknownListing)
  emit [.OrderReceived order (some key)]
  let outcome ← submit_gated order key now
  answer_order order.order_id outcome

def cancel_requested (request : CancelOrder) : Engine (Except RejectCode Unit) := do
  let t ← get
  match t.run.ownership.get? request.order_id with
  | none => pure (.error .UnknownOrder)
  | some owned =>
    if owned.participant_id ≠ request.participant_id then pure (.error .NotOrderOwner)
    else if owned.state ≠ .Active then pure (.error .UnknownOrder)
    else do
      touch owned.listing_key
      cancel request.order_id .Requested
      pure (.ok ())

/-- The records of the live orders that meet a condition. -/
def RunState.live_where (run : RunState) (p : OwnedOrder → Bool) : List (OrderId × OwnedOrder) :=
  run.ownership.entries.filter (fun entry => entry.2.state = .Active ∧ p entry.2)

def activate_kill_switch (participant : ParticipantId) : Engine Unit := do
  modify_run (fun run => { run with kill_switched := run.kill_switched.insert participant () })
  emit [.KillSwitchActivated]
  let t ← get
  let live := t.run.live_where (fun owned => owned.participant_id = participant)
  cancel_all .KillSwitch (live.map (fun entry => (entry.1,entry.2.listing_key)))

def reset_kill_switch (participant : ParticipantId) : Engine Unit := do
  modify_run (fun run => { run with kill_switched := run.kill_switched.erase participant })
  emit [.KillSwitchReset]

def perform (command : Command) (key : Option ListingKey) : Engine Answer :=
  match command.payload with
  | .SubmitOrder order | .SubmitOrderAtListing _ order => submit_command order key command.logical_time
  | .CancelOrder request => do
    let outcome ← cancel_requested request
    answer_order request.order_id outcome
  | .ActivateKillSwitch => do
    activate_kill_switch command.actor
    pure ⟨true,none,none⟩
  | .ResetKillSwitch => do
    reset_kill_switch command.actor
    pure ⟨true,none,none⟩

def apply_validated (command : Command) (next : Nat) (key : Option ListingKey) : Engine Applied := do
  catch_up command.logical_time false
  let answer ← perform command key
  finish command next answer

/-! ### Simulation requests -/

/-- The command that stands for a simulation request in its events. -/
def SimulationCommandRequest.metadata (request : SimulationCommandRequest) : Command :=
  ⟨request.run_id,request.command_id,request.correlation_id,request.logical_time,request.expected_sequence,
    request.actor,.ActivateKillSwitch⟩

def mass_cancel (participant : Option ParticipantId) (instrument : Option InstrumentId) : Engine Unit := do
  let t ← get
  let live := t.run.live_where (fun owned => participant.all (fun id => owned.participant_id = id) ∧
    instrument.all (fun id => owned.listing_key.instrument_id = id))
  let orders := live.map (fun entry => (entry.2.order_id,entry.2.listing_key))
  cancel_all .MassCancel orders
  emit [.Simulation (.MassCancelCompleted (orders.map Prod.fst))]

def simulate (request : SimulationCommandRequest) : Engine Unit := do
  let t ← get
  let events ← on_simulation
    (SimulationState.apply t.run.context request.actor request.logical_time request.payload)
  emit (events.map EventPayload.Simulation)
  -- Advancing the clock can pass expiries.
  let t ← get
  expire_due t.run.simulation.clock.now

def perform_simulation (request : SimulationCommandRequest) : Engine Unit :=
  match request.payload with
  | .MassCancel participant instrument => mass_cancel participant instrument
  | _ => simulate request

/-- A tick that moves the clock says so first. -/
def announce_tick (request : SimulationCommandRequest) : Engine Unit := do
  let t ← get
  emit (if request.payload = .ClockTick ∧ request.logical_time > t.run.simulation.clock.now then
    [.Simulation (.ClockAdvanced t.run.simulation.clock.now request.logical_time)] else [])

def apply_simulation_validated (request : SimulationCommandRequest) (next : Nat) : Engine Applied := do
  announce_tick request
  catch_up request.logical_time (request.payload = .ClockTick)
  perform_simulation request
  finish request.metadata next ⟨true,none,none⟩

/-! ### The boundary of the engine -/

/-- Clock ticks and mass cancels run in place where nothing is due. -/
def SimulationCommand.direct : SimulationCommand → Bool
  | .ClockTick | .MassCancel .. => true
  | _ => false

/-- Runs a transition on a copy of the run; a failure drops the copy. -/
def staged (m : Engine Applied) : EStateM ApplyError RunState Applied := fun run =>
  match m.run { run } with
  | .ok applied t => .ok applied t.run
  | .error fault _ => .error (.Unchanged fault) run

/-- Runs a transition on the run itself. -/
def in_place (m : Engine Applied) : EStateM ApplyError RunState Applied := fun run =>
  match m.run { run } with
  | .ok applied t => .ok applied t.run
  | .error fault t => .error (.Poisoned fault) t.run

/-- A check before the first change. -/
def unchanged {α : Type} (x : Except Fault α) : EStateM ApplyError RunState α := fun run =>
  match x with
  | .ok a => .ok a run
  | .error fault => .error (.Unchanged fault) run

namespace RunState

/-- Checks run identity and the expected sequence, and returns the next one. -/
def preflight (run : RunState) (run_id : RunId) (expected_sequence : Nat) : Except Fault Nat := do
  refuse (run.run_id ≠ run_id ∨ run.sequence ≠ expected_sequence) (Fault.plain (.SequenceConflict run.sequence))
  orElse (to_u64 (run.sequence + 1)) (Fault.overflow .SequenceOverflow)

/-- The listing a command is about. Listings are immutable, so it can be resolved first. -/
def resolve_listing (run : RunState) : CommandPayload → Except Fault (Option ListingKey)
  | .SubmitOrderAtListing key order => do
    refuse (key.instrument_id ≠ order.instrument_id ∨ run.listings.contains key = false) (Fault.plain .UnknownListing)
    pure (some key)
  | .SubmitOrder order => some <$> run.listing_key_for_instrument order.instrument_id
  | .CancelOrder _ | .ActivateKillSwitch | .ResetKillSwitch => pure none

def apply (command : Command) : EStateM ApplyError RunState Applied := do
  let run ← get
  let next ← unchanged (run.preflight command.run_id command.expected_sequence)
  let key ← unchanged (run.resolve_listing command.payload)
  refuse (command.logical_time < run.simulation.clock.now)
    (ApplyError.Unchanged (.simulation .LogicalTimeRegression))
  if run.simulation.has_due_actions command.logical_time then staged (apply_validated command next key)
  else in_place (apply_validated command next key)

def apply_simulation (request : SimulationCommandRequest) : EStateM ApplyError RunState Applied := do
  let run ← get
  let next ← unchanged (run.preflight request.run_id request.expected_sequence)
  refuse (request.logical_time < run.simulation.clock.now)
    (ApplyError.Unchanged (.simulation .LogicalTimeRegression))
  refuse (request.payload = .ClockTick ∧ run.simulation.lifecycle ≠ .Active)
    (ApplyError.Unchanged (.simulation .InvalidLifecycle))
  if request.payload.direct ∧ run.simulation.has_due_actions request.logical_time = false then
    in_place (apply_simulation_validated request next)
  else staged (apply_simulation_validated request next)

end RunState

end Bunting
