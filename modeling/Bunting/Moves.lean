import Bunting.Records
import Bunting.SimulationEffects

/-!
What a transition can do, one move at a time. A move names everything it writes
and the facts under which the engine makes it; every piece of a transition is a
sequence of moves. A transition is open until it calls an auction, and open
again once the auction is reported; when it has accepted an order it takes for
that order until it is complete, rests or is canceled.
-/

namespace Bunting
open Stateful

/-! ### Events -/

/-- What the sessions report: a venue enters a phase, it closes its day, every
    venue has closed. -/
inductive SessionEvent
  | Phase (venue : VenueId) (day : Nat) (phase : SessionPhase)
  | Closed (venue : VenueId) (day : Nat)
  | Settled (day : Nat)
  deriving DecidableEq

def SimulationEvent.session_event : SimulationEvent → Option SessionEvent
  | .SessionPhaseChanged venue day phase => some (.Phase venue day phase)
  | .DayClosed venue day _ => some (.Closed venue day)
  | .DaySettled day _ _ => some (.Settled day)
  | _ => none

theorem SimulationEvent.session_event_none {event : SimulationEvent} (own : event.session = false) :
    event.session_event = none := by
  cases event <;> first | rfl | cases own

namespace EventPayload

def posting : EventPayload → Option SimulationEvent
  | .Simulation event => if event.posts then some event else none
  | _ => none

def session_event : EventPayload → Option SessionEvent
  | .Simulation event => event.session_event
  | _ => none

/-- A trade names an instrument and a listing of it. -/
def Aligned : EventPayload → Prop
  | .TradeExecuted instrument (some key) .. => key.instrument_id = instrument
  | _ => True

/-- An event of the order flow. -/
def Routine (payload : EventPayload) : Prop :=
  payload.Aligned ∧ payload.posting = none ∧ payload.session_event = none

/-- An event that neither posts nor belongs to the sessions, nor says that an
    order was accepted, traded or ended. -/
def Quiet : EventPayload → Prop
  | .OrderAccepted _ | .OrderCompleted _ | .OrderCanceled .. | .TradeExecuted .. => False
  | .Simulation event => event.posts = false ∧ event.session = false
  | _ => True

theorem Quiet.terminal {payload : EventPayload} (quiet : payload.Quiet) : payload.terminal = none := by
  cases payload <;> first | rfl | exact quiet.elim

theorem Quiet.routine {payload : EventPayload} (quiet : payload.Quiet) : payload.Routine := by
  cases payload with
  | Simulation event =>
    obtain ⟨silent,own⟩ := quiet
    exact ⟨trivial,by simp [posting,silent],SimulationEvent.session_event_none own⟩
  | OrderAccepted _ | OrderCompleted _ | OrderCanceled _ _ _ _ _ _ | TradeExecuted _ _ _ _ _ _ _ _ _ _ => exact quiet.elim
  | _ => exact ⟨trivial,rfl,rfl⟩

end EventPayload

/-! ### What the moves write -/

def put_book (listings : OrdMap ListingKey ListingState) (key : ListingKey) (book : Book) :
    OrdMap ListingKey ListingState :=
  match listings.get? key with
  | none => listings
  | some listing => listings.insert key { listing with book }

/-- What an order reports of an execution. -/
def reported (owned : OwnedOrder) (quantity : Int) (id : OrderId) : List EventPayload :=
  [if owned.remaining_quantity = quantity then .OrderCompleted id else .OrderReduced id (owned.remaining_quantity - quantity)]

/-- The record of an order with some quantity left. -/
def OwnedOrder.left (remaining : Int) (owned : OwnedOrder) : OwnedOrder :=
  { owned with remaining_quantity := remaining, state := if remaining = 0 then .Filled else .Active }

namespace Transition

def put_book (t : Transition) (key : ListingKey) (book : Book) : Transition :=
  { t with run := { t.run with listings := Bunting.put_book t.run.listings key book } }

def canceled (t : Transition) (id : OrderId) (owned : OwnedOrder) (reason : CancelReason) (book : Book)
    (ledger : Ledger) : Transition :=
  { t with
    run := { t.run with
      listings := Bunting.put_book t.run.listings owned.listing_key book
      ledger
      expiries := drop_expiry owned.expires_at id t.run.expiries
      ownership := t.run.ownership.insert id owned.canceled }
    payloads := t.payloads ++ [.OrderCanceled id owned.participant_id owned.listing_key.instrument_id
      (some owned.listing_key) owned.remaining_quantity reason] }

def filled (t : Transition) (key : ListingKey) (maker_id taker_id : OrderId) (maker taker : OwnedOrder)
    (price quantity : Int) (auction : Bool) (ledger : Ledger) (trade : EventPayload) : Transition :=
  let expiries := expiries_after maker quantity maker_id t.run.expiries
  { t with
    run := { t.run with
      ledger
      day_trades := if t.run.calendar.isSome then t.run.day_trades.insert key price else t.run.day_trades
      ownership := (t.run.ownership.insert maker_id (maker.reduced quantity)).insert taker_id (taker.reduced quantity)
      expiries := if auction then expiries_after taker quantity taker_id expiries else expiries }
    payloads := t.payloads ++ reported maker quantity maker_id ++
      (if auction then reported taker quantity taker_id else []) ++ [trade] }

def accepted (t : Transition) (order : SubmitOrder) (key : ListingKey) (ticket : Ticket) (ledger : Ledger)
    (live_orders : OrdMap ParticipantId Nat) : Transition :=
  { t with
    run := { t.run with
      ledger
      ownership := t.run.ownership.insert order.order_id (order.owned key ticket)
      live_orders }
    payloads := t.payloads ++ [.OrderAccepted order.order_id] }

def rested (t : Transition) (order : SubmitOrder) (key : ListingKey) (ticket : Ticket) (price remaining : Int)
    (book : Book) : Transition :=
  { t with
    run := { t.run with
      listings := Bunting.put_book t.run.listings key book
      expiries := add_expiry ticket.expires_at order.order_id t.run.expiries }
    payloads := t.payloads ++
      [.OrderRested order.order_id order.participant_id order.instrument_id (some key) order.side price remaining] }

def dropped (t : Transition) (order : SubmitOrder) (key : ListingKey) (ticket : Ticket) (remaining : Int)
    (ledger : Ledger) : Transition :=
  { t with
    run := { t.run with
      ledger
      ownership := t.run.ownership.insert order.order_id ((order.owned key ticket).left remaining).canceled }
    payloads := t.payloads ++ [.OrderCanceled order.order_id order.participant_id order.instrument_id (some key) remaining
      (if ticket.limit = none then .MarketRemainder else .Expired)] }

def simulated (t : Transition) (world : World) (events : List SimulationEvent) : Transition :=
  { t with
    run := { t.run with simulation := world.sim, ledger := world.ledger }
    payloads := t.payloads ++ events.map EventPayload.Simulation }

end Transition

/-! ### What the moves rest on -/

structure Screened (run : RunState) (listing : ListingState) (order : SubmitOrder) (key : ListingKey) (now : Nat)
    (ticket : Ticket) : Prop where
  fresh : run.ownership.get? order.order_id = none
  room : run.ownership.size - run.retired.length < MAX_LIVE_ORDERS
  positive : 0 < order.quantity
  limit : ticket.limit = order.kind.limit
  expiry : ticket.time_in_force.expiry now = .ok ticket.expires_at
  peaks : ∀ peak ∈ ticket.display, 0 < peak ∧ peak ≤ order.quantity
  fok : ticket.time_in_force = .Fok → ticket.immediate = true
  collects : ticket.call = true → ticket.limit ≠ none ∧ ticket.immediate = false
  phase : (run.session_phase key.venue_id).collects = .ok ticket.call
  admitted : ∃ participant, run.participants.get? order.participant_id = some participant ∧
    admit_order participant.limits participant.enabled order listing.definition.terms run.ledger
      (if ticket.limit = none then some (listing.definition.market_bound order.side) else none) = .ok ticket.admission

/-- An execution between a maker and a taker, with the buyer and the seller read off the taker's side. -/
def Deals (ownership : OrdMap OrderId OwnedOrder) (key : ListingKey) (maker_id taker_id : OrderId)
    (maker taker : OwnedOrder) (price quantity : Int) : Prop :=
  match taker.side with
  | .Buy => Execution ownership key taker_id maker_id taker maker price quantity
  | .Sell => Execution ownership key maker_id taker_id maker taker price quantity

/-- What the ledger is given of an execution between a maker and a taker. -/
def deal_fill (setup : Setup) (key : ListingKey) (maker taker : OwnedOrder) (price quantity maker_fee taker_fee : Int) : Fill :=
  match taker.side with
  | .Buy => execution_fill setup key taker maker price quantity taker_fee maker_fee
  | .Sell => execution_fill setup key maker taker price quantity maker_fee taker_fee

/-- How an execution between a maker and a taker is reported. -/
def deal_trade (key : ListingKey) (maker_id taker_id : OrderId) (maker taker : OwnedOrder)
    (price quantity maker_fee taker_fee : Int) : EventPayload :=
  match taker.side with
  | .Buy => .TradeExecuted key.instrument_id (some key) maker_id taker_id taker.participant_id maker.participant_id price
    quantity taker_fee maker_fee
  | .Sell => .TradeExecuted key.instrument_id (some key) maker_id taker_id maker.participant_id taker.participant_id price
    quantity maker_fee taker_fee

theorem deal_trade_eq (key : ListingKey) (maker_id taker_id : OrderId) (maker taker : OwnedOrder)
    (price quantity maker_fee taker_fee : Int) :
    ∃ buyer seller buyer_fee seller_fee, deal_trade key maker_id taker_id maker taker price quantity maker_fee taker_fee =
      .TradeExecuted key.instrument_id (some key) maker_id taker_id buyer seller price quantity buyer_fee seller_fee := by
  unfold deal_trade
  cases taker.side <;> exact ⟨_,_,_,_,rfl⟩

/-- An execution of two live orders that the ledger accepted. In continuous
    trading it is at the price of the order that rested. -/
structure Dealt (setup : Setup) (t : Transition) (key : ListingKey) (maker_id taker_id : OrderId) (maker taker : OwnedOrder)
    (price quantity : Int) (auction : Bool) (ledger : Ledger) (trade : EventPayload) : Prop where
  deals : Deals t.run.ownership key maker_id taker_id maker taker price quantity
  positive : 0 < quantity
  grid : setup.OnGrid key price
  maker_admitted : Admitted setup maker
  taker_admitted : Admitted setup taker
  resting : auction = false → price = maker.limit_price
  settled : ∃ D maker_fee taker_fee, setup.definitions.get? key = some D ∧ maker_fee ≤ D.fees.bound * quantity ∧
    taker_fee ≤ D.fees.bound * quantity ∧
    (Ledger.settle (deal_fill setup key maker taker price quantity maker_fee taker_fee)).run t.run.ledger = .ok () ledger ∧
    trade = deal_trade key maker_id taker_id maker taker price quantity maker_fee taker_fee

inductive Mode
  | Open
  | Calling (key : ListingKey) (price : Int)
  | Taking (order : SubmitOrder)
  | Taken (order : SubmitOrder)

def Mode.order : Mode → Option SubmitOrder
  | .Taking order | .Taken order => some order
  | _ => none

/-- The executions of a mode: the crosses of the auction called, or the matches of the order taken for. -/
def Mode.Fills : Mode → ListingKey → OrderId → Int → Bool → Prop
  | .Open,_,_,_,_ | .Taken _,_,_,_,_ => False
  | .Calling key price,at_key,_,at_price,auction => auction = true ∧ at_key = key ∧ at_price = price
  | .Taking order,_,taker_id,_,auction => auction = false ∧ taker_id = order.order_id

inductive Move (setup : Setup) (base : SimulationState) (now : Nat) : Mode × Transition → Mode × Transition → Prop
  | touched {mode t} (changed : OrdSet ListingKey) : Move setup base now (mode,t) (mode,{ t with changed })
  | emitted {mode t payloads} (quiet : ∀ payload ∈ payloads, payload.Quiet) :
      Move setup base now (mode,t) (mode,{ t with payloads := t.payloads ++ payloads })
  | simulated {mode t w events}
      (posted : External setup (events.flatMap (SimulationEvent.entries setup.terms base)) t.run.ledger w.ledger)
      (own : events.all (fun event => !event.session) = true) : Move setup base now (mode,t) (mode,t.simulated w events)
  | canceled {mode t id owned reason listing resting book ledger} (found : t.run.ownership.get? id = some owned)
      (live : owned.state = .Active) (known : t.run.listings.get? owned.listing_key = some listing)
      (cancels : Book.cancel id listing.book = (some resting,book)) (view : book.view = listing.book.view.set id none)
      (closes : (Ledger.close_order owned.participant_id owned.listing_key.instrument_id owned.side owned.remaining_quantity
        owned.reservation).run t.run.ledger = .ok () ledger) :
      Move setup base now (mode,t) (mode,t.canceled id owned reason book ledger)
  | filled {mode t key maker_id taker_id maker taker price quantity auction ledger trade}
      (fills : mode.Fills key taker_id price auction)
      (dealt : Dealt setup t key maker_id taker_id maker taker price quantity auction ledger trade) :
      Move setup base now (mode,t) (mode,t.filled key maker_id taker_id maker taker price quantity auction ledger trade)
  | executed {order t key listing book side limit quantity left found} (known : t.run.listings.get? key = some listing)
      (executed : Book.Executed side limit quantity left found listing.book book) :
      Move setup base now (.Taking order,t) (.Taking order,t.put_book key book)
  | uncrossed {t key listing book price volume reference crosses} (known : t.run.listings.get? key = some listing)
      (priced : listing.book.auction_price reference = some (price,volume))
      (ran : (Book.uncross price).run listing.book = .ok crosses book) :
      Move setup base now (.Open,t) (.Calling key price,t.put_book key book)
  | called {t key price} (volume : Int) : Move setup base now (.Calling key price,t)
      (.Open,{ t with payloads := t.payloads ++ [.Simulation (.AuctionUncrossed key price volume)] })
  | accepted {t listing order key ticket ledger} (screened : Screened t.run listing order key now ticket)
      (known : t.run.listings.get? key = some listing) (at_key : key.instrument_id = order.instrument_id)
      (opens : (Ledger.open_order order.participant_id order.instrument_id order.side order.quantity
        ticket.admission.reservation).run t.run.ledger = .ok () ledger) :
      Move setup base now (.Open,t) (.Taking order,t.accepted order key ticket ledger
        (t.run.live_orders.insert order.participant_id ((t.run.live_orders.get? order.participant_id).getD 0 + 1)))
  | completed {t order owned} (found : t.run.ownership.get? order.order_id = some owned) (spent : owned.state = .Filled) :
      Move setup base now (.Taking order,t)
        (.Taken order,{ t with payloads := t.payloads ++ [.OrderCompleted order.order_id] })
  | rested {t listing order key ticket price remaining book} (known : t.run.listings.get? key = some listing)
      (found : t.run.ownership.get? order.order_id = some ((order.owned key ticket).left remaining))
      (limit : order.kind.limit = some price) (priced : (order.owned key ticket).limit_price = price)
      (clear : (t.run.session_phase key.venue_id).collects = .ok true ∨
        Book.Exhausted order.side (some price) listing.book)
      (rests : (Book.rest order.order_id order.side price remaining ticket.display).run listing.book = .ok () book) :
      Move setup base now (.Taking order,t) (.Taken order,t.rested order key ticket price remaining book)
  | dropped {t order key ticket remaining ledger} (positive : 0 < remaining)
      (found : t.run.ownership.get? order.order_id = some ((order.owned key ticket).left remaining))
      (closes : (Ledger.close_order order.participant_id order.instrument_id order.side remaining
        ticket.admission.reservation).run t.run.ledger = .ok () ledger) :
      Move setup base now (.Taking order,t) (.Taken order,t.dropped order key ticket remaining ledger)
  | switched {mode t} (kill_switched : OrdSet ParticipantId) :
      Move setup base now (mode,t) (mode,{ t with run := { t.run with kill_switched } })
  | marked {mode t} (marks : OrdMap InstrumentId Int) :
      Move setup base now (mode,t) (mode,{ t with run := { t.run with ledger := { t.run.ledger with marks } } })
  | closed {mode t} (day_trades closes : OrdMap ListingKey Int) :
      Move setup base now (mode,t) (mode,{ t with run := { t.run with day_trades, closes } })
  | passed {mode t calendar venue step boundary} (has : setup.calendar = some calendar)
      (at_step : t.run.session_steps.get? venue = some step) (crosses : calendar.boundary venue step = some boundary)
      (due : boundary.at_ns ≤ now) : Move setup base now (mode,t)
        (mode,{ t with run := { t.run with session_steps := t.run.session_steps.insert venue (step + 1) } })
  | announced {mode t event label} (tells : SimulationEvent.session_event event = some label) :
      Move setup base now (mode,t) (mode,{ t with payloads := t.payloads ++ [.Simulation event] })

def Moves (setup : Setup) (base : SimulationState) (now : Nat) : Mode × Transition → Mode × Transition → Prop :=
  Relation.ReflTransGen (Move setup base now)

end Bunting
