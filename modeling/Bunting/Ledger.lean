import Bunting.Stateful
import Bunting.MarketTypes

/-!
The authoritative ledger of a run: cash, positions, reservations of open orders,
fees, marks and average-cost profit. Each operation stages its new balances and
checks them before it writes any.
-/

namespace Bunting
open Stateful

inductive LedgerError
  | ArithmeticOverflow
  | InvalidRelease
  | InvalidPosting
  | UnknownInstrument
  | InsufficientCash
  | InsufficientInventory
  | MissingFxRate
  deriving DecidableEq

/-- Immutable economic terms of one instrument, shared by all of its listings. -/
structure InstrumentTerms where
  currency : CurrencyId
  multiplier : Int
  shortable : Bool
  deriving DecidableEq

/-- Converts one currency into the reporting currency through an instrument's mark. -/
structure FxRate where
  currency : CurrencyId
  instrument_id : InstrumentId
  minor_units_per_lot : Int
  deriving DecidableEq

/-- Cash of one participant in one currency. -/
structure CashBalance where
  balance : Int := 0
  reserved : Int := 0
  fees : Int := 0
  deriving DecidableEq

/-- Cash not reserved by open orders. -/
def CashBalance.available (cash : CashBalance) : Option Int := to_i128 (cash.balance - cash.reserved)

/-- Position of one participant in one instrument. -/
structure Position where
  quantity : Int := 0
  reserved : Int := 0
  open_buy : Int := 0
  open_sell : Int := 0
  cost_basis : Int := 0
  realized_pnl : Int := 0
  traded : Int := 0
  deriving DecidableEq

/-- Inventory not reserved by open sell orders. -/
def Position.available (position : Position) : Option Int := to_i64 (position.quantity - position.reserved)

/-- What one open order holds, released exactly on fill or cancel. -/
structure Reservation where
  cash_per_lot : Int
  inventory : Bool
  deriving DecidableEq

def Reservation.NONE : Reservation := ⟨0,false⟩

/-- One side of a fill. -/
structure FillParty where
  participant : ParticipantId
  fee : Int
  order : Option Reservation
  enforce_funding : Bool
  deriving DecidableEq

/-- One exact economic fill; a party that is `none` is the house. -/
structure Fill where
  instrument : InstrumentId
  price : Int
  quantity : Int
  buyer : Option FillParty
  seller : Option FillParty
  set_mark : Bool
  deriving DecidableEq

structure Ledger where
  terms : OrdMap InstrumentId InstrumentTerms := ∅
  cash : OrdMap (ParticipantId ×ₗ CurrencyId) CashBalance := ∅
  positions : OrdMap (ParticipantId ×ₗ InstrumentId) Position := ∅
  marks : OrdMap InstrumentId Int := ∅
  deriving DecidableEq

def overflow {α : Type} (value : Option α) : Except LedgerError α := orElse value LedgerError.ArithmeticOverflow

def negate (value : Int) : Except LedgerError Int := overflow (to_i128 (-value))

/-- Exact price times quantity times multiplier. -/
def notional (price quantity multiplier : Int) : Except LedgerError Int :=
  overflow ((to_i128 (price * quantity)).bind (fun value => to_i128 (value * multiplier)))

def per_lot_total (per_lot quantity : Int) : Except LedgerError Int := overflow (to_i128 (per_lot * quantity))

namespace Ledger

def terms_of (ledger : Ledger) (instrument : InstrumentId) : Except LedgerError InstrumentTerms :=
  orElse (ledger.terms.get? instrument) LedgerError.UnknownInstrument

def cash_of (ledger : Ledger) (participant : ParticipantId) (currency : CurrencyId) : CashBalance :=
  (ledger.cash.get? (toLex (participant,currency))).getD {}

/-- Every currency balance of one participant in currency order. -/
def cash_balances (ledger : Ledger) (participant : ParticipantId) : List (CurrencyId × CashBalance) :=
  (ledger.cash.entries.filter (fun e => (ofLex e.1).1 = participant)).map (fun e => ((ofLex e.1).2,e.2))

def position_of (ledger : Ledger) (participant : ParticipantId) (instrument : InstrumentId) : Position :=
  (ledger.positions.get? (toLex (participant,instrument))).getD {}

/-- Every position of one participant in instrument order. -/
def positions_of (ledger : Ledger) (participant : ParticipantId) : List (InstrumentId × Position) :=
  (ledger.positions.entries.filter (fun e => (ofLex e.1).1 = participant)).map (fun e => ((ofLex e.1).2,e.2))

def mark (ledger : Ledger) (instrument : InstrumentId) : Option Int := ledger.marks.get? instrument

/-- Registers immutable instrument terms at run creation. -/
def configure_instrument (instrument : InstrumentId) (terms : InstrumentTerms) : EStateM LedgerError Ledger Unit := do
  refuse (instrument = 0 ∨ terms.currency = 0 ∨ terms.multiplier ≤ 0) LedgerError.InvalidPosting
  modify (fun ledger => { ledger with terms := ledger.terms.insert instrument terms })

/-- Sets the committed valuation mark of an instrument. -/
def set_mark (instrument : InstrumentId) (mark : Int) : EStateM LedgerError Ledger Unit := do
  let ledger ← get
  let _ ← ledger.terms_of instrument
  refuse (mark ≤ 0) LedgerError.InvalidPosting
  set { ledger with marks := ledger.marks.insert instrument mark }

/-- Posts a signed external cashflow. -/
def post_cash (participant : ParticipantId) (currency : CurrencyId) (amount : Int) :
    EStateM LedgerError Ledger Unit := do
  refuse (currency = 0) LedgerError.InvalidPosting
  let ledger ← get
  let entry := ledger.cash_of participant currency
  let balance ← overflow (to_i128 (entry.balance + amount))
  set { ledger with cash := ledger.cash.insert (toLex (participant,currency)) { entry with balance } }

/-- Seeds an opening position with an explicit signed cost basis. -/
def seed_position (participant : ParticipantId) (instrument : InstrumentId) (quantity cost_basis : Int) :
    EStateM LedgerError Ledger Unit := do
  let ledger ← get
  let _ ← ledger.terms_of instrument
  let entry := ledger.position_of participant instrument
  set { ledger with
    positions := ledger.positions.insert (toLex (participant,instrument)) { entry with quantity, cost_basis } }

/-- Cash reserved per lot for a buy at `price` with the given fee bound. -/
def cash_per_lot (ledger : Ledger) (instrument : InstrumentId) (price fee_per_lot : Int) : Except LedgerError Int := do
  let terms ← ledger.terms_of instrument
  let lot ← notional price 1 terms.multiplier
  overflow (to_i128 (lot + max fee_per_lot 0))

/-- The open quantity and cash reservation of a buy order, opened or closed. -/
def change_open_buy (quantity delta : Int) (reservation : Reservation) (opening : Bool) (position : Position)
    (cash : CashBalance) : Except LedgerError (Position × CashBalance) := do
  let open_buy ← overflow (to_i64 (position.open_buy + delta))
  let amount ← per_lot_total reservation.cash_per_lot quantity
  let reserved ← overflow (to_i128 (if opening then cash.reserved + amount else cash.reserved - amount))
  refuse (reserved < 0) LedgerError.InvalidRelease
  let cash := { cash with reserved }
  if opening then
    let available ← overflow cash.available
    refuse (available < 0) LedgerError.InsufficientCash
    pure ({ position with open_buy },cash)
  else
    pure ({ position with open_buy },cash)

/-- The open quantity and inventory reservation of a sell order, opened or closed. -/
def change_open_sell (delta : Int) (reservation : Reservation) (opening : Bool) (position : Position) :
    Except LedgerError Position := do
  let open_sell ← overflow (to_i64 (position.open_sell + delta))
  if reservation.inventory then
    let reserved ← overflow (to_i64 (position.reserved + delta))
    refuse (reserved < 0) LedgerError.InvalidRelease
    let position := { position with open_sell, reserved }
    if opening then
      let available ← overflow position.available
      refuse (available < 0) LedgerError.InsufficientInventory
      pure position
    else
      pure position
  else
    pure { position with open_sell }

def change_account (side : Side) (quantity delta : Int) (reservation : Reservation) (opening : Bool)
    (position : Position) (cash : CashBalance) : Except LedgerError (Position × CashBalance) :=
  match side with
  | .Buy => change_open_buy quantity delta reservation opening position cash
  | .Sell => do
    let position ← change_open_sell delta reservation opening position
    pure (position,cash)

def change_open (participant : ParticipantId) (instrument : InstrumentId) (side : Side) (quantity : Int)
    (reservation : Reservation) (opening : Bool) : EStateM LedgerError Ledger Unit := do
  let ledger ← get
  let terms ← ledger.terms_of instrument
  refuse (quantity ≤ 0) LedgerError.InvalidPosting
  let position := ledger.position_of participant instrument
  let cash := ledger.cash_of participant terms.currency
  let delta ← overflow (if opening then some quantity else to_i64 (0 - quantity))
  let changed ← change_account side quantity delta reservation opening position cash
  refuse (changed.1.open_buy < 0 ∨ changed.1.open_sell < 0) LedgerError.InvalidRelease
  set { ledger with
    positions := ledger.positions.insert (toLex (participant,instrument)) changed.1
    cash := ledger.cash.insert (toLex (participant,terms.currency)) changed.2 }

/-- Admits an open order: reserves its cash or inventory and records open quantity. -/
def open_order (participant : ParticipantId) (instrument : InstrumentId) (side : Side) (quantity : Int)
    (reservation : Reservation) : EStateM LedgerError Ledger Unit :=
  change_open participant instrument side quantity reservation true

/-- Releases the unfilled remainder of an order on cancel or expiry. -/
def close_order (participant : ParticipantId) (instrument : InstrumentId) (side : Side) (quantity : Int)
    (reservation : Reservation) : EStateM LedgerError Ledger Unit :=
  change_open participant instrument side quantity reservation false

/-- Applies a signed execution delta with proportional average-cost
    realization. Divisions round toward zero. -/
def apply_fill (position : Position) (delta price multiplier : Int) : Except LedgerError Position := do
  let old_qty := position.quantity
  let next_qty ← overflow (to_i64 (old_qty + delta))
  let closed : Int :=
    if (old_qty > 0 ∧ delta < 0) ∨ (old_qty < 0 ∧ delta > 0) then min |old_qty| |delta| else 0
  let closed_delta := if old_qty > 0 then -closed else closed
  let unit ← overflow (to_i128 (price * multiplier))
  let old_basis := position.cost_basis
  let removed_basis ←
    (if closed = 0 then pure 0 else (·.tdiv |old_qty|) <$> overflow (to_i128 (old_basis * closed)) : Except LedgerError Int)
  let realized ← overflow ((to_i128 (closed_delta * unit)).bind (fun flow => (to_i128 (-flow)).bind (fun flow =>
    to_i128 (flow - removed_basis))))
  let opened_delta ← overflow (to_i128 (delta - closed_delta))
  let opened_basis ← overflow (to_i128 (opened_delta * unit))
  let new_basis ← overflow ((to_i128 (old_basis - removed_basis)).bind (fun value => to_i128 (value + opened_basis)))
  let realized_pnl ← overflow (to_i128 (position.realized_pnl + realized))
  pure { position with quantity := next_qty, cost_basis := new_basis, realized_pnl }

/-- The reservation of a buy order without its filled part. -/
def release_buy (quantity : Int) (order : Reservation) (balance : CashBalance) (position : Position) :
    Except LedgerError (CashBalance × Position) := do
  let open_buy ← overflow (to_i64 (position.open_buy - quantity))
  let total ← per_lot_total order.cash_per_lot quantity
  let reserved ← overflow (to_i128 (balance.reserved - total))
  pure ({ balance with reserved },{ position with open_buy })

/-- The reservation of a sell order without its filled part. -/
def release_sell (quantity : Int) (order : Reservation) (balance : CashBalance) (position : Position) :
    Except LedgerError (CashBalance × Position) := do
  let open_sell ← overflow (to_i64 (position.open_sell - quantity))
  if order.inventory then
    let reserved ← overflow (to_i64 (position.reserved - quantity))
    pure (balance,{ position with open_sell, reserved })
  else
    pure (balance,{ position with open_sell })

/-- Releases the filled part of the order a party had open. -/
def release (side : Side) (quantity : Int) (order : Option Reservation) (balance : CashBalance)
    (position : Position) : Except LedgerError (CashBalance × Position) :=
  match order with
  | none => pure (balance,position)
  | some order => do
    let released ← (match side with
      | .Buy => release_buy quantity order balance position
      | .Sell => release_sell quantity order balance position : Except LedgerError (CashBalance × Position))
    refuse (released.2.open_buy < 0 ∨ released.2.open_sell < 0 ∨ released.2.reserved < 0 ∨ released.1.reserved < 0)
      LedgerError.InvalidRelease
    pure released

/-- The cash a side receives and the lots it receives. -/
def settle_flow (side : Side) (value quantity : Int) : Except LedgerError (Int × Int) :=
  match side with
  | .Buy => do
    let flow ← negate value
    pure (flow,quantity)
  | .Sell => do
    let delta ← overflow (to_i64 (0 - quantity))
    pure (value,delta)

/-- A buyer whose funding is enforced keeps its cash available, a seller of an
    instrument that cannot be shorted its inventory. -/
def check_funding (terms : InstrumentTerms) (side : Side) (party : FillParty) (balance : CashBalance)
    (position : Position) : Except LedgerError Unit :=
  match side with
  | .Buy =>
    if party.enforce_funding then do
      let available ← overflow balance.available
      refuse (available < 0) LedgerError.InsufficientCash
    else pure ()
  | .Sell =>
    if terms.shortable then pure ()
    else do
      let available ← overflow position.available
      refuse (available < 0) LedgerError.InsufficientInventory

/-- One side of a fill on the account of its party. -/
def settle_leg (terms : InstrumentTerms) (value : Int) (fill : Fill) (side : Side) (party : FillParty)
    (balance : CashBalance) (position : Position) : Except LedgerError (CashBalance × Position) := do
  let released ← release side fill.quantity party.order balance position
  let moved ← settle_flow side value fill.quantity
  let total ← overflow ((to_i128 (released.1.balance + moved.1)).bind (fun value => to_i128 (value - party.fee)))
  let fees ← overflow (to_i128 (released.1.fees + party.fee))
  let filled ← apply_fill released.2 moved.2 fill.price terms.multiplier
  let traded ← overflow (to_i64 (filled.traded + fill.quantity))
  let balance := { released.1 with balance := total, fees }
  let position := { filled with traded }
  check_funding terms side party balance position
  pure (balance,position)

/-- Accounts a fill has staged and not written yet. -/
structure Staged where
  cash : OrdMap ParticipantId CashBalance := ∅
  positions : OrdMap ParticipantId Position := ∅

def settle_party (ledger : Ledger) (terms : InstrumentTerms) (value : Int) (fill : Fill) (side : Side)
    (party : Option FillParty) (staged : Staged) : Except LedgerError Staged :=
  match party with
  | none => pure staged
  | some party => do
    let balance := (staged.cash.get? party.participant).getD (ledger.cash_of party.participant terms.currency)
    let position :=
      (staged.positions.get? party.participant).getD (ledger.position_of party.participant fill.instrument)
    let account ← settle_leg terms value fill side party balance position
    pure ⟨staged.cash.insert party.participant account.1,staged.positions.insert party.participant account.2⟩

/-- Settles one fill atomically: releases the filled part of each party's
    reservation, moves notional cash and fees, and updates positions. -/
def settle (fill : Fill) : EStateM LedgerError Ledger Unit := do
  let ledger ← get
  let terms ← ledger.terms_of fill.instrument
  refuse (fill.quantity ≤ 0 ∨ fill.price ≤ 0) LedgerError.InvalidPosting
  let value ← notional fill.price fill.quantity terms.multiplier
  let staged ← settle_party ledger terms value fill .Buy fill.buyer {}
  let staged ← settle_party ledger terms value fill .Sell fill.seller staged
  set { ledger with
    cash := ledger.cash.extend (fun participant => toLex (participant,terms.currency)) staged.cash
    positions := ledger.positions.extend (fun participant => toLex (participant,fill.instrument)) staged.positions
    marks := if fill.set_mark then ledger.marks.insert fill.instrument fill.price else ledger.marks }

/-- The holding a conversion takes its input from, and the cost basis it removes. -/
def convert_input (ledger : Ledger) (participant : ParticipantId) (instrument : InstrumentId) (quantity : Int) :
    Except LedgerError (Position × Int) := do
  let _ ← ledger.terms_of instrument
  let position := ledger.position_of participant instrument
  refuse (quantity ≤ 0) LedgerError.InsufficientInventory
  let available ← overflow position.available
  refuse (available < quantity) LedgerError.InsufficientInventory
  let transferred ←
    (if position.quantity > 0 then (·.tdiv position.quantity) <$> overflow (to_i128 (position.cost_basis * quantity))
    else pure 0 : Except LedgerError Int)
  let cost_basis ← overflow (to_i128 (position.cost_basis - transferred))
  let quantity ← overflow (to_i64 (position.quantity - quantity))
  pure ({ position with cost_basis, quantity },transferred)

/-- The positions without the input, and the cost basis it carried. -/
def convert_taken (ledger : Ledger) (participant : ParticipantId) (input : Option (InstrumentId × Int)) :
    Except LedgerError (OrdMap (ParticipantId ×ₗ InstrumentId) Position × Int) :=
  match input with
  | none => pure (ledger.positions,0)
  | some (instrument,quantity) => do
    let holding ← ledger.convert_input participant instrument quantity
    pure (ledger.positions.insert (toLex (participant,instrument)) holding.1,holding.2)

/-- The positions with the output. Its holding is read after the input was taken from it. -/
def convert_given (ledger : Ledger) (participant : ParticipantId) (output : Option (InstrumentId × Int))
    (taken : OrdMap (ParticipantId ×ₗ InstrumentId) Position × Int) :
    Except LedgerError (OrdMap (ParticipantId ×ₗ InstrumentId) Position) :=
  match output with
  | none => pure taken.1
  | some (instrument,quantity) => do
    let _ ← ledger.terms_of instrument
    refuse (quantity ≤ 0) LedgerError.InvalidPosting
    let position := (taken.1.get? (toLex (participant,instrument))).getD {}
    let quantity ← overflow (to_i64 (position.quantity + quantity))
    let cost_basis ← overflow (to_i128 (position.cost_basis + taken.2))
    pure (taken.1.insert (toLex (participant,instrument)) { position with quantity, cost_basis })

/-- Converts `input` units of one instrument into `output` units of another
    without cash, transferring the removed cost basis to the output holding. -/
def convert (participant : ParticipantId) (input output : Option (InstrumentId × Int)) :
    EStateM LedgerError Ledger Unit := do
  let ledger ← get
  let taken ← ledger.convert_taken participant input
  let positions ← ledger.convert_given participant output taken
  set { ledger with positions }

/-! ### Valuation -/

/-- Marked value of one position; without a mark it is carried at cost. -/
def position_value (ledger : Ledger) (instrument : InstrumentId) (position : Position) : Except LedgerError Int := do
  let terms ← ledger.terms_of instrument
  match ledger.mark instrument with
  | none => pure position.cost_basis
  | some mark => notional mark position.quantity terms.multiplier

/-- Cash plus the marked value of the positions settling in one currency. -/
def net_liquidation_value (ledger : Ledger) (participant : ParticipantId) (currency : CurrencyId) :
    Except LedgerError Int :=
  (ledger.positions_of participant).foldlM (fun total entry => do
    let terms ← ledger.terms_of entry.1
    if terms.currency = currency then
      let value ← ledger.position_value entry.1 entry.2
      overflow (to_i128 (total + value))
    else pure total) (ledger.cash_of participant currency).balance

/-- The currencies one participant holds cash or positions in, in order. -/
def held_currencies (ledger : Ledger) (participant : ParticipantId) : Except LedgerError (List CurrencyId) := do
  let settled ← (ledger.positions_of participant).mapM (fun entry => (·.currency) <$> ledger.terms_of entry.1)
  let all := (ledger.cash_balances participant).map Prod.fst ++ settled
  pure (OrdMap.ofList (all.map (fun currency => (currency,())))).keys

/-- An amount of a foreign currency in the reporting currency. -/
def convert_value (ledger : Ledger) (rates : List FxRate) (currency : CurrencyId) (value : Int) :
    Except LedgerError Int := do
  let rate ← orElse (rates.find? (fun rate => rate.currency = currency)) LedgerError.MissingFxRate
  let mark ← orElse (ledger.mark rate.instrument_id) LedgerError.MissingFxRate
  refuse (rate.minor_units_per_lot ≤ 0) LedgerError.MissingFxRate
  (·.tdiv rate.minor_units_per_lot) <$> overflow (to_i128 (value * mark))

/-- Net liquidation value converted into one reporting currency. A held
    currency without a rate fails. -/
def reporting_value (ledger : Ledger) (participant : ParticipantId) (reporting : CurrencyId) (rates : List FxRate) :
    Except LedgerError Int := do
  let currencies ← ledger.held_currencies participant
  currencies.foldlM (fun total currency => do
    let value ← ledger.net_liquidation_value participant currency
    let converted ←
      (if currency = reporting then pure value
      else if value = 0 then pure 0
      else ledger.convert_value rates currency value : Except LedgerError Int)
    overflow (to_i128 (total + converted))) 0

end Ledger

end Bunting
