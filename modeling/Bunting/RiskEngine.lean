import Bunting.MarketEvents
import Bunting.Settlement

/-!
Pre-trade admission over the ledger, and what it promises to the ledger.
Admission asks a cash-constrained buyer for the cash of the order and an
unconstrained buyer for none; `Ledger.open_order` asks every buyer to have no
negative cash available.
-/

namespace Bunting
open Stateful

/-- Per-participant admission limits pinned by the scenario. -/
structure RiskLimits where
  max_order_quantity : Int
  max_open_order_quantity : Int
  max_absolute_position : Int
  cash_constrained : Bool := true
  max_live_orders : Nat := 4294967295
  deriving DecidableEq

/-- Rejects a new order of a participant that holds its maximum of live orders. -/
def admit_live_order_count (limits : RiskLimits) (live_orders : Nat) : Except RejectCode Unit :=
  if live_orders ≥ limits.max_live_orders then .error .MaxLiveOrders else .ok ()

/-- Listing facts needed to admit one order. -/
structure ListingTerms where
  price_bounds : PriceBounds
  fee_bound : Int
  tick_size : Int
  deriving DecidableEq

/-- The price that bounds the order's cash use and the reservation the ledger
    holds while the order is open. -/
structure Admission where
  reservation_price : Int
  reservation : Reservation
  deriving DecidableEq

/-- The price an order is admitted at: its own limit, on the listing's grid, or the bound of a market order. -/
def admit_price (kind : OrderKind) (listing : ListingTerms) (market_reservation_price : Option Int) :
    Except RejectCode Int :=
  match kind with
  | .Limit price | .LimitWithPolicy price .. =>
    match listing.price_bounds.validate price with
    | .error _ => .error .PriceOutOfBounds
    | .ok _ => if listing.tick_size > 1 ∧ price.tmod listing.tick_size ≠ 0 then .error .PriceNotOnTick else .ok price
  | .Market => orElse market_reservation_price RejectCode.InsufficientLiquidity

/-- The largest position, on the order's side, that its open orders can leave. -/
def worst_case (side : Side) (quantity : Int) (position : Position) : Option Int :=
  match side with
  | .Buy => (to_i64 (position.quantity + position.open_buy)).bind (fun value => to_i64 (value + quantity))
  | .Sell => (to_i64 (position.quantity - position.open_sell)).bind (fun value => to_i64 (value - quantity))

/-- The cash of a buy order against the cash available. -/
def admit_cash (order : SubmitOrder) (listing : ListingTerms) (ledger : Ledger) (currency : CurrencyId) (price : Int) :
    Except RejectCode Reservation :=
  match ledger.cash_per_lot order.instrument_id price listing.fee_bound with
  | .error _ => .error .ArithmeticOverflow
  | .ok cash_per_lot => do
    let required ← orElse (to_i128 (cash_per_lot * order.quantity)) RejectCode.ArithmeticOverflow
    let available ← orElse (ledger.cash_of order.participant_id currency).available RejectCode.ArithmeticOverflow
    refuse (available < required) RejectCode.InsufficientCash
    pure ⟨cash_per_lot,false⟩

/-- The inventory of a sell order against the inventory available. -/
def admit_inventory (quantity : Int) (position : Position) : Except RejectCode Reservation := do
  let available ← orElse position.available RejectCode.ArithmeticOverflow
  refuse (available < quantity) RejectCode.InsufficientInventory
  pure ⟨0,true⟩

def admit_reservation (limits : RiskLimits) (order : SubmitOrder) (listing : ListingTerms) (ledger : Ledger)
    (terms : InstrumentTerms) (price : Int) : Except RejectCode Reservation :=
  match order.side with
  | .Buy => if limits.cash_constrained then admit_cash order listing ledger terms.currency price else pure .NONE
  | .Sell =>
    if terms.shortable then pure .NONE
    else admit_inventory order.quantity (ledger.position_of order.participant_id order.instrument_id)

/-- Admits one order or returns a stable rejection. -/
def admit_order (limits : RiskLimits) (enabled : Bool) (order : SubmitOrder) (listing : ListingTerms) (ledger : Ledger)
    (market_reservation_price : Option Int) : Except RejectCode Admission := do
  refuse (enabled = false) RejectCode.ParticipantDisabled
  refuse (order.quantity ≤ 0) RejectCode.InvalidQuantity
  let terms ← orElse (ledger.terms.get? order.instrument_id) RejectCode.InvalidInstrument
  let price ← admit_price order.kind listing market_reservation_price
  refuse (order.quantity > limits.max_order_quantity) RejectCode.MaxOrderQuantity
  let position := ledger.position_of order.participant_id order.instrument_id
  let total ← orElse ((to_i64 (position.open_buy + position.open_sell)).bind (fun total => to_i64 (total + order.quantity)))
    RejectCode.ArithmeticOverflow
  refuse (total > limits.max_open_order_quantity) RejectCode.MaxOpenOrderQuantity
  let worst ← orElse (worst_case order.side order.quantity position) RejectCode.ArithmeticOverflow
  refuse (|worst| > |limits.max_absolute_position|) RejectCode.PositionLimit
  let reservation ← admit_reservation limits order listing ledger terms price
  pure ⟨price,reservation⟩

section Admitted
variable {limits : RiskLimits} {enabled : Bool} {order : SubmitOrder} {listing : ListingTerms} {ledger : Ledger}
  {market_price : Option Int} {terms : InstrumentTerms} {price : Int} {admission : Admission}
  {reservation : Reservation}

/-- The limit price of an order kind, if it has one. -/
def OrderKind.limit : OrderKind → Option Int
  | .Limit price | .LimitWithPolicy price .. => some price
  | .Market => none

section
variable (ran : admit_price order.kind listing market_price = .ok price)
include ran

theorem admit_price_ok :
    (order.kind.limit = some price ∧ listing.price_bounds.min ≤ price ∧ price ≤ listing.price_bounds.max) ∨
    (order.kind.limit = none ∧ market_price = some price) := by
  unfold admit_price at ran
  split at ran
  case h_3 kind => exact .inr ⟨by simp [OrderKind.limit,kind],except_orElse_eq_ok.mp ran⟩
  all_goals
    rename_i kind
    split at ran
    · cases ran
    · rename_i valid
      split_ifs at ran
      cases ran
      exact .inl ⟨by simp [OrderKind.limit,kind],PriceBounds.validate_ok valid⟩

theorem admit_price_tick {limit : Int} (limited : order.kind.limit = some limit) (grid : 1 ≤ listing.tick_size) :
    listing.tick_size ∣ price := by
  have steps (wide : ¬ (listing.tick_size > 1 ∧ price.tmod listing.tick_size ≠ 0)) : listing.tick_size ∣ price := by
    by_cases one : listing.tick_size = 1
    · rw [one]; exact one_dvd _
    · refine Int.dvd_of_tmod_eq_zero ?_
      by_contra off
      exact wide ⟨by omega,off⟩
  unfold admit_price at ran
  cases kind : order.kind with
  | Market => rw [kind] at limited; cases limited
  | Limit value =>
    rw [kind] at ran
    simp only at ran
    split at ran
    · cases ran
    · split_ifs at ran with wide
      cases ran
      exact steps wide
  | LimitWithPolicy value time_in_force post_only display =>
    rw [kind] at ran
    simp only at ran
    split at ran
    · cases ran
    · split_ifs at ran with wide
      cases ran
      exact steps wide

end

/-- Cash a buy order at a price reserves for each lot. -/
def lot_cost (terms : InstrumentTerms) (listing : ListingTerms) (price : Int) : Int :=
  price * terms.multiplier + max listing.fee_bound 0

theorem cash_per_lot_ok {fee value : Int} (found : ledger.terms.get? order.instrument_id = some terms)
    (ran : ledger.cash_per_lot order.instrument_id price fee = .ok value) :
    value = price * terms.multiplier + max fee 0 := by
  simp only [Ledger.cash_per_lot,returned,Ledger.terms_of_ok,overflow_eq_ok] at ran
  obtain ⟨terms',found',lot,lots,fits⟩ := ran
  cases found.symm.trans found'
  rw [to_i128_some fits,notional_ok lots,mul_one]

/-- What the reservation of an admitted order is, and what its account held. -/
def Backed (limits : RiskLimits) (order : SubmitOrder) (listing : ListingTerms) (ledger : Ledger)
    (terms : InstrumentTerms) (price : Int) (reservation : Reservation) : Prop :=
  match order.side with
  | .Buy =>
    if limits.cash_constrained then
      reservation = ⟨lot_cost terms listing price,false⟩ ∧
      (ledger.cash_of order.participant_id terms.currency).reserved + lot_cost terms listing price * order.quantity ≤
        (ledger.cash_of order.participant_id terms.currency).balance
    else reservation = .NONE
  | .Sell =>
    if terms.shortable then reservation = .NONE
    else reservation = ⟨0,true⟩ ∧
      (ledger.position_of order.participant_id order.instrument_id).reserved + order.quantity ≤
        (ledger.position_of order.participant_id order.instrument_id).quantity

theorem admit_reservation_ok (found : ledger.terms.get? order.instrument_id = some terms)
    (ran : admit_reservation limits order listing ledger terms price = .ok reservation) :
    Backed limits order listing ledger terms price reservation := by
  unfold admit_reservation at ran
  unfold Backed
  cases side : order.side with
  | Buy =>
    simp only [side] at ran ⊢
    split_ifs at ran ⊢ with constrained
    · unfold admit_cash at ran
      cases lots : ledger.cash_per_lot order.instrument_id price listing.fee_bound with
      | error e => rw [lots] at ran; cases ran
      | ok per_lot =>
        simp only [lots,returned] at ran
        obtain ⟨required,product,available,free,enough,rfl⟩ := ran
        have cost : per_lot = lot_cost terms listing price := cash_per_lot_ok found lots
        have := to_i128_some product
        have := to_i128_some free
        rw [cost] at *
        exact ⟨rfl,by omega⟩
    · exact (except_pure_eq_ok.mp ran).symm
  | Sell =>
    simp only [side] at ran ⊢
    split_ifs at ran ⊢ with short
    · exact (except_pure_eq_ok.mp ran).symm
    · simp only [admit_inventory,returned] at ran
      obtain ⟨available,free,enough,rfl⟩ := ran
      have := to_i64_some free
      exact ⟨rfl,by omega⟩

section
variable (ran : admit_order limits enabled order listing ledger market_price = .ok admission)
include ran

theorem admit_ok :
    0 < order.quantity ∧ ∃ terms, ledger.terms.get? order.instrument_id = some terms ∧
      admit_price order.kind listing market_price = .ok admission.reservation_price ∧
      Backed limits order listing ledger terms admission.reservation_price admission.reservation := by
  simp only [admit_order,returned] at ran
  obtain ⟨_,positive,terms,found,price,priced,_,_,_,_,_,_,_,reservation,reserves,rfl⟩ := ran
  exact ⟨not_le.mp positive,terms,found,priced,admit_reservation_ok found reserves⟩

/-- Once all its open orders fill, the position of an admitted order stays within the limit. -/
theorem admit_worst :
    (order.side = .Buy → (ledger.position_of order.participant_id order.instrument_id).quantity +
      (ledger.position_of order.participant_id order.instrument_id).open_buy + order.quantity ≤
        |limits.max_absolute_position|) ∧
    (order.side = .Sell → -|limits.max_absolute_position| ≤
      (ledger.position_of order.participant_id order.instrument_id).quantity -
        (ledger.position_of order.participant_id order.instrument_id).open_sell - order.quantity) := by
  simp only [admit_order,returned] at ran
  obtain ⟨_,_,_,_,_,_,_,_,_,_,worst,total,within,_⟩ := ran
  obtain ⟨lowest,highest⟩ := abs_le.mp (not_lt.mp within)
  unfold worst_case at total
  refine ⟨fun buys => ?_,fun sells => ?_⟩
  · simp only [buys] at total
    obtain ⟨value,first,second⟩ := Option.bind_eq_some_iff.mp total
    rw [to_i64_some second,to_i64_some first] at highest
    exact highest
  · simp only [sells] at total
    obtain ⟨value,first,second⟩ := Option.bind_eq_some_iff.mp total
    rw [to_i64_some second,to_i64_some first] at lowest
    exact lowest

end

/-! ### What the ledger does with it -/

/-- What the ledger asks of the account of an order admitted at a price, beyond
    what admission asked: no negative counter, and for an unconstrained buyer no
    negative cash available. -/
def OpensAt (limits : RiskLimits) (order : SubmitOrder) (listing : ListingTerms) (ledger : Ledger)
    (terms : InstrumentTerms) (price : Int) : Prop :=
  let position := ledger.position_of order.participant_id order.instrument_id
  let cash := ledger.cash_of order.participant_id terms.currency
  match order.side with
  | .Buy => 0 ≤ position.open_buy + order.quantity ∧ 0 ≤ position.open_sell ∧
    if limits.cash_constrained then 0 ≤ cash.reserved + lot_cost terms listing price * order.quantity
    else 0 ≤ cash.reserved ∧ cash.reserved ≤ cash.balance
  | .Sell => 0 ≤ position.open_buy ∧ 0 ≤ position.open_sell + order.quantity ∧
    (terms.shortable = true ∨ 0 ≤ position.reserved + order.quantity)

theorem opensAt_iff_admits (backed : Backed limits order listing ledger terms price reservation) :
    OpensAt limits order listing ledger terms price ↔
      Ledger.Admits order.side order.quantity reservation true
        (ledger.cash_of order.participant_id terms.currency)
        (ledger.position_of order.participant_id order.instrument_id) := by
  unfold Backed at backed
  unfold OpensAt Ledger.Admits
  cases side : order.side with
  | Buy =>
    simp only [side] at backed ⊢
    by_cases constrained : limits.cash_constrained = true
    · rw [if_pos constrained] at backed
      obtain ⟨rfl,enough⟩ := backed
      simp [constrained,Ledger.moved]
      omega
    · rw [if_neg constrained] at backed
      subst backed
      simp [constrained,Ledger.moved,Reservation.NONE]
  | Sell =>
    simp only [side] at backed ⊢
    by_cases short : terms.shortable = true
    · rw [if_pos short] at backed
      subst backed
      simp [short,Ledger.moved,Reservation.NONE]
    · rw [if_neg short] at backed
      obtain ⟨rfl,enough⟩ := backed
      simp [short,Ledger.moved]
      omega

/-- The ledger's conditions on an order, read off what it is submitted with. -/
def Opens (limits : RiskLimits) (order : SubmitOrder) (listing : ListingTerms) (ledger : Ledger)
    (market_price : Option Int) : Prop :=
  ∃ terms price, ledger.terms.get? order.instrument_id = some terms ∧
    order.kind.limit.or market_price = some price ∧ OpensAt limits order listing ledger terms price

theorem opens_iff_admits (admitted : admit_order limits enabled order listing ledger market_price = .ok admission) :
    Opens limits order listing ledger market_price ↔
      ∃ terms, ledger.terms.get? order.instrument_id = some terms ∧
        Ledger.Admits order.side order.quantity admission.reservation true
          (ledger.cash_of order.participant_id terms.currency)
          (ledger.position_of order.participant_id order.instrument_id) := by
  obtain ⟨_,terms,found,priced,backed⟩ := admit_ok admitted
  have price : order.kind.limit.or market_price = some admission.reservation_price := by
    rcases admit_price_ok priced with ⟨limit,_⟩ | ⟨market,same⟩
    · rw [limit]; rfl
    · rw [market,same]; rfl
  constructor
  · rintro ⟨terms',price',found',priced',opens⟩
    cases found.symm.trans found'
    cases price.symm.trans priced'
    exact ⟨terms,found,(opensAt_iff_admits backed).mp opens⟩
  · rintro ⟨terms',found',admits⟩
    cases found.symm.trans found'
    exact ⟨terms,_,found,price,(opensAt_iff_admits backed).mpr admits⟩

/-- An admitted order opens exactly where the ledger's own conditions hold, overflow apart. -/
theorem open_order_of_admit_iff (admitted : admit_order limits enabled order listing ledger market_price = .ok admission)
    (fits : ∀ ledger', (Ledger.open_order order.participant_id order.instrument_id order.side order.quantity
      admission.reservation).run ledger ≠ .error .ArithmeticOverflow ledger') :
    (∃ ledger', (Ledger.open_order order.participant_id order.instrument_id order.side order.quantity
      admission.reservation).run ledger = .ok () ledger') ↔ Opens limits order listing ledger market_price := by
  rw [opens_iff_admits admitted]
  constructor
  · rintro ⟨ledger',ran⟩
    obtain ⟨terms,found,_,admits,_⟩ := Ledger.change_open_ok ran
    exact ⟨terms,found,admits⟩
  · rintro ⟨terms,found,admits⟩
    obtain ⟨positive,_⟩ := admit_ok admitted
    cases ran : (Ledger.open_order order.participant_id order.instrument_id order.side order.quantity
        admission.reservation).run ledger with
    | ok x ledger' => exact ⟨ledger',rfl⟩
    | error e ledger' =>
      cases Ledger.change_open_error found positive admits ran
      exact absurd ran (fits ledger')

end Admitted

/-- Participant 1 has a cash balance and no position in the one instrument. -/
def one_balance (balance : Int) : Ledger :=
  { terms := OrdMap.empty.insert 1 ⟨1,1,true⟩, cash := OrdMap.empty.insert (toLex (1,1)) { balance } }
def uncapped : RiskLimits := ⟨100,100,100,false,10⟩
def one_lot : SubmitOrder := ⟨1,1,1,.Buy,1,.Limit 10,false⟩
def plain_listing : ListingTerms := ⟨⟨1,100⟩,0,1⟩

theorem open_order_of_admit_iff_funded :
    (∃ ledger', (Ledger.open_order 1 1 .Buy 1 .NONE).run (one_balance 5) = .ok () ledger') ↔
      Opens uncapped one_lot plain_listing (one_balance 5) none := by
  have opens : ∃ ledger', (Ledger.open_order 1 1 .Buy 1 .NONE).run (one_balance 5) = .ok () ledger' := ⟨_,rfl⟩
  obtain ⟨after,ran⟩ := opens
  exact @open_order_of_admit_iff uncapped true one_lot plain_listing (one_balance 5) none ⟨10,.NONE⟩ (by decide)
    (fun _ failed => nomatch ran.symm.trans failed)

/-- A buyer without a cash limit that owes one minor unit is admitted, and the ledger refuses its order. -/
theorem open_order_refuses_admitted_buyer :
    admit_order uncapped true one_lot plain_listing (one_balance (-1)) none = .ok ⟨10,.NONE⟩ ∧
    (Ledger.open_order 1 1 .Buy 1 .NONE).run (one_balance (-1)) = .error .InsufficientCash (one_balance (-1)) := by
  decide

end Bunting
