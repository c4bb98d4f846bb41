import Bunting.Ledger

/-!
What the ledger's operations write. Opening, closing and filling an order move
the reservation of one account (`CashBalance.opened`, `Position.opened`), and a
fill is the leg of its buyer followed by the leg of its seller.
-/

namespace Bunting
open Stateful

/-- A quantity or amount on the buy side, taken back on the sell side. -/
def Side.signed : Side → Int → Int
  | .Buy, x => x
  | .Sell, x => -x

@[simp] theorem Side.signed_buy (x : Int) : Side.Buy.signed x = x := rfl
@[simp] theorem Side.signed_sell (x : Int) : Side.Sell.signed x = -x := rfl

/-- The cash account after `quantity` lots of an order were opened; a negative quantity releases. -/
def CashBalance.opened (side : Side) (quantity : Int) (order : Reservation) (cash : CashBalance) : CashBalance :=
  match side with
  | .Buy => { cash with reserved := cash.reserved + order.cash_per_lot * quantity }
  | .Sell => cash

/-- The position after `quantity` lots of an order were opened; a negative quantity releases. -/
def Position.opened (side : Side) (quantity : Int) (order : Reservation) (position : Position) : Position :=
  match side with
  | .Buy => { position with open_buy := position.open_buy + quantity }
  | .Sell => { position with
      open_sell := position.open_sell + quantity
      reserved := position.reserved + if order.inventory then quantity else 0 }

section Opened
variable (side : Side) (quantity : Int) (order : Reservation) (cash : CashBalance) (position : Position)

@[simp] theorem CashBalance.opened_balance : (cash.opened side quantity order).balance = cash.balance := by
  cases side <;> rfl
@[simp] theorem CashBalance.opened_fees : (cash.opened side quantity order).fees = cash.fees := by cases side <;> rfl
@[simp] theorem CashBalance.opened_reserved : (cash.opened side quantity order).reserved =
    cash.reserved + if side = .Buy then order.cash_per_lot * quantity else 0 := by cases side <;> simp [opened]
@[simp] theorem Position.opened_cost_basis : (position.opened side quantity order).cost_basis = position.cost_basis := by
  cases side <;> rfl
@[simp] theorem Position.opened_realized_pnl :
    (position.opened side quantity order).realized_pnl = position.realized_pnl := by cases side <;> rfl
@[simp] theorem Position.opened_quantity : (position.opened side quantity order).quantity = position.quantity := by
  cases side <;> rfl
@[simp] theorem Position.opened_reserved : (position.opened side quantity order).reserved =
    position.reserved + if side = .Sell ∧ order.inventory = true then quantity else 0 := by
  cases side <;> cases h : order.inventory <;> simp [opened,h]
@[simp] theorem Position.opened_buy : (position.opened side quantity order).open_buy =
    position.open_buy + if side = .Buy then quantity else 0 := by cases side <;> simp [opened]
@[simp] theorem Position.opened_sell : (position.opened side quantity order).open_sell =
    position.open_sell + if side = .Sell then quantity else 0 := by cases side <;> simp [opened]

end Opened

theorem overflow_eq_ok {α : Type} {x : Option α} {a : α} : overflow x = .ok a ↔ x = some a := except_orElse_eq_ok

/-- The only failure is an arithmetic overflow. -/
abbrev OnlyOverflow {α : Type} (x : Except LedgerError α) : Prop := FailsOnly (· = .ArithmeticOverflow) x

theorem onlyOverflow_overflow {α : Type} {x : Option α} : OnlyOverflow (overflow x) := .orElse rfl

variable {quantity : Int}

theorem notional_ok {price multiplier value : Int} (ran : notional price quantity multiplier = .ok value) :
    value = price * quantity * multiplier := by
  obtain ⟨product,fits,rest⟩ := Option.bind_eq_some_iff.mp (overflow_eq_ok.mp ran)
  rw [to_i128_some rest,to_i128_some fits]

theorem per_lot_total_ok {per_lot total : Int} (ran : per_lot_total per_lot quantity = .ok total) :
    total = per_lot * quantity := to_i128_some (overflow_eq_ok.mp ran)

theorem CashBalance.available_ok {cash : CashBalance} {x : Int} (ran : overflow cash.available = .ok x) :
    x = cash.balance - cash.reserved := to_i128_some (overflow_eq_ok.mp ran)

theorem Position.available_ok {position : Position} {x : Int} (ran : overflow position.available = .ok x) :
    x = position.quantity - position.reserved := to_i64_some (overflow_eq_ok.mp ran)

namespace Ledger

theorem terms_of_ok {ledger : Ledger} {instrument : InstrumentId} {terms : InstrumentTerms} :
    ledger.terms_of instrument = .ok terms ↔ ledger.terms.get? instrument = some terms := except_orElse_eq_ok

def put (ledger : Ledger) (participant : ParticipantId) (currency : CurrencyId) (instrument : InstrumentId)
    (cash : CashBalance) (position : Position) : Ledger :=
  { ledger with
    positions := ledger.positions.insert (toLex (participant,instrument)) position
    cash := ledger.cash.insert (toLex (participant,currency)) cash }

section Put
variable (ledger : Ledger) (participant : ParticipantId) (currency : CurrencyId) (instrument : InstrumentId)
  (cash : CashBalance) (position : Position)


theorem cash_of_put (p : ParticipantId) (c : CurrencyId) :
    (ledger.put participant currency instrument cash position).cash_of p c =
      if p = participant ∧ c = currency then cash else ledger.cash_of p c := by
  unfold cash_of put
  rw [OrdMap.get?_insert]
  by_cases same : p = participant ∧ c = currency
  · obtain ⟨rfl,rfl⟩ := same; simp
  · rw [if_neg same,if_neg (fun h => same (Prod.ext_iff.mp (toLex.injective h)))]

theorem position_of_put (p : ParticipantId) (i : InstrumentId) :
    (ledger.put participant currency instrument cash position).position_of p i =
      if p = participant ∧ i = instrument then position else ledger.position_of p i := by
  unfold position_of put
  rw [OrdMap.get?_insert]
  by_cases same : p = participant ∧ i = instrument
  · obtain ⟨rfl,rfl⟩ := same; simp
  · rw [if_neg same,if_neg (fun h => same (Prod.ext_iff.mp (toLex.injective h)))]

end Put

/-! ### Opening and closing orders -/

/-- The lots an order's reservation grows by. -/
def moved (opening : Bool) (quantity : Int) : Int := if opening then quantity else -quantity

/-- What the ledger checks of the account an order is opened or closed on. -/
def Admits (side : Side) (quantity : Int) (order : Reservation) (opening : Bool) (cash : CashBalance)
    (position : Position) : Prop :=
  0 ≤ (position.opened side (moved opening quantity) order).open_buy ∧
  0 ≤ (position.opened side (moved opening quantity) order).open_sell ∧
  (side = .Buy → 0 ≤ (cash.opened side (moved opening quantity) order).reserved ∧
    (opening = true → (cash.opened side (moved opening quantity) order).reserved ≤ cash.balance)) ∧
  (side = .Sell → order.inventory = true →
    0 ≤ (position.opened side (moved opening quantity) order).reserved ∧
    (opening = true → (position.opened side (moved opening quantity) order).reserved ≤ position.quantity))

section ChangeOpen
variable {quantity : Int} {order : Reservation} {opening : Bool} {position : Position} {cash : CashBalance}

theorem change_open_buy_ok {changed : Position × CashBalance}
    (ran : change_open_buy quantity (moved opening quantity) order opening position cash = .ok changed) :
    changed = (position.opened .Buy (moved opening quantity) order,cash.opened .Buy (moved opening quantity) order) ∧
    0 ≤ changed.2.reserved ∧ (opening = true → changed.2.reserved ≤ cash.balance) := by
  simp only [change_open_buy,returned,overflow_eq_ok] at ran
  obtain ⟨open_buy,fits,amount,total,reserved,fits',nonneg,rest⟩ := ran
  have := to_i64_some fits
  have := per_lot_total_ok total
  have := to_i128_some fits'
  subst_vars
  cases opening with
  | false =>
    cases except_pure_eq_ok.mp rest
    refine ⟨?_,not_lt.mp nonneg,by simp⟩
    simp [Position.opened,CashBalance.opened,moved,sub_eq_add_neg]
  | true =>
    simp only [if_true,returned] at rest
    obtain ⟨available,free,funded,same⟩ := rest
    cases same
    have := CashBalance.available_ok free
    refine ⟨by simp [Position.opened,CashBalance.opened,moved],not_lt.mp nonneg,fun _ => ?_⟩
    simp only at this ⊢
    omega

theorem change_open_buy_failsOnly (nonneg : 0 ≤ (cash.opened .Buy (moved opening quantity) order).reserved)
    (funded : opening = true → (cash.opened .Buy (moved opening quantity) order).reserved ≤ cash.balance) :
    OnlyOverflow (change_open_buy quantity (moved opening quantity) order opening position cash) := by
  unfold change_open_buy
  refine .bind onlyOverflow_overflow fun open_buy _ => .bind onlyOverflow_overflow fun amount total =>
    .bind onlyOverflow_overflow fun reserved fits => ?_
  have same : reserved = (cash.opened .Buy (moved opening quantity) order).reserved := by
    rw [to_i128_some (overflow_eq_ok.mp fits),per_lot_total_ok total]
    cases opening <;> simp [moved,sub_eq_add_neg]
  refine .bind (.refuse (by omega)) fun _ _ => .ite (fun opens => ?_) (fun _ => .pure _)
  refine .bind onlyOverflow_overflow fun available free => .bind (.refuse ?_) fun _ _ => .pure _
  have := CashBalance.available_ok free
  have := funded opens
  simp only at *
  omega

theorem change_open_sell_ok {changed : Position}
    (ran : change_open_sell (moved opening quantity) order opening position = .ok changed) :
    changed = position.opened .Sell (moved opening quantity) order ∧
    (order.inventory = true → 0 ≤ changed.reserved ∧ (opening = true → changed.reserved ≤ position.quantity)) := by
  simp only [change_open_sell,returned,overflow_eq_ok] at ran
  obtain ⟨open_sell,fits,rest⟩ := ran
  have := to_i64_some fits
  subst this
  cases held : order.inventory with
  | false =>
    rw [held,if_neg (by simp)] at rest
    cases except_pure_eq_ok.mp rest
    simp [Position.opened,held]
  | true =>
    simp only [held,if_true,returned,overflow_eq_ok] at rest
    obtain ⟨reserved,fits',nonneg,rest⟩ := rest
    have := to_i64_some fits'
    subst this
    cases opening with
    | false =>
      cases except_pure_eq_ok.mp rest
      exact ⟨by simp [Position.opened,held],fun _ => ⟨not_lt.mp nonneg,by simp⟩⟩
    | true =>
      simp only [if_true,returned] at rest
      obtain ⟨available,free,covered,same⟩ := rest
      cases same
      have := Position.available_ok free
      refine ⟨by simp [Position.opened,held],fun _ => ⟨not_lt.mp nonneg,fun _ => ?_⟩⟩
      simp only at this ⊢
      omega

theorem change_open_sell_failsOnly
    (covered : order.inventory = true → 0 ≤ (position.opened .Sell (moved opening quantity) order).reserved ∧
      (opening = true → (position.opened .Sell (moved opening quantity) order).reserved ≤ position.quantity)) :
    OnlyOverflow (change_open_sell (moved opening quantity) order opening position) := by
  unfold change_open_sell
  refine .bind onlyOverflow_overflow fun open_sell _ => .ite (fun held => ?_) (fun _ => .pure _)
  obtain ⟨nonneg,within⟩ := covered held
  simp only [Position.opened_reserved,held,and_self,if_true] at nonneg within
  refine .bind onlyOverflow_overflow fun reserved fits => ?_
  have same := to_i64_some (overflow_eq_ok.mp fits)
  refine .bind (.refuse (by omega)) fun _ _ => .ite (fun opens => ?_) (fun _ => .pure _)
  refine .bind onlyOverflow_overflow fun available free => .bind (.refuse ?_) fun _ _ => .pure _
  have := Position.available_ok free
  have := within opens
  simp only at *
  omega

end ChangeOpen

section Run
variable {participant : ParticipantId} {instrument : InstrumentId} {side : Side} {quantity : Int} {order : Reservation}
  {opening : Bool} {ledger ledger' : Ledger}

private theorem delta_ok {delta : Int}
    (ran : overflow (if opening then some quantity else to_i64 (0 - quantity)) = .ok delta) :
    delta = moved opening quantity := by
  cases opening with
  | true => simpa [moved,eq_comm] using overflow_eq_ok.mp ran
  | false => have := to_i64_some (overflow_eq_ok.mp ran); simp [moved]; omega

private theorem change_account_ok {position : Position} {cash : CashBalance} {changed : Position × CashBalance}
    (ran : change_account side quantity (moved opening quantity) order opening position cash = .ok changed) :
    changed = (position.opened side (moved opening quantity) order,cash.opened side (moved opening quantity) order) ∧
    (side = .Buy → 0 ≤ changed.2.reserved ∧ (opening = true → changed.2.reserved ≤ cash.balance)) ∧
    (side = .Sell → order.inventory = true →
      0 ≤ changed.1.reserved ∧ (opening = true → changed.1.reserved ≤ position.quantity)) := by
  cases side with
  | Buy =>
    obtain ⟨same,funded⟩ := change_open_buy_ok ran
    exact ⟨same,fun _ => funded,by simp⟩
  | Sell =>
    obtain ⟨position,moves,same⟩ := except_bind_eq_ok.mp ran
    obtain ⟨rfl,covered⟩ := change_open_sell_ok moves
    cases except_pure_eq_ok.mp same
    exact ⟨rfl,by simp,fun _ => covered⟩

/-- Opening or closing an order that succeeds moves its reservation and nothing else. -/
theorem change_open_ok {x : Unit}
    (ran : (change_open participant instrument side quantity order opening).run ledger = .ok x ledger') :
    ∃ terms, ledger.terms.get? instrument = some terms ∧ 0 < quantity ∧
      Admits side quantity order opening (ledger.cash_of participant terms.currency)
        (ledger.position_of participant instrument) ∧
      ledger' = ledger.put participant terms.currency instrument
        ((ledger.cash_of participant terms.currency).opened side (moved opening quantity) order)
        ((ledger.position_of participant instrument).opened side (moved opening quantity) order) := by
  simp only [change_open,returned] at ran
  obtain ⟨terms,found,positive,delta,signed,changed,moves,nonneg,rfl⟩ := ran
  refine ⟨terms,terms_of_ok.mp found,not_le.mp positive,?_⟩
  rw [delta_ok signed] at moves
  obtain ⟨buys,sells⟩ : 0 ≤ changed.1.open_buy ∧ 0 ≤ changed.1.open_sell := by omega
  obtain ⟨rfl,funded,covered⟩ := change_account_ok moves
  exact ⟨⟨buys,sells,funded,covered⟩,rfl⟩

private theorem change_account_failsOnly {position : Position} {cash : CashBalance}
    (admits : Admits side quantity order opening cash position) :
    OnlyOverflow (change_account side quantity (moved opening quantity) order opening position cash) := by
  obtain ⟨_,_,buys,sells⟩ := admits
  cases side with
  | Buy => exact change_open_buy_failsOnly (buys rfl).1 (buys rfl).2
  | Sell => exact .bind (change_open_sell_failsOnly (sells rfl)) fun _ _ => .pure _

/-- Where the account admits it, opening or closing an order fails only by overflow. -/
theorem change_open_error {terms : InstrumentTerms} {e : LedgerError}
    (found : ledger.terms.get? instrument = some terms) (positive : 0 < quantity)
    (admits : Admits side quantity order opening (ledger.cash_of participant terms.currency)
      (ledger.position_of participant instrument))
    (failed : (change_open participant instrument side quantity order opening).run ledger = .error e ledger') :
    e = .ArithmeticOverflow := by
  simp only [change_open,returned,raised,terms_of_ok] at failed
  obtain ⟨missing,_⟩ | ⟨terms',found',⟨small,_⟩ | ⟨_,⟨unsigned,_⟩ | ⟨delta,signed,⟨stuck,_⟩ |
    ⟨changed,moves,⟨negative,_⟩⟩⟩⟩⟩ := failed
  · rw [terms_of,found] at missing; cases missing
  · omega
  · exact onlyOverflow_overflow _ unsigned
  · cases found.symm.trans found'
    rw [delta_ok signed] at stuck
    exact change_account_failsOnly admits _ stuck
  · cases found.symm.trans found'
    rw [delta_ok signed] at moves
    have nonneg := admits.1
    have nonneg' := admits.2.1
    rw [(change_account_ok moves).1] at negative
    exact absurd negative (by simp only; omega)

end Run

/-! ### One leg of a fill -/

end Ledger

/-- The cash account once the filled part of the party's order, if it had one, is released. -/
def CashBalance.released (side : Side) (quantity : Int) (order : Option Reservation) (cash : CashBalance) :
    CashBalance :=
  match order with
  | none => cash
  | some order => cash.opened side (-quantity) order

/-- The position once the filled part of the party's order, if it had one, is released. -/
def Position.released (side : Side) (quantity : Int) (order : Option Reservation) (position : Position) : Position :=
  match order with
  | none => position
  | some order => position.opened side (-quantity) order

section Released
variable (side : Side) (quantity : Int) (order : Option Reservation) (cash : CashBalance) (position : Position)

@[simp] theorem CashBalance.released_balance : (cash.released side quantity order).balance = cash.balance := by
  cases order <;> simp [released]
@[simp] theorem CashBalance.released_fees : (cash.released side quantity order).fees = cash.fees := by
  cases order <;> simp [released]
@[simp] theorem Position.released_quantity : (position.released side quantity order).quantity = position.quantity := by
  cases order <;> simp [released]
@[simp] theorem Position.released_cost_basis :
    (position.released side quantity order).cost_basis = position.cost_basis := by cases order <;> simp [released]
@[simp] theorem Position.released_realized_pnl :
    (position.released side quantity order).realized_pnl = position.realized_pnl := by cases order <;> simp [released]

end Released

namespace Ledger

section Leg
variable {terms : InstrumentTerms} {value : Int} {fill : Fill} {side : Side} {party : FillParty}
  {cash cash' : CashBalance} {position position' : Position}

/-- What a leg writes on the account of its party. Cost and profit are left open. -/
structure LegEffect (value : Int) (fill : Fill) (side : Side) (party : FillParty) (cash cash' : CashBalance)
    (position position' : Position) : Prop where
  balance : cash'.balance = cash.balance - side.signed value - party.fee
  fees : cash'.fees = cash.fees + party.fee
  cash_reserved : cash'.reserved = (cash.released side fill.quantity party.order).reserved
  quantity : position'.quantity = position.quantity + side.signed fill.quantity
  reserved : position'.reserved = (position.released side fill.quantity party.order).reserved
  open_buy : position'.open_buy = (position.released side fill.quantity party.order).open_buy
  open_sell : position'.open_sell = (position.released side fill.quantity party.order).open_sell

/-- What a released account must keep. -/
def ReleaseAdmits (fill : Fill) (side : Side) (party : FillParty) (cash : CashBalance) (position : Position) : Prop :=
  party.order.isSome = true →
    0 ≤ (position.released side fill.quantity party.order).open_buy ∧
    0 ≤ (position.released side fill.quantity party.order).open_sell ∧
    0 ≤ (position.released side fill.quantity party.order).reserved ∧
    0 ≤ (cash.released side fill.quantity party.order).reserved

/-- The party can pay for the leg, or deliver it. -/
def Funds (terms : InstrumentTerms) (value : Int) (fill : Fill) (side : Side) (party : FillParty) (cash : CashBalance)
    (position : Position) : Prop :=
  (side = .Buy → party.enforce_funding = true →
    (cash.released side fill.quantity party.order).reserved ≤ cash.balance - value - party.fee) ∧
  (side = .Sell → terms.shortable = false →
    (position.released side fill.quantity party.order).reserved ≤ position.quantity - fill.quantity)

variable {released : CashBalance × Position}

private theorem release_buy_ok {order : Reservation}
    (ran : release_buy quantity order cash position = .ok released) :
    released = (cash.opened .Buy (-quantity) order,position.opened .Buy (-quantity) order) := by
  simp only [release_buy,returned,overflow_eq_ok] at ran
  obtain ⟨open_buy,fits,total,amount,reserved,fits',rfl⟩ := ran
  rw [to_i64_some fits,to_i128_some fits',per_lot_total_ok amount]
  simp [CashBalance.opened,Position.opened,sub_eq_add_neg]

private theorem release_sell_ok {order : Reservation}
    (ran : release_sell quantity order cash position = .ok released) :
    released = (cash.opened .Sell (-quantity) order,position.opened .Sell (-quantity) order) := by
  simp only [release_sell,returned,overflow_eq_ok] at ran
  obtain ⟨open_sell,fits,rest⟩ := ran
  rw [to_i64_some fits] at rest
  cases held : order.inventory with
  | false =>
    rw [held,if_neg (by simp)] at rest
    cases except_pure_eq_ok.mp rest
    simp [CashBalance.opened,Position.opened,held,sub_eq_add_neg]
  | true =>
    simp only [held,if_true,returned,overflow_eq_ok] at rest
    obtain ⟨reserved,fits',rfl⟩ := rest
    rw [to_i64_some fits']
    simp [CashBalance.opened,Position.opened,held,sub_eq_add_neg]

theorem release_ok (ran : release side fill.quantity party.order cash position = .ok released) :
    released = (cash.released side fill.quantity party.order,position.released side fill.quantity party.order) ∧
    ReleaseAdmits fill side party cash position := by
  unfold release at ran
  unfold CashBalance.released Position.released ReleaseAdmits
  revert ran
  cases party.order with
  | none => exact fun ran => ⟨(except_pure_eq_ok.mp ran).symm,by simp⟩
  | some order =>
    intro ran
    simp only [returned] at ran
    obtain ⟨released',frees,nonneg,rfl⟩ := ran
    have same : released' = (cash.opened side (-fill.quantity) order,position.opened side (-fill.quantity) order) := by
      cases side with
      | Buy => exact release_buy_ok frees
      | Sell => exact release_sell_ok frees
    subst same
    simp only [not_or,not_lt] at nonneg
    exact ⟨rfl,fun _ => ⟨nonneg.1,nonneg.2.1,nonneg.2.2.1,nonneg.2.2.2⟩⟩

private theorem release_failsOnly (admits : ReleaseAdmits fill side party cash position) :
    OnlyOverflow (release side fill.quantity party.order cash position) := by
  unfold release
  unfold ReleaseAdmits at admits
  cases held : party.order with
  | none => exact .pure _
  | some order =>
    rw [held] at admits
    simp only [CashBalance.released,Position.released] at admits
    cases side with
    | Buy =>
      have frees : OnlyOverflow (release_buy fill.quantity order cash position) :=
        .bind onlyOverflow_overflow fun _ _ => .bind onlyOverflow_overflow fun _ _ =>
          .bind onlyOverflow_overflow fun _ _ => .pure _
      refine .bind frees fun released ran => .bind (.refuse ?_) fun _ _ => .pure _
      rw [release_buy_ok ran]
      have := admits rfl
      simp only
      omega
    | Sell =>
      have frees : OnlyOverflow (release_sell fill.quantity order cash position) :=
        .bind onlyOverflow_overflow fun _ _ =>
          .ite (fun _ => .bind onlyOverflow_overflow fun _ _ => .pure _) fun _ => .pure _
      refine .bind frees fun released ran => .bind (.refuse ?_) fun _ _ => .pure _
      rw [release_sell_ok ran]
      have := admits rfl
      simp only
      omega

theorem apply_fill_ok {delta price multiplier : Int}
    (ran : apply_fill position delta price multiplier = .ok position') :
    position'.quantity = position.quantity + delta ∧ position'.reserved = position.reserved ∧
    position'.open_buy = position.open_buy ∧ position'.open_sell = position.open_sell := by
  simp only [apply_fill,returned] at ran
  obtain ⟨next,fits,_,_,_,_,_,_,_,_,_,_,_,_,_,_,rfl⟩ := ran
  exact ⟨to_i64_some (overflow_eq_ok.mp fits),rfl,rfl,rfl⟩

private theorem apply_fill_failsOnly (delta price multiplier : Int) :
    OnlyOverflow (apply_fill position delta price multiplier) := by
  unfold apply_fill
  refine .bind onlyOverflow_overflow fun _ _ => .bind onlyOverflow_overflow fun _ _ => .bind ?_ fun _ _ =>
    .bind onlyOverflow_overflow fun _ _ => .bind onlyOverflow_overflow fun _ _ =>
    .bind onlyOverflow_overflow fun _ _ => .bind onlyOverflow_overflow fun _ _ =>
    .bind onlyOverflow_overflow fun _ _ => .pure _
  exact .ite (fun _ => .pure _) fun _ => .map _ onlyOverflow_overflow

theorem settle_flow_ok {moved : Int × Int} (ran : settle_flow side value quantity = .ok moved) :
    moved = (-side.signed value,side.signed quantity) := by
  cases side with
  | Buy =>
    obtain ⟨flow,negated,same⟩ := except_bind_eq_ok.mp ran
    cases except_pure_eq_ok.mp same
    simp [to_i128_some (overflow_eq_ok.mp negated)]
  | Sell =>
    obtain ⟨delta,negated,same⟩ := except_bind_eq_ok.mp ran
    cases except_pure_eq_ok.mp same
    simp [to_i64_some (overflow_eq_ok.mp negated)]

private theorem settle_flow_failsOnly (quantity : Int) : OnlyOverflow (settle_flow side value quantity) := by
  cases side with
  | Buy => exact .bind onlyOverflow_overflow fun _ _ => .pure _
  | Sell => exact .bind onlyOverflow_overflow fun _ _ => .pure _

private theorem check_funding_ok {x : Unit} (ran : check_funding terms side party cash position = .ok x) :
    (side = .Buy → party.enforce_funding = true → cash.reserved ≤ cash.balance) ∧
    (side = .Sell → terms.shortable = false → position.reserved ≤ position.quantity) := by
  cases side with
  | Buy =>
    refine ⟨fun _ enforced => ?_,by simp⟩
    simp only [check_funding,enforced,if_true,returned] at ran
    obtain ⟨available,free,funded⟩ := ran
    have := CashBalance.available_ok free
    omega
  | Sell =>
    refine ⟨by simp,fun _ short => ?_⟩
    simp only [check_funding,short,Bool.false_eq_true,if_false,returned] at ran
    obtain ⟨available,free,covered⟩ := ran
    have := Position.available_ok free
    omega

private theorem check_funding_failsOnly
    (funded : side = .Buy → party.enforce_funding = true → cash.reserved ≤ cash.balance)
    (covered : side = .Sell → terms.shortable = false → position.reserved ≤ position.quantity) :
    OnlyOverflow (check_funding terms side party cash position) := by
  cases side with
  | Buy =>
    refine .ite (fun enforced => .bind onlyOverflow_overflow fun available free => .refuse ?_) fun _ => .pure _
    have := CashBalance.available_ok free
    have := funded rfl enforced
    omega
  | Sell =>
    refine .ite (fun _ => .pure _) fun short => .bind onlyOverflow_overflow fun available free => .refuse ?_
    have := Position.available_ok free
    have := covered rfl (by simpa using short)
    omega

theorem settle_leg_ok (ran : settle_leg terms value fill side party cash position = .ok (cash',position')) :
    ReleaseAdmits fill side party cash position ∧ Funds terms value fill side party cash position ∧
    LegEffect value fill side party cash cash' position position' := by
  simp only [settle_leg,returned,overflow_eq_ok] at ran
  obtain ⟨released,frees,moved,flows,total,sums,fees,fees',filled,fills,traded,traded',checks,same⟩ := ran
  obtain ⟨rfl,admits⟩ := release_ok frees
  cases settle_flow_ok flows
  obtain ⟨subtotal,sum,sum'⟩ := Option.bind_eq_some_iff.mp sums
  have total_eq := to_i128_some sum'
  have subtotal_eq := to_i128_some sum
  have fees_eq := to_i128_some fees'
  obtain ⟨quantity,reserved,buys,sells⟩ := apply_fill_ok fills
  obtain ⟨funded,covered⟩ := check_funding_ok checks
  cases same
  simp only [CashBalance.released_balance,CashBalance.released_fees,Position.released_quantity] at *
  refine ⟨admits,⟨fun buy enforced => ?_,fun sell short => ?_⟩,?_⟩
  · subst buy
    have := funded rfl enforced
    simp only [Side.signed_buy] at *
    omega
  · subst sell
    have := covered rfl short
    simp only [Side.signed_sell] at *
    omega
  · exact ⟨by simp only; omega,by simp only; omega,rfl,quantity,reserved,buys,sells⟩

/-- A leg that its account admits and funds fails only by overflow. -/
theorem settle_leg_failsOnly (admits : ReleaseAdmits fill side party cash position)
    (funds : Funds terms value fill side party cash position) :
    OnlyOverflow (settle_leg terms value fill side party cash position) := by
  unfold settle_leg
  refine .bind (release_failsOnly admits) fun released frees => .bind (settle_flow_failsOnly _) fun moved flows =>
    .bind onlyOverflow_overflow fun total sums => .bind onlyOverflow_overflow fun fees _ =>
    .bind (apply_fill_failsOnly _ _ _) fun filled fills => .bind onlyOverflow_overflow fun traded _ =>
    .bind (check_funding_failsOnly ?_ ?_) fun _ _ => .pure _
  · intro buy enforced
    subst buy
    obtain ⟨rfl,-⟩ := release_ok frees
    cases settle_flow_ok flows
    obtain ⟨subtotal,sum,sum'⟩ := Option.bind_eq_some_iff.mp (overflow_eq_ok.mp sums)
    have := to_i128_some sum'
    have := to_i128_some sum
    have := funds.1 rfl enforced
    simp only [CashBalance.released_balance,Side.signed_buy] at *
    omega
  · intro sell short
    subst sell
    obtain ⟨rfl,-⟩ := release_ok frees
    cases settle_flow_ok flows
    obtain ⟨quantity,reserved,-,-⟩ := apply_fill_ok fills
    have := funds.2 rfl short
    simp only [Position.released_quantity,Side.signed_sell] at *
    omega

end Leg

/-! ### The whole fill -/

/-- The ledger after the leg of a party; the house has no account. -/
def Leg (terms : InstrumentTerms) (value : Int) (fill : Fill) (side : Side) (party : Option FillParty)
    (ledger ledger' : Ledger) : Prop :=
  match party with
  | none => ledger' = ledger
  | some party => ∃ cash position,
    settle_leg terms value fill side party (ledger.cash_of party.participant terms.currency)
      (ledger.position_of party.participant fill.instrument) = .ok (cash,position) ∧
    ledger' = ledger.put party.participant terms.currency fill.instrument cash position

theorem Leg.terms {T : InstrumentTerms} {value : Int} {fill : Fill} {side : Side} {party : Option FillParty}
    {ledger ledger' : Ledger} (leg : Leg T value fill side party ledger ledger') : ledger'.terms = ledger.terms := by
  cases party with
  | none => rw [leg]
  | some party =>
    obtain ⟨_,_,_,rfl⟩ := leg
    rfl

def written (ledger : Ledger) (terms : InstrumentTerms) (fill : Fill) (staged : Staged) : Ledger :=
  { ledger with
    cash := ledger.cash.extend (fun participant => toLex (participant,terms.currency)) staged.cash
    positions := ledger.positions.extend (fun participant => toLex (participant,fill.instrument)) staged.positions }

section Whole
variable {terms : InstrumentTerms} {value : Int} {fill : Fill} {side : Side} {party : Option FillParty}
  {ledger ledger' : Ledger} {staged staged' : Staged}

private theorem key_injective (a : Nat) : Function.Injective (fun p : Nat => (toLex (p,a) : Nat ×ₗ Nat)) :=
  fun _ _ same => (Prod.ext_iff.mp (toLex.injective same)).1

private theorem written_cash_of (p : ParticipantId) :
    (ledger.written terms fill staged).cash_of p terms.currency =
      (staged.cash.get? p).getD (ledger.cash_of p terms.currency) := by
  simp only [written,cash_of]
  rw [OrdMap.get?_extend (key_injective terms.currency)]
  cases staged.cash.get? p <;> rfl

private theorem written_position_of (p : ParticipantId) :
    (ledger.written terms fill staged).position_of p fill.instrument =
      (staged.positions.get? p).getD (ledger.position_of p fill.instrument) := by
  simp only [written,position_of]
  rw [OrdMap.get?_extend (key_injective fill.instrument)]
  cases staged.positions.get? p <;> rfl

/-- Staging a party is its leg on the ledger with what is staged written. -/
private theorem settle_party_ok (ran : ledger.settle_party terms value fill side party staged = .ok staged') :
    Leg terms value fill side party (ledger.written terms fill staged) (ledger.written terms fill staged') := by
  cases party with
  | none => cases except_pure_eq_ok.mp ran; rfl
  | some party =>
    simp only [settle_party,returned] at ran
    obtain ⟨account,settles,rfl⟩ := ran
    refine ⟨account.1,account.2,?_,?_⟩
    · rw [written_cash_of,written_position_of]; exact settles
    · unfold written put
      rw [OrdMap.extend_insert (key_injective terms.currency),OrdMap.extend_insert (key_injective fill.instrument)]

/-- A fill that settles is the leg of its buyer, then the leg of its seller, then the mark. -/
theorem settle_ok {x : Unit} (ran : (settle fill).run ledger = .ok x ledger') :
    ∃ terms bought sold, ledger.terms.get? fill.instrument = some terms ∧ 0 < fill.quantity ∧ 0 < fill.price ∧
      Leg terms (fill.price * fill.quantity * terms.multiplier) fill .Buy fill.buyer ledger bought ∧
      Leg terms (fill.price * fill.quantity * terms.multiplier) fill .Sell fill.seller bought sold ∧
      ledger' = { sold with
        marks := if fill.set_mark then ledger.marks.insert fill.instrument fill.price else ledger.marks } := by
  simp only [settle,returned,terms_of_ok,not_or,not_le] at ran
  obtain ⟨terms,found,⟨quantity,price⟩,value,total,staged,buys,staged',sells,rfl⟩ := ran
  rw [notional_ok total] at buys sells
  exact ⟨terms,_,_,found,quantity,price,settle_party_ok buys,settle_party_ok sells,rfl⟩

/-- The account of a party admits and funds its leg; the house always does. -/
def LegAdmits (terms : InstrumentTerms) (value : Int) (fill : Fill) (side : Side) (party : Option FillParty)
    (ledger : Ledger) : Prop :=
  ∀ p ∈ party,
    ReleaseAdmits fill side p (ledger.cash_of p.participant terms.currency)
      (ledger.position_of p.participant fill.instrument) ∧
    Funds terms value fill side p (ledger.cash_of p.participant terms.currency)
      (ledger.position_of p.participant fill.instrument)

private theorem settle_party_failsOnly
    (admits : LegAdmits terms value fill side party (ledger.written terms fill staged)) :
    OnlyOverflow (ledger.settle_party terms value fill side party staged) := by
  cases party with
  | none => exact .pure _
  | some party =>
    obtain ⟨releases,funds⟩ := admits party rfl
    rw [written_cash_of,written_position_of] at releases funds
    exact .bind (settle_leg_failsOnly releases funds) fun _ _ => .pure _

/-- A fill whose buyer admits its leg, and whose seller admits its leg once the buyer's is written, fails only
    by overflow and writes nothing then. -/
theorem settle_error {e : LedgerError} (found : ledger.terms.get? fill.instrument = some terms)
    (quantity : 0 < fill.quantity) (price : 0 < fill.price)
    (buyer : LegAdmits terms (fill.price * fill.quantity * terms.multiplier) fill .Buy fill.buyer ledger)
    (seller : ∀ bought, Leg terms (fill.price * fill.quantity * terms.multiplier) fill .Buy fill.buyer ledger bought →
      LegAdmits terms (fill.price * fill.quantity * terms.multiplier) fill .Sell fill.seller bought)
    (failed : (settle fill).run ledger = .error e ledger') : e = .ArithmeticOverflow ∧ ledger' = ledger := by
  simp only [settle,returned,raised,terms_of_ok] at failed
  obtain ⟨missing,_⟩ | ⟨terms',found',⟨bad,_⟩ | ⟨_,⟨large,rfl⟩ | ⟨value,total,⟨stuck,rfl⟩ |
    ⟨staged,buys,⟨stuck,rfl⟩⟩⟩⟩⟩ := failed
  · rw [terms_of,found] at missing; cases missing
  · omega
  · exact ⟨onlyOverflow_overflow _ large,rfl⟩
  · cases found.symm.trans found'
    cases notional_ok total
    exact ⟨settle_party_failsOnly buyer _ stuck,rfl⟩
  · cases found.symm.trans found'
    cases notional_ok total
    exact ⟨settle_party_failsOnly (seller _ (settle_party_ok buys)) _ stuck,rfl⟩

end Whole

section Postings
variable {participant : ParticipantId} {currency : CurrencyId} {instrument : InstrumentId} {amount mark : Int}
  {ledger ledger' : Ledger} {x : Unit}

theorem post_cash_ok (ran : (post_cash participant currency amount).run ledger = .ok x ledger') :
    currency ≠ 0 ∧ ledger' = { ledger with
      cash := ledger.cash.insert (toLex (participant,currency)) { ledger.cash_of participant currency with
        balance := (ledger.cash_of participant currency).balance + amount } } := by
  simp only [post_cash,returned,overflow_eq_ok] at ran
  obtain ⟨supported,balance,fits,rfl⟩ := ran
  exact ⟨supported,by rw [to_i128_some fits]⟩

theorem post_cash_error {e : LedgerError} (supported : currency ≠ 0)
    (failed : (post_cash participant currency amount).run ledger = .error e ledger') : e = .ArithmeticOverflow := by
  simp only [post_cash,returned,raised] at failed
  obtain ⟨zero,_⟩ | ⟨_,large,_⟩ := failed
  · exact absurd zero supported
  · exact onlyOverflow_overflow _ large

theorem set_mark_ok (ran : (set_mark instrument mark).run ledger = .ok x ledger') :
    (∃ terms, ledger.terms.get? instrument = some terms) ∧ 0 < mark ∧
    ledger' = { ledger with marks := ledger.marks.insert instrument mark } := by
  simp only [set_mark,returned,terms_of_ok,not_le] at ran
  obtain ⟨terms,found,positive,rfl⟩ := ran
  exact ⟨⟨terms,found⟩,positive,rfl⟩

end Postings

end Ledger

end Bunting
