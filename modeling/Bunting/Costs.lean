import Bunting.Postings

/-!
The cost of positions. A fill closes lots at their average cost, rounded toward
zero, and opens lots at its price. What it takes from the cost it books against
the profit, so that cash, fees and cost less profit move together, however the
average is rounded.
-/

namespace Bunting
open Stateful

/-! ### One fill on a position -/

namespace Position

def closed (position : Position) (delta : Int) : Int :=
  if (position.quantity > 0 ∧ delta < 0) ∨ (position.quantity < 0 ∧ delta > 0) then min |position.quantity| |delta| else 0

/-- The same with the sign of the fill. -/
def closed_delta (position : Position) (delta : Int) : Int :=
  if position.quantity > 0 then -position.closed delta else position.closed delta

def removed_basis (position : Position) (delta : Int) : Int :=
  if position.closed delta = 0 then 0 else (position.cost_basis * position.closed delta).tdiv |position.quantity|

/-- The cost of a position less the profit taken on it. -/
def bound (position : Position) : Int := position.cost_basis - position.realized_pnl

/-- A position that has no cost while it is flat. -/
def Costless (position : Position) : Prop := position.quantity = 0 → position.cost_basis = 0

/-- The cost of a position has its sign, and nothing is reserved that is not held. -/
structure Signed (position : Position) : Prop where
  flat : position.quantity = 0 → position.cost_basis = 0
  long : 0 < position.quantity → 0 ≤ position.cost_basis
  short : position.quantity < 0 → position.cost_basis ≤ 0
  reserved : 0 ≤ position.reserved

section
variable {position : Position} {delta : Int}

theorem closed_of_opposite (opposite : (position.quantity > 0 ∧ delta < 0) ∨ (position.quantity < 0 ∧ delta > 0)) :
    position.closed delta = min |position.quantity| |delta| := if_pos opposite

theorem Signed.nonneg (signed : position.Signed) (held : 0 ≤ position.quantity) : 0 ≤ position.cost_basis := by
  rcases held.eq_or_lt with flat | long
  · rw [signed.flat flat.symm]
  · exact signed.long long

theorem Signed.nonpos (signed : position.Signed) (held : position.quantity ≤ 0) : position.cost_basis ≤ 0 := by
  rcases held.eq_or_lt with flat | short
  · rw [signed.flat flat]
  · exact signed.short short

end

theorem signed_empty : Signed {} := ⟨fun _ => rfl,fun _ => le_rfl,fun _ => le_rfl,le_rfl⟩

end Position

section Division
variable {basis part whole : Int}

theorem part_of_cost (cost : 0 ≤ basis) (positive : 0 ≤ part) (within : part ≤ whole) (some_lots : 0 < whole) :
    0 ≤ (basis * part).tdiv whole ∧ (basis * part).tdiv whole ≤ basis := by
  have product : 0 ≤ basis * part := mul_nonneg cost positive
  refine ⟨Int.tdiv_nonneg product some_lots.le,?_⟩
  rw [Int.tdiv_eq_ediv_of_nonneg product]
  exact Int.ediv_le_of_le_mul some_lots (mul_le_mul_of_nonneg_left within cost)

theorem part_of_credit (credit : basis ≤ 0) (positive : 0 ≤ part) (within : part ≤ whole) (some_lots : 0 < whole) :
    basis ≤ (basis * part).tdiv whole ∧ (basis * part).tdiv whole ≤ 0 := by
  have mirrored := part_of_cost (neg_nonneg.mpr credit) positive within some_lots
  rw [neg_mul,Int.neg_tdiv] at mirrored
  omega

end Division

namespace Ledger

section ApplyFill
variable {position position' : Position} {delta price multiplier : Int}

section
variable (opposite : (position.quantity > 0 ∧ delta < 0) ∨ (position.quantity < 0 ∧ delta > 0))
include opposite

/-- A fill of no more lots than are held takes their share of the cost and opens none. -/
theorem closes_part (within : |delta| ≤ |position.quantity|) :
    position.removed_basis delta = (position.cost_basis * |delta|).tdiv |position.quantity| ∧
      position.closed_delta delta = delta := by
  have closed : position.closed delta = |delta| := by rw [Position.closed_of_opposite opposite,min_eq_right within]
  have some_lots : |delta| ≠ 0 := abs_ne_zero.mpr (by omega)
  rw [Position.removed_basis,Position.closed_delta,closed,if_neg some_lots]
  rcases opposite with ⟨long,sells⟩ | ⟨short,buys⟩
  · rw [if_pos long,abs_of_neg sells,neg_neg]
    exact ⟨rfl,rfl⟩
  · rw [if_neg short.not_gt,abs_of_pos buys]
    exact ⟨rfl,rfl⟩

/-- A fill of as many lots or more takes the whole cost and opens the others. -/
theorem closes_all (past : |position.quantity| ≤ |delta|) :
    position.removed_basis delta = position.cost_basis ∧ position.closed_delta delta = -position.quantity := by
  have closed : position.closed delta = |position.quantity| := by
    rw [Position.closed_of_opposite opposite,min_eq_left past]
  have some_lots : |position.quantity| ≠ 0 := abs_ne_zero.mpr (by omega)
  rw [Position.removed_basis,Position.closed_delta,closed,if_neg some_lots,Int.mul_tdiv_cancel _ some_lots]
  rcases opposite with ⟨long,_⟩ | ⟨short,_⟩
  · rw [if_pos long,abs_of_pos long]
    exact ⟨rfl,rfl⟩
  · rw [if_neg short.not_gt,abs_of_neg short]
    exact ⟨rfl,rfl⟩

end

section
variable (ran : apply_fill position delta price multiplier = .ok position')
include ran

/-- What a fill makes of a position. -/
theorem apply_fill_eq :
    position' = { position with
      quantity := position.quantity + delta
      cost_basis := position.cost_basis - position.removed_basis delta +
        (delta - position.closed_delta delta) * (price * multiplier)
      realized_pnl := position.realized_pnl +
        (-(position.closed_delta delta * (price * multiplier)) - position.removed_basis delta) } := by
  simp only [apply_fill,returned,overflow_eq_ok] at ran
  obtain ⟨next,fits,unit,unit_fits,removed,removes,realized,realizes,opened,opened_fits,cost,cost_fits,basis,basis_fits,
    profit,profit_fits,rfl⟩ := ran
  have taken : removed = position.removed_basis delta := by
    unfold Position.removed_basis Position.closed
    split_ifs at removes ⊢ <;> first | exact (except_pure_eq_ok.mp removes).symm | skip
    all_goals
      obtain ⟨product,product_fits,same⟩ := except_map_eq_ok.mp removes
      rw [← same,to_i128_some (overflow_eq_ok.mp product_fits)]
  obtain ⟨flow,flow_fits,rest⟩ := Option.bind_eq_some_iff.mp realizes
  obtain ⟨negated,negated_fits,realized_fits⟩ := Option.bind_eq_some_iff.mp rest
  obtain ⟨kept,kept_fits,sum_fits⟩ := Option.bind_eq_some_iff.mp basis_fits
  rw [to_i64_some fits,to_i128_some profit_fits,to_i128_some realized_fits,to_i128_some negated_fits,to_i128_some flow_fits,
    to_i128_some sum_fits,to_i128_some kept_fits,to_i128_some cost_fits,to_i128_some opened_fits,to_i128_some unit_fits,taken]
  rfl

theorem apply_fill_bound :
    position'.bound = position.bound + delta * (price * multiplier) := by
  rw [apply_fill_eq ran]
  simp only [Position.bound]
  ring

/-- A fill that closes the whole position takes its whole cost. -/
theorem apply_fill_flat (held : position.quantity ≠ 0) (gone : position'.quantity = 0) : position'.cost_basis = 0 := by
  rw [apply_fill_eq ran] at gone ⊢
  simp only at gone ⊢
  have whole : delta = -position.quantity := by omega
  obtain ⟨taken,closed⟩ := @closes_all position delta (by omega) (by rw [whole,abs_neg])
  rw [taken,closed,whole]
  ring

end

theorem apply_fill_signed (ran : apply_fill position delta price multiplier = .ok position') (signed : position.Signed)
    (unit : 0 < price * multiplier) : position'.Signed := by
  have same := apply_fill_eq ran
  have reserved : 0 ≤ position'.reserved := by rw [same]; exact signed.reserved
  by_cases opposite : (position.quantity > 0 ∧ delta < 0) ∨ (position.quantity < 0 ∧ delta > 0)
  · have flat := apply_fill_flat ran (by omega)
    rw [same] at flat reserved ⊢
    rcases le_total |delta| |position.quantity| with within | past
    · obtain ⟨taken,closed⟩ := closes_part opposite within
      simp only [taken,closed,sub_self,zero_mul,add_zero] at flat ⊢
      have some_lots : 0 < |position.quantity| := abs_pos.mpr (by omega)
      rcases opposite with ⟨long,sells⟩ | ⟨short,buys⟩
      · have part := part_of_cost (signed.long long) (abs_nonneg delta) within some_lots
        rw [abs_of_neg sells,abs_of_pos long] at within
        exact ⟨flat,fun _ => sub_nonneg.mpr part.2,fun less => absurd less (by simp only; omega),reserved⟩
      · have part := part_of_credit (signed.short short) (abs_nonneg delta) within some_lots
        rw [abs_of_pos buys,abs_of_neg short] at within
        exact ⟨flat,fun more => absurd more (by simp only; omega),fun _ => sub_nonpos.mpr part.1,reserved⟩
    · obtain ⟨taken,closed⟩ := closes_all opposite past
      simp only [taken,closed,sub_self,zero_add,sub_neg_eq_add,add_comm delta] at flat ⊢
      exact ⟨flat,fun long => mul_nonneg long.le unit.le,fun short => mul_nonpos_of_nonpos_of_nonneg short.le unit.le,reserved⟩
  · have closed : position.closed delta = 0 := if_neg opposite
    have taken : position.removed_basis delta = 0 := if_pos closed
    have opened : position.closed_delta delta = 0 := by rw [Position.closed_delta,closed]; simp
    rw [same,taken,opened,sub_zero,sub_zero]
    refine ⟨fun gone => ?_,fun long => ?_,fun short => ?_,signed.reserved⟩
    · simp only at gone ⊢
      obtain ⟨flat,still⟩ : position.quantity = 0 ∧ delta = 0 := by omega
      rw [still,signed.flat flat,zero_mul,add_zero]
    · simp only at long ⊢
      have cost := signed.nonneg (by omega)
      have paid := mul_nonneg (show 0 ≤ delta by omega) unit.le
      omega
    · simp only at short ⊢
      have cost := signed.nonpos (by omega)
      have paid := mul_nonpos_of_nonpos_of_nonneg (show delta ≤ 0 by omega) unit.le
      omega

end ApplyFill

section Leg
variable {terms : InstrumentTerms} {value : Int} {fill : Fill} {side : Side} {party : FillParty}
  {cash cash' : CashBalance} {position position' : Position}

/-- What a leg does to the cost of the position, and to the cash of its party. -/
theorem settle_leg_costs (ran : settle_leg terms value fill side party cash position = .ok (cash',position')) :
    cash'.balance + cash'.fees + side.signed value = cash.balance + cash.fees ∧
    position'.bound = position.bound + side.signed fill.quantity * (fill.price * terms.multiplier) ∧
    (position.quantity ≠ 0 → position'.quantity = 0 → position'.cost_basis = 0) ∧
    (position.Signed → 0 < fill.price * terms.multiplier → position'.Signed) := by
  obtain ⟨_,_,effect⟩ := settle_leg_ok ran
  simp only [settle_leg,returned] at ran
  obtain ⟨released,frees,moved,flows,_,_,_,_,filled,fills,_,_,_,same⟩ := ran
  obtain ⟨rfl,admits⟩ := release_ok frees
  cases settle_flow_ok flows
  cases same
  refine ⟨by rw [effect.balance,effect.fees]; omega,?_,fun held gone => ?_,fun signed unit => ?_⟩
  · have bound := apply_fill_bound fills
    simpa [Position.bound] using bound
  · have lots : (position.released side fill.quantity party.order).quantity ≠ 0 := by simpa using held
    have flat : filled.cost_basis = 0 := apply_fill_flat fills lots gone
    exact flat
  · have kept : (position.released side fill.quantity party.order).Signed := by
      refine ⟨by simpa using signed.flat,by simpa using signed.long,by simpa using signed.short,?_⟩
      cases held : party.order with
      | none => exact signed.reserved
      | some order => rw [← held]; exact (admits (by simp [held])).2.2.1
    obtain ⟨flat,long,short,reserved⟩ := apply_fill_signed fills kept unit
    exact ⟨flat,long,short,reserved⟩

end Leg

/-! ### Profit and loss -/

/-- Whether an instrument settles in a currency. -/
def settles_in (ledger : Ledger) (currency : CurrencyId) (instrument : InstrumentId) : Bool :=
  (ledger.terms.get? instrument).any (fun terms => terms.currency = currency)

/-- What a position counts for a participant and a currency. -/
def bound_share (ledger : Ledger) (participant : ParticipantId) (currency : CurrencyId)
    (key : ParticipantId ×ₗ InstrumentId) (position : Position) : Int :=
  if (ofLex key).1 = participant ∧ ledger.settles_in currency (ofLex key).2 then position.bound else 0

/-- The cost less profit of the positions of a participant that settle in a currency. -/
def bound_in (ledger : Ledger) (participant : ParticipantId) (currency : CurrencyId) : Int :=
  ledger.positions.sum (ledger.bound_share participant currency)

/-- Cash, fees, and cost less profit of a participant in a currency. -/
def invested (ledger : Ledger) (participant : ParticipantId) (currency : CurrencyId) : Int :=
  (ledger.cash_of participant currency).balance + (ledger.cash_of participant currency).fees +
    ledger.bound_in participant currency

section Invested
variable {terms : InstrumentTerms} {fill : Fill} {side : Side} {party : Option FillParty} {ledger ledger' : Ledger}
  {p : ParticipantId} {i : InstrumentId}

theorem bound_in_put (participant p : ParticipantId) (currency c : CurrencyId) (instrument : InstrumentId)
    (cash : CashBalance) (position : Position) :
    (ledger.put participant currency instrument cash position).bound_in p c = ledger.bound_in p c +
      if participant = p ∧ ledger.settles_in c instrument then
        position.bound - (ledger.position_of participant instrument).bound else 0 := by
  have total := OrdMap.sum_insert ledger.positions (ledger.bound_share p c) (toLex (participant,instrument)) position
  have share (held : Position) : ledger.bound_share p c (toLex (participant,instrument)) held =
      if participant = p ∧ ledger.settles_in c instrument then held.bound else 0 := rfl
  have before : (ledger.positions.get? (toLex (participant,instrument))).elim 0
      (ledger.bound_share p c (toLex (participant,instrument))) =
        if participant = p ∧ ledger.settles_in c instrument then (ledger.position_of participant instrument).bound else 0 := by
    unfold position_of
    cases ledger.positions.get? (toLex (participant,instrument)) <;> simp [share,Position.bound]
  rw [before,share] at total
  have same : (ledger.put participant currency instrument cash position).bound_in p c =
      (ledger.positions.insert (toLex (participant,instrument)) position).sum (ledger.bound_share p c) := rfl
  rw [same,bound_in]
  split_ifs at total ⊢ <;> omega

/-- A leg moves cash and cost together. -/
theorem leg_invested (found : ledger.terms.get? fill.instrument = some terms)
    (leg : Leg terms (fill.price * fill.quantity * terms.multiplier) fill side party ledger ledger') (p : ParticipantId)
    (c : CurrencyId) : ledger'.invested p c = ledger.invested p c := by
  cases party with
  | none => rw [leg]
  | some party =>
    obtain ⟨cash,position,ran,rfl⟩ := leg
    obtain ⟨paid,bound,_,_⟩ := settle_leg_costs ran
    have value : side.signed (fill.price * fill.quantity * terms.multiplier) =
        side.signed fill.quantity * (fill.price * terms.multiplier) := by
      cases side <;> simp only [Side.signed_buy,Side.signed_sell] <;> ring
    rw [value] at paid
    have settles : ledger.settles_in c fill.instrument = true ↔ terms.currency = c := by simp [settles_in,found]
    simp only [invested,cash_of_put,bound_in_put,settles]
    by_cases here : party.participant = p ∧ terms.currency = c
    · obtain ⟨rfl,rfl⟩ := here
      simp only [and_self,if_true]
      omega
    · have other : ¬ (p = party.participant ∧ c = terms.currency) := fun same => here ⟨same.1.symm,same.2.symm⟩
      rw [if_neg here,if_neg other]
      omega

theorem settle_invested {x : Unit} (ran : (settle fill).run ledger = .ok x ledger') (p : ParticipantId) (c : CurrencyId) :
    ledger'.invested p c = ledger.invested p c := by
  obtain ⟨terms,bought,sold,found,_,_,buys,sells,rfl⟩ := settle_ok ran
  have kept := leg_invested found buys p c
  rw [← buys.terms] at found
  exact (leg_invested found sells p c).trans kept

theorem leg_costless {value : Int} (positive : 0 < fill.quantity)
    (leg : Leg terms value fill side party ledger ledger') (free : (ledger.position_of p i).Costless) :
    (ledger'.position_of p i).Costless := by
  cases party with
  | none => rw [leg]; exact free
  | some party =>
    obtain ⟨cash,position,ran,rfl⟩ := leg
    obtain ⟨_,_,flat,_⟩ := settle_leg_costs ran
    obtain ⟨_,_,effect⟩ := settle_leg_ok ran
    rw [position_of_put]
    split_ifs with here
    · intro gone
      refine flat (fun empty => ?_) gone
      have moved := effect.quantity
      rw [empty,gone] at moved
      cases side <;> simp only [Side.signed_buy,Side.signed_sell] at moved <;> omega
    · exact free

theorem settle_costless {x : Unit} (ran : (settle fill).run ledger = .ok x ledger')
    (free : (ledger.position_of p i).Costless) : (ledger'.position_of p i).Costless := by
  obtain ⟨terms,bought,sold,_,positive,_,buys,sells,rfl⟩ := settle_ok ran
  have kept : (sold.position_of p i).Costless := leg_costless positive sells (leg_costless positive buys free)
  exact kept

/-- Settling any fills keeps cash, fees and cost less profit of every participant in every currency, and gives no cost to a
    flat position. -/
theorem settling_keeps_profit_and_loss {fills : List Fill} {x : Unit}
    (ran : (forM fills settle).run ledger = .ok x ledger') :
    (∀ participant currency, ledger'.invested participant currency = ledger.invested participant currency) ∧
    ∀ participant instrument, (ledger.position_of participant instrument).Costless →
      (ledger'.position_of participant instrument).Costless := by
  induction fills generalizing ledger with
  | nil =>
    cases ran
    exact ⟨fun _ _ => rfl,fun _ _ free => free⟩
  | cons fill rest ih =>
    rw [List.forM_cons,bind_eq_ok] at ran
    obtain ⟨_,next,first,later⟩ := ran
    obtain ⟨invested,costless⟩ := ih later
    exact ⟨fun p c => (invested p c).trans (settle_invested first p c),
      fun p i free => costless p i (settle_costless first free)⟩

/-- Two purchases, a partial sale with a rounded cost, a sale through zero, and a trade with oneself. -/
def sample_fills : List Fill :=
  [⟨1,7,1,some ⟨1,1,none,false⟩,none,true⟩,⟨1,8,2,some ⟨1,0,none,false⟩,none,true⟩,⟨1,10,2,none,some ⟨1,0,none,false⟩,true⟩,
    ⟨1,9,4,some ⟨2,0,none,false⟩,some ⟨1,2,none,false⟩,true⟩,⟨1,5,3,some ⟨1,0,none,false⟩,some ⟨1,1,none,false⟩,true⟩]

theorem settling_keeps_profit_and_loss_in_a_round : ∃ ledger',
    (forM sample_fills settle).run { terms := OrdMap.ofList [(1,⟨1,1,true⟩)] } = .ok () ledger' ∧
    (ledger'.position_of 1 1).quantity = -3 ∧ (ledger'.position_of 1 1).realized_pnl ≠ 0 ∧ ledger'.invested 1 1 = 0 := by
  obtain ⟨⟨⟩,ledger',ran,short,profit⟩ : ∃ x ledger',
      (forM sample_fills settle).run { terms := OrdMap.ofList [(1,⟨1,1,true⟩)] } = .ok x ledger' ∧
      (ledger'.position_of 1 1).quantity = -3 ∧ (ledger'.position_of 1 1).realized_pnl ≠ 0 := by decide +kernel
  exact ⟨ledger',ran,short,profit,(settling_keeps_profit_and_loss ran).1 1 1⟩

end Invested

/-! ### The sign of the cost -/

/-- The cost of every position has its sign; prices are multiplied by something positive. -/
structure Signed (ledger : Ledger) : Prop where
  terms : ∀ {i T}, ledger.terms.get? i = some T → 0 < T.multiplier
  positions : ∀ p i, (ledger.position_of p i).Signed

section Signed
variable {terms : InstrumentTerms} {fill : Fill} {side : Side} {ledger ledger' : Ledger} {participant : ParticipantId}
  {instrument : InstrumentId} {x : Unit} {position : Position} {currency : CurrencyId} {quantity : Int}
  {input : Option (InstrumentId × Int)}

variable (signed : ledger.Signed)
include signed

theorem Signed.insert (here : position.Signed) :
    Signed { ledger with positions := ledger.positions.insert (toLex (participant,instrument)) position } := by
  refine ⟨signed.terms,fun p i => ?_⟩
  unfold position_of
  rw [OrdMap.get?_insert]
  split_ifs
  · exact here
  · exact signed.positions p i

theorem Signed.put {cash : CashBalance}
    (here : position.Signed) : (ledger.put participant currency instrument cash position).Signed :=
  ⟨signed.terms,(signed.insert here).positions⟩

theorem Signed.leg {party : Option FillParty} {value : Int} (price : 0 < fill.price)
    (found : ledger.terms.get? fill.instrument = some terms) (leg : Leg terms value fill side party ledger ledger') :
    ledger'.Signed := by
  cases party with
  | none => rw [leg]; exact signed
  | some party =>
    obtain ⟨cash,position,ran,rfl⟩ := leg
    obtain ⟨_,_,_,kept⟩ := settle_leg_costs ran
    exact signed.put (kept (signed.positions _ _) (mul_pos price (signed.terms found)))

theorem Signed.settle (ran : (settle fill).run ledger = .ok x ledger') : ledger'.Signed := by
  obtain ⟨terms,bought,sold,found,_,price,buys,sells,rfl⟩ := settle_ok ran
  have first := signed.leg price found buys
  rw [← buys.terms] at found
  have second := first.leg price found sells
  exact ⟨second.terms,second.positions⟩

theorem Signed.change_open {order : Reservation} {opening : Bool}
    (ran : (change_open participant instrument side quantity order opening).run ledger = .ok x ledger') :
    ledger'.Signed := by
  obtain ⟨terms,_,_,⟨_,_,_,holds⟩,rfl⟩ := change_open_ok ran
  obtain ⟨flat,long,short,reserved⟩ := signed.positions participant instrument
  refine signed.put ⟨by simpa using flat,by simpa using long,by simpa using short,?_⟩
  by_cases inventory : side = .Sell ∧ order.inventory = true
  · exact (holds inventory.1 inventory.2).1
  · rw [Position.opened_reserved,if_neg inventory,add_zero]
    exact reserved

theorem Signed.post_cash {amount : Int}
    (ran : (post_cash participant currency amount).run ledger = .ok x ledger') : ledger'.Signed := by
  obtain ⟨_,rfl⟩ := post_cash_ok ran
  exact ⟨signed.terms,signed.positions⟩

/-- What a conversion takes leaves its holding with the rest of the cost, and carries some cost. -/
theorem Signed.convert_input {holding : Position × Int}
    (ran : ledger.convert_input participant instrument quantity = .ok holding) :
    holding.1.Signed ∧ 0 ≤ holding.2 ∧ 0 ≤ holding.1.quantity := by
  simp only [Ledger.convert_input,returned,overflow_eq_ok,not_le,not_lt] at ran
  obtain ⟨_,_,positive,available,free,enough,transferred,transfers,basis,basis_fits,left,left_fits,rfl⟩ := ran
  have signed := signed.positions participant instrument
  have held := to_i64_some free
  have reserved := signed.reserved
  have long : 0 < (ledger.position_of participant instrument).quantity := by omega
  rw [if_pos long] at transfers
  obtain ⟨product,product_fits,same⟩ := except_map_eq_ok.mp transfers
  rw [to_i128_some (overflow_eq_ok.mp product_fits)] at same
  have part := @part_of_cost _ quantity _ (signed.long long) positive.le (by omega) long
  rw [same] at part
  rw [to_i128_some basis_fits,to_i64_some left_fits]
  refine ⟨⟨fun gone => ?_,fun _ => ?_,fun short => ?_,reserved⟩,part.1,?_⟩
  · simp only at gone ⊢
    have all : quantity = (ledger.position_of participant instrument).quantity := by omega
    rw [all,Int.mul_tdiv_cancel _ long.ne'] at same
    omega
  · simp only; omega
  · simp only at short; omega
  · simp only; omega

/-- The ledger without the input of a conversion, and the cost it carries. -/
theorem Signed.convert_taken
    {taken : OrdMap (ParticipantId ×ₗ InstrumentId) Position × Int} (ran : ledger.convert_taken participant input = .ok taken) :
    Signed { ledger with positions := taken.1 } ∧ 0 ≤ taken.2 ∧ ∀ i, 0 ≤ (ledger.position_of participant i).quantity →
      0 ≤ (({ ledger with positions := taken.1 } : Ledger).position_of participant i).quantity := by
  cases input with
  | none =>
    cases except_pure_eq_ok.mp ran
    exact ⟨signed,le_rfl,fun _ long => long⟩
  | some given =>
    simp only [Ledger.convert_taken,returned] at ran
    obtain ⟨holding,takes,rfl⟩ := ran
    obtain ⟨here,carried,left⟩ := signed.convert_input takes
    refine ⟨signed.insert here,carried,fun i long => ?_⟩
    simp only [position_of,OrdMap.get?_insert]
    split_ifs
    · exact left
    · exact long

/-- A conversion into a holding that is not short keeps the signs. -/
theorem Signed.convert {output : Option (InstrumentId × Int)}
    (ran : (convert participant input output).run ledger = .ok x ledger')
    (long : ∀ given ∈ output, 0 ≤ (ledger.position_of participant given.1).quantity) : ledger'.Signed := by
  simp only [Ledger.convert,returned] at ran
  obtain ⟨taken,takes,positions,gives,rfl⟩ := ran
  obtain ⟨rest,carried,kept⟩ := signed.convert_taken takes
  cases output with
  | none =>
    cases except_pure_eq_ok.mp gives
    exact rest
  | some given =>
    simp only [convert_given,returned,overflow_eq_ok,not_le] at gives
    obtain ⟨_,_,positive,quantity,fits,basis,basis_fits,rfl⟩ := gives
    have held := kept given.1 (long given rfl)
    have signed := rest.positions participant given.1
    have cost := signed.nonneg held
    have here : Position.Signed { (taken.1.get? (toLex (participant,given.1))).getD {} with
        quantity, cost_basis := basis } := by
      rw [to_i64_some fits,to_i128_some basis_fits]
      unfold position_of at held cost
      refine ⟨fun gone => ?_,fun _ => ?_,fun short => ?_,signed.reserved⟩
      · simp only at gone held; omega
      · simp only at cost ⊢; omega
      · simp only at short held; omega
    exact Signed.insert rest here

end Signed

end Ledger

end Bunting
