import Bunting.Cancels

/-!
Settling executions. One execution takes its quantity from two live records and
from the accounts of their owners. Within a sweep the maker rests and the taker
is in flight; in an auction both rest.
-/

namespace Bunting
open Stateful

theorem reported_terminal (owned : OwnedOrder) (quantity : Int) (id : OrderId) :
    (reported owned quantity id).filterMap EventPayload.terminal = ended_by owned quantity id := by
  unfold reported ended_by
  split_ifs <;> simp [EventPayload.terminal]

theorem reported_routine (owned : OwnedOrder) (quantity : Int) (id : OrderId) :
    ∀ payload ∈ reported owned quantity id, payload.Routine := by
  intro payload member
  rw [List.mem_singleton.mp member]
  split_ifs <;> exact ⟨trivial,rfl,rfl⟩

section Reduce
variable {t t' : Transition} {id : OrderId} {quantity : Int} {report : List EventPayload} {owned : OwnedOrder}

theorem reduce_order_run (ran : (reduce_order id quantity).run t = .ok report t') :
    ∃ owned, t.run.ownership.get? id = some owned ∧ quantity ≤ owned.remaining_quantity ∧
      report = reported owned quantity id ∧
      t' = { t with run := { t.run with ownership := t.run.ownership.insert id (owned.reduced quantity) } } := by
  simp only [reduce_order,modify_run,returned,not_lt] at ran
  obtain ⟨owned,found,left,fits,enough,rfl,rfl⟩ := ran
  cases to_i64_some fits
  refine ⟨owned,found,by omega,?_,rfl⟩
  unfold reported
  simp only [sub_eq_zero]

theorem reduce_order_error {fault : Fault}
    (failed : (reduce_order id quantity).run t = .error fault t') (found : t.run.ownership.get? id = some owned)
    (enough : quantity ≤ owned.remaining_quantity) : fault.cause = .Overflow := by
  simp only [reduce_order,modify_run,returned,raised] at failed
  obtain ⟨missing,_⟩ | ⟨owned',found',⟨_,rfl,_⟩ | ⟨left,fits,⟨short,_⟩⟩⟩ := failed
  · rw [found] at missing; cases missing
  · rfl
  · cases found.symm.trans found'
    have := to_i64_some fits
    omega

theorem drop_filled_expiry_eq {run : RunState} (found : run.ownership.get? id = some (owned.reduced quantity)) :
    drop_filled_expiry id owned.expires_at run =
      { run with expiries := expiries_after owned quantity id run.expiries } := by
  have spent : (owned.reduced quantity).remaining_quantity = 0 ↔ owned.remaining_quantity = quantity := by
    simp only [OwnedOrder.reduced]; omega
  unfold drop_filled_expiry expiries_after drop_expiry
  rw [found]
  simp only [Option.any_some,decide_eq_true_eq,spent]
  cases owned.expires_at <;> split_ifs <;> rfl

theorem drop_filled_expiries {maker_id taker_id : OrderId} {maker taker : OwnedOrder} (run : RunState) (auction : Bool)
    (maker_left : run.ownership.get? maker_id = some (maker.reduced quantity))
    (taker_left : run.ownership.get? taker_id = some (taker.reduced quantity)) :
    (if auction = true then
        drop_filled_expiry taker_id taker.expires_at (drop_filled_expiry maker_id maker.expires_at run)
      else drop_filled_expiry maker_id maker.expires_at run) =
      { run with
        expiries :=
          if auction = true then
            expiries_after taker quantity taker_id (expiries_after maker quantity maker_id run.expiries)
          else expiries_after maker quantity maker_id run.expiries } := by
  rw [drop_filled_expiry_eq maker_left]
  cases auction with
  | false => rfl
  | true =>
    simp only [if_true]
    rw [drop_filled_expiry_eq]
    exact taker_left

end Reduce

section Fill
variable {t t' : Transition} {key : ListingKey} {maker_id taker_id : OrderId} {price quantity : Int} {auction : Bool}
  {x : Unit} {fees : FeeSchedule} {trade : EventPayload}

theorem taker_fee_le {fee : Int} (ran : per_lot_fee fees.taker_per_lot quantity = .ok fee)
    (nonneg : 0 ≤ quantity) : fee ≤ fees.bound * quantity := by
  rw [to_i128_some (except_orElse_eq_ok.mp ran)]
  exact Int.mul_le_mul_of_nonneg_right fees.taker_le_bound nonneg

/-- A maker pays its own fee, and in an auction the taker's. -/
theorem maker_fee_le {fee : Int}
    (ran : per_lot_fee (if auction = true then fees.taker_per_lot else fees.maker_per_lot) quantity = .ok fee)
    (nonneg : 0 ≤ quantity) : fee ≤ fees.bound * quantity := by
  rw [to_i128_some (except_orElse_eq_ok.mp ran)]
  refine Int.mul_le_mul_of_nonneg_right ?_ nonneg
  split_ifs
  · exact fees.taker_le_bound
  · exact fees.maker_le_bound

theorem per_lot_fee_error {per_lot : Int} {fault : Fault} (failed : per_lot_fee per_lot quantity = .error fault) :
    fault.cause = .Overflow := by
  rw [← (except_orElse_eq_error.mp failed).2]
  rfl

theorem record_fill_run {maker taker : OwnedOrder}
    (ran : (record_fill key maker_id taker_id maker taker price quantity auction trade).run t = .ok x t')
    (distinct : taker_id ≠ maker_id) (makes : t.run.ownership.get? maker_id = some maker)
    (takes : t.run.ownership.get? taker_id = some taker) :
    t' = t.filled key maker_id taker_id maker taker price quantity auction t.run.ledger trade := by
  simp only [record_fill,modify_run,emit,returned] at ran
  obtain ⟨maker_report,_,first,taker_report,_,second,rfl⟩ := ran
  obtain ⟨maker',makes',_,rfl,rfl⟩ := reduce_order_run first
  cases makes.symm.trans makes'
  obtain ⟨taker',takes',_,rfl,rfl⟩ := reduce_order_run second
  rw [OrdMap.get?_insert_of_ne distinct] at takes'
  cases takes.symm.trans takes'
  have maker_left : ((t.run.ownership.insert maker_id (maker.reduced quantity)).insert taker_id
      (taker.reduced quantity)).get? maker_id = some (maker.reduced quantity) := by
    rw [OrdMap.get?_insert_of_ne distinct.symm,OrdMap.get?_insert_self]
  have dropped := drop_filled_expiries { t.run with
    day_trades := if t.run.calendar.isSome then t.run.day_trades.insert key price else t.run.day_trades
    ownership := (t.run.ownership.insert maker_id (maker.reduced quantity)).insert taker_id (taker.reduced quantity) }
    auction maker_left (OrdMap.get?_insert_self _ _ _)
  rw [dropped]
  cases auction <;> rfl

section Deals
variable {ownership : OrdMap OrderId OwnedOrder} {maker taker : OwnedOrder} {fault : Fault}

theorem Deals.records (deals : Deals ownership key maker_id taker_id maker taker price quantity) :
    ownership.get? maker_id = some maker ∧ ownership.get? taker_id = some taker ∧ taker_id ≠ maker_id ∧
    maker.state = .Active ∧ taker.state = .Active ∧ maker.listing_key = key ∧ taker.listing_key = key ∧
    quantity ≤ maker.remaining_quantity ∧ quantity ≤ taker.remaining_quantity := by
  unfold Deals at deals
  cases side : taker.side with
  | Buy =>
    rw [side] at deals
    exact ⟨deals.sells,deals.buys,deals.distinct.symm,deals.sell_live,deals.buy_live,deals.sell_key,deals.buy_key,
      deals.sell_left,deals.buy_left⟩
  | Sell =>
    rw [side] at deals
    exact ⟨deals.buys,deals.sells,deals.distinct,deals.buy_live,deals.sell_live,deals.buy_key,deals.sell_key,
      deals.buy_left,deals.sell_left⟩

theorem record_fill_error {trade : EventPayload}
    (failed : (record_fill key maker_id taker_id maker taker price quantity auction trade).run t = .error fault t')
    (deals : Deals t.run.ownership key maker_id taker_id maker taker price quantity) : fault.cause = .Overflow := by
  obtain ⟨makes,takes,distinct,_,_,_,_,maker_left,taker_left⟩ := deals.records
  simp only [record_fill,modify_run,emit,returned,raised] at failed
  obtain stuck | ⟨report,_,first,stuck⟩ := failed
  · exact reduce_order_error stuck makes maker_left
  · obtain ⟨maker',makes',_,rfl,rfl⟩ := reduce_order_run first
    refine reduce_order_error stuck ?_ taker_left
    rw [OrdMap.get?_insert_of_ne distinct]
    exact takes

variable {F : Frame} (setup : t.run.setup = F.setup) (balanced : Balanced F t.run.ledger t.run.ownership)
  (deals : Deals t.run.ownership key maker_id taker_id maker taker price quantity) (positive : 0 < quantity)
  (maker_admitted : Admitted F.setup maker) (taker_admitted : Admitted F.setup taker)
include setup balanced deals positive maker_admitted taker_admitted

theorem settle_fill_ok (grid : F.setup.OnGrid key price) (resting : auction = false → price = maker.limit_price)
    (ran : (settle_fill key maker_id taker_id price quantity auction).run t = .ok x t') :
    ∃ ledger trade, Dealt F.setup t key maker_id taker_id maker taker price quantity auction ledger trade ∧
      Balanced F ledger ((t.run.ownership.insert maker_id (maker.reduced quantity)).insert taker_id
        (taker.reduced quantity)) ∧
      t' = t.filled key maker_id taker_id maker taker price quantity auction ledger trade := by
  obtain ⟨makes,takes,distinct,_⟩ := deals.records
  simp only [settle_fill,posting,returned] at ran
  obtain ⟨listing,known,maker',makes',taker',takes',_,maker_fee,maker_charged,taker_fee,taker_charged,_,⟨ledger,settles,
    rfl⟩,records⟩ := ran
  cases makes.symm.trans makes'
  cases takes.symm.trans takes'
  have recorded := record_fill_run records distinct makes takes
  have listed := RunState.definition_of_listing known
  rw [setup] at listed
  have enrolled : t.run.participants = F.setup.participants := by rw [← setup]; rfl
  rw [enrolled] at settles
  have maker_bound := maker_fee_le maker_charged positive.le
  have taker_bound := taker_fee_le taker_charged positive.le
  have fill : (Ledger.settle (deal_fill F.setup key maker taker price quantity maker_fee taker_fee)).run t.run.ledger =
      .ok () ledger := by
    unfold deal_fill
    cases side : taker.side <;> simpa [side,execution_fill] using settles
  have trade : EventPayload.TradeExecuted key.instrument_id (some key) maker_id taker_id
      (if taker.side = .Buy then taker.party F.setup.participants taker_fee
        else maker.party F.setup.participants maker_fee).participant
      (if taker.side = .Buy then maker.party F.setup.participants maker_fee
        else taker.party F.setup.participants taker_fee).participant price quantity
      (if taker.side = .Buy then taker.party F.setup.participants taker_fee
        else maker.party F.setup.participants maker_fee).fee
      (if taker.side = .Buy then maker.party F.setup.participants maker_fee
        else taker.party F.setup.participants taker_fee).fee =
      deal_trade key maker_id taker_id maker taker price quantity maker_fee taker_fee := by
    unfold deal_trade
    cases side : taker.side <;> simp [OwnedOrder.party]
  have settled : Balanced F ledger ((t.run.ownership.insert maker_id (maker.reduced quantity)).insert taker_id
      (taker.reduced quantity)) := by
    unfold deal_fill at fill
    have roles := deals
    unfold Deals at roles
    cases side : taker.side with
    | Buy =>
      rw [side] at roles fill
      obtain ⟨balanced',_⟩ := balanced.fill roles maker_admitted listed maker_bound fill
      rw [executed,OrdMap.insert_comm _ _ _ distinct] at balanced'
      exact balanced'
    | Sell =>
      rw [side] at roles fill
      exact (balanced.fill roles taker_admitted listed taker_bound fill).1
  refine ⟨ledger,_,⟨deals,positive,grid,maker_admitted,taker_admitted,resting,listing.definition,maker_fee,taker_fee,listed,
    maker_bound,taker_bound,fill,rfl⟩,settled,?_⟩
  rw [recorded]
  simp only [Transition.filled,enrolled,trade]

/-- Settling an execution of live orders fails by overflow, or where the buyer's cash is not vouched for. -/
theorem settle_fill_error (fair : Fair t.run.ownership) (price_positive : 0 < price)
    (failed : (settle_fill key maker_id taker_id price quantity auction).run t = .error fault t') :
    F.Allows fault t' := by
  obtain ⟨makes,takes,distinct,live,_,maker_key,taker_key,_⟩ := deals.records
  have found : ∃ listing, t.run.listings.get? key = some listing := by
    obtain ⟨D,_,listed,_⟩ := maker_admitted
    rw [← setup,maker_key] at listed
    obtain ⟨listing,known,_⟩ := RunState.listing_of_definition listed
    exact ⟨listing,known⟩
  obtain ⟨listing,known⟩ := found
  have listed := RunState.definition_of_listing known
  rw [setup] at listed
  have enrolled : t.run.participants = F.setup.participants := by rw [← setup]; rfl
  simp only [settle_fill,posting,returned,raised] at failed
  obtain ⟨missing,_⟩ | ⟨_,known',⟨missing,_⟩ | ⟨_,makes',⟨missing,_⟩ | ⟨_,takes',⟨wrong,_⟩ | ⟨_,⟨large,_⟩ |
    ⟨maker_fee,maker_charged,⟨large,_⟩ | ⟨taker_fee,taker_charged,⟨e,ledger,stuck,rfl,_⟩ |
    ⟨_,⟨ledger,settles,rfl⟩,stuck⟩⟩⟩⟩⟩⟩⟩ := failed
  · rw [known] at missing; cases missing
  · rw [makes] at missing; cases missing
  · rw [takes] at missing; cases missing
  · cases makes.symm.trans makes'
    cases takes.symm.trans takes'
    rcases wrong with other | ended | other
    · exact absurd maker_key other
    · exact absurd live ended
    · exact absurd taker_key other
  · exact F.allows_overflow (per_lot_fee_error large)
  · exact F.allows_overflow (per_lot_fee_error large)
  · cases known.symm.trans known'
    cases makes.symm.trans makes'
    cases takes.symm.trans takes'
    rw [enrolled] at stuck
    by_cases vouched : F.covered
    · refine F.allows_overflow ?_
      have large : e = .ArithmeticOverflow := by
        unfold Deals at deals
        cases side : taker.side with
        | Buy =>
          rw [side] at deals
          simp only [side,if_true] at stuck
          exact balanced.accounts.settle_error deals (balanced.covered vouched) F.valid fair taker_admitted
            maker_admitted listed positive price_positive (taker_fee_le taker_charged positive.le) stuck
        | Sell =>
          rw [side] at deals
          simp only [side,reduceCtorEq,if_false] at stuck
          exact balanced.accounts.settle_error deals (balanced.covered vouched) F.valid fair maker_admitted
            taker_admitted listed positive price_positive (maker_fee_le maker_charged positive.le) stuck
      rw [Fault.settling,if_pos large]
    · refine ⟨?_,fun other => absurd other ?_,fun _ _ => vouched⟩ <;> unfold Fault.settling <;> simp only <;>
        split_ifs <;> simp
  · cases makes.symm.trans makes'
    cases takes.symm.trans takes'
    exact F.allows_overflow (record_fill_error stuck deals)

end Deals

/-- The invariant after an execution, once the records are accounted for. -/
theorem Core.filled {F : Frame} {views views' : Views} {flight : Option OrderId} {maker taker : OwnedOrder} {ledger : Ledger}
    (core : Core F views flight t) (fills : F.mode.Fills key taker_id price auction)
    (dealt : Dealt F.setup t key maker_id taker_id maker taker price quantity auction ledger trade)
    (done : t' = t.filled key maker_id taker_id maker taker price quantity auction ledger trade)
    (balanced : Balanced F ledger t'.run.ownership)
    (records : Records F.setup views' flight
      (t.payloads.filterMap EventPayload.terminal ++ ended_by maker quantity maker_id ++
        (if auction then ended_by taker quantity taker_id else []))
      t'.run.ownership t'.run.expiries t.run.retired t.run.live_orders) : Core F views' flight t' := by
  subst done
  have reports : trade.Routine ∧ trade.terminal = none := by
    obtain ⟨_,maker_fee,taker_fee,_,_,_,_,rfl⟩ := dealt.settled
    obtain ⟨_,_,_,_,same⟩ := deal_trade_eq key maker_id taker_id maker taker price quantity maker_fee taker_fee
    rw [same]
    exact ⟨⟨rfl,rfl,rfl⟩,rfl⟩
  obtain ⟨routine,plain⟩ := reports
  have ends : (t.filled key maker_id taker_id maker taker price quantity auction ledger trade).payloads.filterMap
      EventPayload.terminal = t.payloads.filterMap EventPayload.terminal ++ ended_by maker quantity maker_id ++
        (if auction then ended_by taker quantity taker_id else []) := by
    simp only [Transition.filled,List.filterMap_append,reported_terminal,apply_ite (List.filterMap EventPayload.terminal)]
    simp [plain]
  refine { core with
    setup := RunState.setup_of core.setup rfl balanced rfl
    records := by rw [ends]; exact records
    balanced
    trades := fun {j value} there => ?_
    emitted := ?_
    moves := core.moves.tail (.filled fills dealt) }
  · simp only [Transition.filled] at there
    split_ifs at there
    · exact OrdMap.of_insert there dealt.grid.positive fun _ _ => core.trades
    · exact core.trades there
  · refine ((core.emitted.append (reported_routine _ _ _)).append fun payload its => ?_).append fun payload last => ?_
    · split_ifs at its
      · exact reported_routine _ _ _ payload its
      · cases its
    · rw [List.mem_singleton.mp last]; exact routine

end Fill

end Bunting
