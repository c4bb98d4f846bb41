import Bunting.AuctionPrice

/-!
What a call auction leaves. The price it chooses matches the most volume; the
uncrossing at a price takes that volume from the best orders of both sides, so
that a bid left at or above an offer left would have matched more.
-/

namespace Bunting
open Stateful

namespace Book

/-- Every bid is below every offer. -/
def Clear (view : OrdMap OrderId Resting) : Prop :=
  ∀ i j buy sell, view.get? i = some buy → view.get? j = some sell → buy.side = .Buy → sell.side = .Sell →
    buy.price < sell.price

theorem Sound.clear_best {book : Book} (sound : book.Sound) (clear : Clear book.view) {bid ask : Int}
    (best_bid : book.best .Buy = some bid) (best_ask : book.best .Sell = some ask) : bid < ask := by
  obtain ⟨_,bids⟩ := best_some best_bid
  obtain ⟨_,asks⟩ := best_some best_ask
  obtain ⟨i,buy,buys,buy_side,rfl⟩ := sound.level_rests bids
  obtain ⟨j,sell,sells,sell_side,rfl⟩ := sound.level_rests asks
  exact clear i j buy sell buys sells buy_side sell_side

/-! ### What is left -/

def crossed_volume (crosses : List Cross) : Int := (crosses.map Cross.quantity).sum

section Left
variable {price : Int} {view view' : OrdMap OrderId Resting} {crosses : List Cross} {c : Cross} {buy sell : Resting}
  {id : OrderId} {order : Resting} {taker : Side}

/-- An order that is left was there, at its side and price. -/
theorem crossed_left (once : CrossedOnce price view c buy sell)
    (found : (crossed view c buy sell).get? id = some order) :
    ∃ before, view.get? id = some before ∧ before.side = order.side ∧ before.price = order.price := by
  have kept {owner : Resting} {quantity : Int} (left : owner.taken quantity = some order) :
      owner.side = order.side ∧ owner.price = order.price := by
    unfold Resting.taken at left
    split_ifs at left
    cases left
    exact ⟨rfl,rfl⟩
  rw [crossed,OrdMap.get?_set,OrdMap.get?_set] at found
  split_ifs at found with at_sell at_buy
  · exact ⟨sell,at_sell ▸ once.sells,kept found⟩
  · exact ⟨buy,at_buy ▸ once.buys,kept found⟩
  · exact ⟨order,found,rfl,rfl⟩

theorem Crossed.left (crossed : Crossed price view crosses view') (found : view'.get? id = some order) :
    ∃ before, view.get? id = some before ∧ before.side = order.side ∧ before.price = order.price := by
  induction crossed with
  | nil => exact ⟨order,found,rfl,rfl⟩
  | cons once _ ih =>
    obtain ⟨between,there,side,at_price⟩ := ih found
    obtain ⟨before,first,side',at_price'⟩ := crossed_left once there
    exact ⟨before,first,side'.trans side,at_price'.trans at_price⟩

/-- One cross takes its quantity from what a limit reaches that reaches the best order. -/
theorem crossed_reach (once : CrossedOnce price view c buy sell) {limit : Int}
    (reached : reaches taker (some limit) (match taker with | .Buy => sell.price | .Sell => buy.price) = true) :
    reach taker (some limit) (crossed view c buy sell) = reach taker (some limit) view - c.quantity := by
  have still : (view.set c.buy (buy.taken c.quantity)).get? c.sell = some sell := by
    rw [OrdMap.get?_set_of_ne _ _ once.distinct,once.sells]
  rw [crossed,reach_taken still,reach_taken once.buys]
  cases taker with
  | Buy => simp [once.buy_side,once.sell_side,Side.opposite,reached]
  | Sell => simp [once.buy_side,once.sell_side,Side.opposite,reached]

/-- Crosses take their volume from what a limit reaches that reaches the price, or an order that is left. -/
theorem Crossed.reach (crossed : Crossed price view crosses view') {limit : Int}
    (reached : reaches taker (some limit) price = true ∨ ∃ id order, view'.get? id = some order ∧
      order.side = taker.opposite ∧ reaches taker (some limit) order.price = true) :
    Book.reach taker (some limit) view' = Book.reach taker (some limit) view - crossed_volume crosses := by
  induction crossed with
  | nil => simp [crossed_volume]
  | @cons view view' c rest buy sell once more ih =>
    rw [ih reached,crossed_reach once ?_]
    · simp only [crossed_volume,List.map_cons,List.sum_cons]
      omega
    -- The orders of the cross are the best of their sides, so the limit reaches them too.
    · rcases reached with at_price | ⟨id,order,found,side,at_order⟩
      · have above := once.bid
        have below := once.ask
        cases taker <;> simp [reaches,Bunting.crosses] at at_price ⊢ <;> omega
      · obtain ⟨between,there,side',same'⟩ := more.left found
        obtain ⟨before,first,side'',same''⟩ := crossed_left once there
        have own : before.side = taker.opposite := side''.trans (side'.trans side)
        have best_bid := once.best_bid id before first
        have best_ask := once.best_ask id before first
        cases taker with
        | Buy =>
          have := best_ask own
          simp [reaches,Bunting.crosses] at at_order ⊢
          omega
        | Sell =>
          have := best_bid own
          simp [reaches,Bunting.crosses] at at_order ⊢
          omega

end Left

section Clear
variable {book book' : Book} {reference price volume : Int}

variable (sound : book.Sound)
include sound

theorem Sound.reach_pos {taker : Side} {limit : Option Int} {id : OrderId} {order : Resting}
    (found : book.view.get? id = some order) (side : order.side = taker.opposite)
    (reached : reaches taker limit order.price = true) : 0 < reach taker limit book.view := by
  have nonneg (j : OrderId) (other : Resting) (there : book.view.get? j = some other) : 0 ≤ reachable taker limit other := by
    unfold reachable
    split_ifs
    · exact (sound.view_positive there).1.le
    · exact le_rfl
  have part := OrdMap.le_sum nonneg found
  rw [reachable,if_pos ⟨side,reached⟩] at part
  exact (sound.view_positive found).1.trans_le part

/-- A book on which nothing trades at any price is clear. -/
theorem Sound.clear_of_matched (none : ∀ id order, book.view.get? id = some order → matched book.view order.price ≤ 0) :
    Clear book.view := by
  intro i j buy sell buys sells buy_side sell_side
  by_contra crossing
  have demanded : 0 < reach .Sell (some buy.price) book.view :=
    sound.reach_pos buys buy_side (by simp [reaches,Bunting.crosses])
  have supplied : 0 < reach .Buy (some buy.price) book.view :=
    sound.reach_pos sells sell_side (by simp [reaches,Bunting.crosses]; omega)
  exact absurd (none i buy buys) (not_le.mpr (lt_min demanded supplied))

/-- At the price of an uncrossing one side is exhausted. -/
theorem Sound.uncrossed_exhausted (uncrossed : Uncrossed price book) :
    Exhausted .Sell (some price) book ∨ Exhausted .Buy (some price) book := by
  have gone {side : Side} (none : book.best side = none) {id : OrderId} {order : Resting}
      (found : book.view.get? id = some order) (own : order.side = side) : False := by
    obtain ⟨level,there⟩ := sound.has_level found
    obtain ⟨_,best⟩ := exists_best there
    rw [own,none] at best
    cases best
  cases best_bid : book.best .Buy with
  | none => exact .inl fun id order found side => (gone best_bid found side).elim
  | some bid =>
    cases best_ask : book.best .Sell with
    | none => exact .inr fun id order found side => (gone best_ask found side).elim
    | some ask =>
      rcases uncrossed bid ask best_bid best_ask with low | high
      · refine .inl fun id order found side => ?_
        have := sound.le_best best_bid found side
        simp [reaches,Bunting.crosses]
        omega
      · refine .inr fun id order found side => ?_
        have := sound.best_le best_ask found side
        simp [reaches,Bunting.crosses]
        omega

/-- An uncrossing at the auction price executes the volume of the auction. -/
theorem Sound.uncross_volume (auction : book.auction_price reference = some (price,volume)) {crosses : List Cross}
    (ran : (uncross price).run book = .ok crosses book') : crossed_volume crosses = volume := by
  obtain ⟨sound',crossed,uncrossed,_⟩ := uncross_ok sound ran
  have nonneg (taker : Side) : 0 ≤ reach taker (some price) book'.view := OrdMap.sum_nonneg fun id order there => by
    have := (sound'.view_positive there).1
    unfold reachable
    split_ifs <;> omega
  have reached (taker : Side) : reach taker (some price) book'.view = reach taker (some price) book.view -
      crossed_volume crosses := crossed.reach (.inl (by cases taker <;> simp [reaches,Bunting.crosses]))
  have demand := reached .Sell
  have supply := reached .Buy
  have := nonneg .Buy
  have := nonneg .Sell
  rw [(sound.auctioned auction).2.1]
  unfold matched
  obtain none | none := sound'.uncrossed_exhausted uncrossed
  · have := none.reach
    omega
  · have := none.reach
    omega

/-- An auction leaves a clear book: a bid left at or above an offer left would have traded more volume than was chosen. -/
theorem Sound.uncross_clears (auction : book.auction_price reference = some (price,volume))
    {all : List Cross} (ran : (uncross price).run book = .ok all book') : Clear book'.view := by
  obtain ⟨sound',crossed,_⟩ := uncross_ok sound ran
  obtain ⟨_,chosen,_,preferred⟩ := sound.auctioned auction
  have traded := sound.uncross_volume auction ran
  intro i j buy sell buys sells buy_side sell_side
  by_contra crossing
  have more_demand := @Crossed.reach _ _ _ _ .Sell crossed buy.price
    (.inr ⟨i,buy,buys,buy_side,by simp [reaches,Bunting.crosses]⟩)
  have more_supply := @Crossed.reach _ _ _ _ .Buy crossed buy.price
    (.inr ⟨j,sell,sells,sell_side,by simp [reaches,Bunting.crosses]; omega⟩)
  have demanded : 0 < reach .Sell (some buy.price) book'.view :=
    sound'.reach_pos buys buy_side (by simp [reaches,Bunting.crosses])
  have supplied : 0 < reach .Buy (some buy.price) book'.view :=
    sound'.reach_pos sells sell_side (by simp [reaches,Bunting.crosses]; omega)
  obtain ⟨before,there,_,same⟩ := crossed.left buys
  have bound := preferred buy.price ⟨i,before,there,same⟩
  have bigger : crossed_volume all < matched book.view buy.price := lt_min (by omega) (by omega)
  unfold Preferred at bound
  omega

end Clear

end Book

end Bunting
