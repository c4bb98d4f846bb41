import Bunting.Matching

/-!
The call auction on a sound book. Every cross of the uncrossing takes one
positive quantity from a bid at or above the price and from an offer at or below
it, and when it ends no such pair is left.
-/

namespace Bunting
open Stateful

namespace Book

section Cross
variable {book book' : Book} {order : BookOrder} {quantity remaining price bid ask : Int} {c : Cross} {e : BookError}

theorem fill_resting_ok (sound : book.Sound) (found : book.orders.get? order.order_id = some order)
    (positive : 0 < quantity) (ran : (fill_resting order quantity).run book = .ok remaining book') :
    Taken order quantity book book' ∧ remaining = order.remaining - quantity := by
  simp only [fill_resting,returned] at ran
  obtain ⟨between,removes,left,fits,after,keeps,rfl,rfl⟩ := ran
  obtain ⟨order',removed⟩ := remove_ok removes
  cases found.symm.trans removed.found
  obtain ⟨fits,nonneg⟩ := Option.filter_eq_some_iff.mp fits
  have left_eq := to_i64_some fits
  exact ⟨keep_resting_ok sound removed positive left_eq (by simpa using nonneg) keeps,left_eq⟩

/-- A fill of a resting order fails only where the priorities have run out. -/
theorem fill_resting_error (sound : book.Sound) (found : book.orders.get? order.order_id = some order)
    (positive : 0 < quantity) (enough : quantity ≤ order.remaining)
    (failed : (fill_resting order quantity).run book = .error e book') :
    e = .Overflow ∧ 18446744073709551615 ≤ book.next_priority := by
  have bound := sound.order_fits found
  simp only [fill_resting,returned,raised] at failed
  obtain stuck | ⟨between,removes,⟨high,rfl,_⟩ | ⟨left,fits,stuck⟩⟩ := failed
  · obtain ⟨_,removes⟩ := sound.remove_total found
    rw [removes] at stuck
    cases stuck
  · rw [to_i64_of_fits (by omega) (by omega),Option.filter_some,if_pos (by simp; omega)] at high
    cases high
  · obtain ⟨order',removed⟩ := remove_ok removes
    cases found.symm.trans removed.found
    exact keep_resting_error sound removed positive (to_i64_some (Option.filter_eq_some_iff.mp fits).1) stuck

section
variable (sound : book.Sound) {id : OrderId} {resting : Resting}
include sound

/-- The heads of both sides have something to trade and are two orders. -/
theorem heads_ok {buy sell : BookOrder} (buys : book.head .Buy bid = .ok buy) (sells : book.head .Sell ask = .ok sell) :
    0 < min buy.remaining sell.remaining ∧ sell.order_id ≠ buy.order_id := by
  obtain ⟨buy_found,buy_side,_⟩ := head_ok sound buys
  obtain ⟨sell_found,sell_side,_⟩ := head_ok sound sells
  have buy_formed := sound.order buy_found
  have sell_formed := sound.order sell_found
  refine ⟨lt_min (buy_formed.visible.trans_le buy_formed.hidden) (sell_formed.visible.trans_le sell_formed.hidden),
    fun same => ?_⟩
  rw [same,buy_found] at sell_found
  cases sell_found
  cases buy_side.symm.trans sell_side

theorem Sound.le_best (best : book.best .Buy = some bid)
    (found : book.view.get? id = some resting) (side : resting.side = .Buy) : resting.price ≤ bid := by
  obtain ⟨level,there⟩ := sound.has_level found
  rw [side] at there
  obtain ⟨entry,last,rfl⟩ := Option.map_eq_some_iff.mp best
  exact OrdMap.le_last? last there

theorem Sound.best_le (best : book.best .Sell = some ask)
    (found : book.view.get? id = some resting) (side : resting.side = .Sell) : ask ≤ resting.price := by
  obtain ⟨level,there⟩ := sound.has_level found
  rw [side] at there
  obtain ⟨entry,first,rfl⟩ := Option.map_eq_some_iff.mp best
  exact OrdMap.first?_le first there

end

/-- One cross on a view: one quantity is taken from the best bid, at or above the price, and the best offer, at or
    below it. -/
structure CrossedOnce (price : Int) (view : OrdMap OrderId Resting) (c : Cross) (buy sell : Resting) : Prop where
  buys : view.get? c.buy = some buy
  sells : view.get? c.sell = some sell
  buy_side : buy.side = .Buy
  sell_side : sell.side = .Sell
  bid : price ≤ buy.price
  ask : sell.price ≤ price
  best_bid : ∀ id order, view.get? id = some order → order.side = .Buy → order.price ≤ buy.price
  best_ask : ∀ id order, view.get? id = some order → order.side = .Sell → sell.price ≤ order.price
  positive : 0 < c.quantity
  buy_enough : c.quantity ≤ buy.remaining
  sell_enough : c.quantity ≤ sell.remaining
  buy_left : c.buy_remaining = buy.remaining - c.quantity
  sell_left : c.sell_remaining = sell.remaining - c.quantity

def crossed (view : OrdMap OrderId Resting) (c : Cross) (buy sell : Resting) : OrdMap OrderId Resting :=
  (view.set c.buy (buy.taken c.quantity)).set c.sell (sell.taken c.quantity)

theorem CrossedOnce.distinct {view : OrdMap OrderId Resting} {buy sell : Resting}
    (once : CrossedOnce price view c buy sell) : c.sell ≠ c.buy := by
  intro same
  have sells := once.sells
  rw [same,once.buys] at sells
  cases sells
  have side := once.buy_side
  rw [once.sell_side] at side
  cases side

/-- The head of the bids trades, then the head of the offers, and one of them is used up. -/
theorem cross_heads_ok (sound : book.Sound) (ran : (cross_heads bid ask).run book = .ok c book') :
    ∃ buy sell between, book.head .Buy bid = .ok buy ∧ book.head .Sell ask = .ok sell ∧ sell.order_id ≠ buy.order_id ∧
      Taken buy c.quantity book between ∧ Taken sell c.quantity between book' ∧ c.buy = buy.order_id ∧
      c.sell = sell.order_id ∧ c.quantity = min buy.remaining sell.remaining ∧
      c.buy_remaining = buy.remaining - c.quantity ∧ c.sell_remaining = sell.remaining - c.quantity := by
  simp only [cross_heads,returned] at ran
  obtain ⟨buy,buys,sell,sells,buy_left,between,first,sell_left,_,second,rfl,rfl⟩ := ran
  obtain ⟨positive,other⟩ := heads_ok sound buys sells
  obtain ⟨bought,buy_eq⟩ := fill_resting_ok sound (head_ok sound buys).1 positive first
  have still : between.orders.get? sell.order_id = some sell := by rw [bought.others other]; exact (head_ok sound sells).1
  obtain ⟨sold,sell_eq⟩ := fill_resting_ok bought.sound still positive second
  exact ⟨buy,sell,between,buys,sells,other,bought,sold,rfl,rfl,rfl,buy_eq,sell_eq⟩

theorem cross_heads_crossed (price : Int) (sound : book.Sound) (best_bid : book.best .Buy = some bid)
    (best_ask : book.best .Sell = some ask) (above : price ≤ bid) (below : ask ≤ price)
    (ran : (cross_heads bid ask).run book = .ok c book') :
    ∃ buy sell, CrossedOnce price book.view c buy sell ∧ book'.view = crossed book.view c buy sell := by
  obtain ⟨buy,sell,between,buys,sells,other,bought,sold,buyer,seller,_,buy_left,sell_left⟩ := cross_heads_ok sound ran
  obtain ⟨sell_found,sell_side,sell_price⟩ := head_ok sound sells
  obtain ⟨_,buy_side,buy_price⟩ := head_ok sound buys
  exact ⟨_,_,⟨by rw [buyer]; exact view_of_order bought.found,by rw [seller]; exact view_of_order sell_found,buy_side,
    sell_side,by simp only; omega,by simp only; omega,fun id order found side => buy_price ▸ sound.le_best best_bid found side,
    fun id order found side => sell_price ▸ sound.best_le best_ask found side,bought.positive,bought.enough,sold.enough,
    buy_left,sell_left⟩,by rw [sold.view,bought.view,crossed,buyer,seller]⟩

theorem cross_heads_error {bids asks : Level} (sound : book.Sound)
    (bid_level : book.level .Buy bid = some bids) (ask_level : book.level .Sell ask = some asks)
    (failed : (cross_heads bid ask).run book = .error e book') :
    e = .Overflow ∧ 18446744073709551615 < book.next_priority + 2 := by
  simp only [cross_heads,returned,raised] at failed
  obtain ⟨missing,_⟩ | ⟨bid_head,buys,⟨missing,_⟩ | ⟨ask_head,sells,stuck⟩⟩ := failed
  · obtain ⟨order,there⟩ := head_total sound bid_level
    rw [there] at missing
    cases missing
  · obtain ⟨order,there⟩ := head_total sound ask_level
    rw [there] at missing
    cases missing
  · obtain ⟨buy_found,_⟩ := head_ok sound buys
    obtain ⟨sell_found,_⟩ := head_ok sound sells
    obtain ⟨positive,other⟩ := heads_ok sound buys sells
    obtain stuck | ⟨buy_left,between,first,stuck⟩ := stuck
    · obtain ⟨rfl,full⟩ := fill_resting_error sound buy_found positive (min_le_left _ _) stuck
      exact ⟨rfl,by omega⟩
    · obtain ⟨bought,_⟩ := fill_resting_ok sound buy_found positive first
      obtain ⟨rfl,full⟩ := fill_resting_error bought.sound (by rw [bought.others other]; exact sell_found) positive
        (min_le_right _ _) stuck
      have := bought.next.2
      exact ⟨rfl,by omega⟩

end Cross

/-! ### The whole uncrossing -/

/-- A list of crosses on a view. -/
inductive Crossed (price : Int) : OrdMap OrderId Resting → List Cross → OrdMap OrderId Resting → Prop
  | nil {view} : Crossed price view [] view
  | cons {view view' c rest buy sell} (once : CrossedOnce price view c buy sell)
      (more : Crossed price (crossed view c buy sell) rest view') : Crossed price view (c :: rest) view'

/-- No bid and offer can both trade at the price. -/
def Uncrossed (price : Int) (book : Book) : Prop :=
  ∀ bid ask, book.best .Buy = some bid → book.best .Sell = some ask → bid < price ∨ ask > price

/-- An uncrossing, cross by cross. -/
inductive Uncrosses (price : Int) : Book → List Cross → Book → Prop
  | stop {book} (sound : book.Sound) (ends : Uncrossed price book) : Uncrosses price book [] book
  | cross {book between book' bid ask c rest} (sound : book.Sound) (best_bid : book.best .Buy = some bid)
      (best_ask : book.best .Sell = some ask) (above : price ≤ bid) (below : ask ≤ price)
      (crosses : (cross_heads bid ask).run book = .ok c between) (more : Uncrosses price between rest book') :
      Uncrosses price book (c :: rest) book'

section Uncross
variable {price : Int} {book book' : Book} {found all : List Cross} {fuel : Nat} {e : BookError}

theorem Taken.size {order : BookOrder} {quantity : Int} (taken : Taken order quantity book book') :
    book'.orders.size + (if quantity = order.remaining then 1 else 0) = book.orders.size := by
  have total := book.orders.sum_set (fun _ _ => 1) order.order_id (order.after book.next_priority quantity)
  rw [taken.found,Option.elim_some] at total
  have enough := taken.enough
  rw [OrdMap.size_eq_sum,OrdMap.size_eq_sum,taken.orders]
  unfold BookOrder.after at total ⊢
  dsimp only at total ⊢
  split_ifs at total ⊢ <;> simp only [Option.elim_none,Option.elim_some] at total <;> omega

variable (sound : book.Sound)
include sound

theorem uncross_loop_ok (enough : book.orders.size ≤ fuel)
    (ran : (uncross_loop price fuel found).run book = .ok all book') :
    ∃ more, all = found ++ more ∧ Uncrosses price book more book' := by
  induction fuel generalizing book found with
  | zero =>
    obtain ⟨rfl,rfl⟩ := pure_eq_ok.mp ran
    refine ⟨[],by simp,.stop sound fun bid ask buys _ => ?_⟩
    -- A best bid would be a resting order, and none is left.
    obtain ⟨level,there⟩ := best_some buys
    obtain ⟨order,head⟩ := head_total sound there
    have member := OrdMap.mem_of_get? (head_ok sound head).1
    have empty : book.orders.entries.length = 0 := Nat.le_zero.mp enough
    rw [List.length_eq_zero_iff.mp empty] at member
    cases member
  | succ fuel ih =>
    unfold uncross_loop at ran
    simp only [returned] at ran
    split at ran
    · rename_i bid ask buys sells
      split_ifs at ran with apart
      · obtain ⟨rfl,rfl⟩ := pure_eq_ok.mp ran
        refine ⟨[],by simp,.stop sound fun bid' ask' buys' sells' => ?_⟩
        cases buys.symm.trans buys'
        cases sells.symm.trans sells'
        exact apart
      · simp only [returned] at ran
        obtain ⟨c,between,crosses,rest⟩ := ran
        obtain ⟨buy,sell,_,_,_,_,bought,sold,_,_,quantity,_⟩ := cross_heads_ok sound crosses
        have fewer := bought.size
        have fewer' := sold.size
        have smaller : between.orders.size ≤ fuel := by
          rcases min_choice buy.remaining sell.remaining with all | all
          · rw [if_pos (by omega)] at fewer
            omega
          · rw [if_pos (by omega)] at fewer'
            omega
        obtain ⟨more,rfl,later⟩ := ih sold.sound smaller rest
        exact ⟨c :: more,by simp,.cross sound buys sells (by omega) (by omega) crosses later⟩
    · rename_i alone
      obtain ⟨rfl,rfl⟩ := pure_eq_ok.mp ran
      exact ⟨[],by simp,.stop sound fun bid ask buys sells => absurd sells (alone bid ask buys)⟩

theorem uncross_run (ran : (uncross price).run book = .ok all book') : Uncrosses price book all book' := by
  simp only [uncross,returned] at ran
  obtain ⟨more,rfl,uncrosses⟩ := uncross_loop_ok sound le_rfl ran
  exact uncrosses

theorem uncross_ok (ran : (uncross price).run book = .ok all book') :
    book'.Sound ∧ Crossed price book.view all book'.view ∧ Uncrossed price book' ∧ Advances book book' := by
  have uncrosses := uncross_run sound ran
  clear ran
  induction uncrosses with
  | stop _ ends => exact ⟨sound,.nil,ends,.refl _⟩
  | cross _ best_bid best_ask above below crosses _ ih =>
    obtain ⟨_,_,_,_,_,_,bought,sold,_⟩ := cross_heads_ok sound crosses
    obtain ⟨buy,sell,once,view⟩ := cross_heads_crossed price sound best_bid best_ask above below crosses
    obtain ⟨later,crossed,ended,advances⟩ := ih sold.sound
    exact ⟨later,.cons once (by rw [← view]; exact crossed),ended,
      ((bought.advances sound).trans (sold.advances bought.sound)).trans advances⟩

theorem uncross_loop_error (failed : (uncross_loop price fuel found).run book = .error e book') :
    e = .Overflow ∧ 18446744073709551615 < book.next_priority + 2 * fuel := by
  induction fuel generalizing book found with
  | zero => cases failed
  | succ fuel ih =>
    unfold uncross_loop at failed
    simp only [returned,raised] at failed
    split at failed
    · rename_i bid ask buys sells
      split_ifs at failed with apart
      · cases failed
      · obtain stuck | ⟨c,between,crosses,later⟩ := bind_eq_error.mp failed
        · obtain ⟨bids,bid_level⟩ := best_some buys
          obtain ⟨asks,ask_level⟩ := best_some sells
          obtain ⟨rfl,full⟩ := cross_heads_error sound bid_level ask_level stuck
          exact ⟨rfl,by omega⟩
        · obtain ⟨_,_,_,_,_,_,bought,sold,_⟩ := cross_heads_ok sound crosses
          obtain ⟨rfl,full⟩ := ih sold.sound later
          have := bought.next.2
          have := sold.next.2
          exact ⟨rfl,by omega⟩
    · cases failed

/-- Uncrossing a sound book fails only where the priorities run out. -/
theorem uncross_overflow (failed : (uncross price).run book = .error e book') :
    e = .Overflow ∧ 18446744073709551615 < book.next_priority + 2 * book.orders.size := by
  simp only [uncross,returned,raised] at failed
  exact uncross_loop_error sound failed

theorem uncross_error (failed : (uncross price).run book = .error e book') :
    e = .Overflow := (uncross_overflow sound failed).1

end Uncross

end Book

end Bunting
