import Bunting.Clearing
import Bunting.MatchingQueue

/-!
What an uncrossing executes. Each side of the book is taken from its head
(`Fills`), so an order trades only once every order ahead of it has been filled,
but for an iceberg of its price that has traded all it displayed.
-/

namespace Bunting
open Stateful
namespace Book

/-- Fills that take a queue from its head. -/
inductive Fills (side : Side) : List BookOrder → List (OrderId × Int) → Prop
  | nil {queue} : Fills side queue []
  | cons {order rest fill fills} (next : Nat) (id : fill.1 = order.order_id) (positive : 0 < fill.2)
      (enough : fill.2 ≤ order.remaining) (ahead : ∀ other ∈ rest, Ahead side order other)
      (distinct : ∀ other ∈ rest, other.order_id ≠ order.order_id)
      (more : Fills side (traded next fill.2 order rest) fills) : Fills side (order :: rest) (fill :: fills)

/-- What the fills of one order amount to. -/
def filled_of (id : OrderId) (fills : List (OrderId × Int)) : Int :=
  ((fills.filter fun fill => fill.1 = id).map Prod.snd).sum

section Fills
variable {side : Side} {queue : List BookOrder} {fills before after : List (OrderId × Int)} {fill : OrderId × Int}
  {order other : BookOrder} {id : OrderId}

theorem filled_of_cons : filled_of id (fill :: fills) = (if fill.1 = id then fill.2 else 0) + filled_of id fills := by
  unfold filled_of
  by_cases same : fill.1 = id <;> simp [same]

variable (works : Fills side queue fills)
include works

theorem Fills.rests (member : fill ∈ fills) :
    ∃ order ∈ queue, order.order_id = fill.1 := by
  induction works with
  | nil => cases member
  | cons next id _ _ _ _ _ ih =>
    obtain rfl | later := List.mem_cons.mp member
    · exact ⟨_,List.mem_cons_self ..,id.symm⟩
    · obtain ⟨order',inside,same⟩ := ih later
      obtain after | inside := mem_traded.mp inside
      · exact ⟨_,List.mem_cons_self ..,(after_same after).1.symm.trans same⟩
      · exact ⟨_,List.mem_cons_of_mem _ inside,same⟩

theorem Fills.positive (member : fill ∈ fills) : 0 < fill.2 := by
  induction works with
  | nil => cases member
  | cons next _ positive _ _ _ _ ih =>
    obtain rfl | later := List.mem_cons.mp member
    · exact positive
    · exact ih later

theorem Fills.filled_nonneg (among : ∀ fill ∈ before, fill ∈ fills) (id : OrderId) :
    0 ≤ filled_of id before :=
  List.sum_nonneg fun x member => by
    obtain ⟨fill,inside,rfl⟩ := List.mem_map.mp member
    exact (works.positive (among fill (List.mem_filter.mp inside).1)).le

theorem Fills.filled_zero (among : ∀ fill ∈ before, fill ∈ fills)
    (absent : ∀ order ∈ queue, order.order_id ≠ id) : filled_of id before = 0 := by
  unfold filled_of
  rw [List.filter_eq_nil_iff.mpr]
  · rfl
  · intro fill member same
    obtain ⟨order,rests,is⟩ := works.rests (among fill member)
    exact absent order rests (is.trans (by simpa using same))

/-- Where an order trades, each order ahead of it has been filled, or has the
    same price and has traded all that it displayed. -/
theorem Fills.priority (split : fills = before ++ fill :: after) (member : order ∈ queue)
    (trades : order.order_id = fill.1) (member' : other ∈ queue) (ahead : Ahead side other order) :
    filled_of other.order_id before = other.remaining ∨
      (other.price = order.price ∧ other.visible ≤ filled_of other.order_id before) := by
  induction works generalizing before other with
  | nil => simp at split
  | @cons head rest first fills next id positive enough least distinct more ih =>
    have not_first (same : order = head) : False := by
      obtain rfl | inside := List.mem_cons.mp member'
      · rw [same] at ahead
        exact Ahead.irrefl _ _ ahead
      · rw [same] at ahead
        exact (least other inside).asymm ahead
    have inside : order ∈ rest := (List.mem_cons.mp member).resolve_left not_first
    cases before with
    | nil =>
      cases split
      exact (distinct order inside (trades.trans id)).elim
    | cons g before =>
      cases split
      have inside_next : order ∈ traded next first.2 head rest := mem_traded.mpr (.inr inside)
      rw [filled_of_cons]
      obtain rfl | behind := List.mem_cons.mp member'
      · rw [if_pos id]
        have among (fill' : OrderId × Int) (earlier : fill' ∈ before) : fill' ∈ before ++ fill :: after :=
          List.mem_append_left _ earlier
        have nonneg := more.filled_nonneg among other.order_id
        cases left_over : other.after next first.2 with
        | none =>
          have gone : traded next first.2 other rest = rest := by simp only [traded,left_over]
          rw [gone] at more
          rw [more.filled_zero among distinct,add_zero]
          unfold BookOrder.after at left_over
          dsimp only at left_over
          split_ifs at left_over
          exact .inl (by omega)
        | some left =>
          obtain ⟨same,_,price,_,remains⟩ := after_same left_over
          have next_place := ih rfl inside_next (mem_traded.mpr (.inl left_over))
          rw [same,price,remains] at next_place
          by_cases shown : first.2 < other.visible
          · -- Part of the slice is left, so the order keeps its place.
            unfold BookOrder.after at left_over
            dsimp only at left_over
            rw [if_neg (by intro gone; rw [if_pos gone] at left_over; cases left_over),if_pos shown] at left_over
            cases left_over
            have := next_place (ahead.congr rfl rfl)
            dsimp only at this
            omega
          · by_cases level : order.price = other.price
            · exact .inr ⟨level.symm,by omega⟩
            · have := next_place (ahead.other_price level price)
              omega
      · rw [if_neg (by rw [id]; exact (distinct other behind).symm),zero_add]
        exact ih rfl inside_next (mem_traded.mpr (.inr behind)) ahead

end Fills

section Uncross
variable {book book' : Book} {price bid ask volume reference : Int} {c : Cross} {found all crosses : List Cross} {fuel : Nat}

/-- What the crosses of an uncrossing are to the queues of both sides and to the book. -/
structure Auctioned (price : Int) (crosses : List Cross) (book book' : Book) : Prop where
  bids : Fills .Buy (book.resting .Buy) (crosses.map fun c => (c.buy,c.quantity))
  asks : Fills .Sell (book.resting .Sell) (crosses.map fun c => (c.sell,c.quantity))
  limits : ∀ c ∈ crosses,
    (∃ buy, book.orders.get? c.buy = some buy ∧ buy.side = .Buy ∧ price ≤ buy.price) ∧
    ∃ sell, book.orders.get? c.sell = some sell ∧ sell.side = .Sell ∧ sell.price ≤ price
  others : ∀ id, (∀ c ∈ crosses, c.buy ≠ id ∧ c.sell ≠ id) → book'.orders.get? id = book.orders.get? id

private theorem Auctioned.none : Auctioned price [] book book := ⟨.nil,.nil,by simp,fun _ _ => rfl⟩

/-- The heads of both queues have traded with each other. -/
structure HeadsTraded (c : Cross) (buy sell : BookOrder) (bids asks : List BookOrder) (book book' : Book) : Prop where
  sound : book'.Sound
  buys : book.resting .Buy = buy :: bids
  sells : book.resting .Sell = sell :: asks
  buyer : c.buy = buy.order_id
  seller : c.sell = sell.order_id
  quantity : c.quantity = min buy.remaining sell.remaining
  bids_after : ∃ next, book'.resting .Buy = traded next c.quantity buy bids
  asks_after : ∃ next, book'.resting .Sell = traded next c.quantity sell asks
  others : ∀ id, c.buy ≠ id → c.sell ≠ id → book'.orders.get? id = book.orders.get? id

section
variable (sound : book.Sound)
include sound

theorem cross_heads_queues (best_bid : book.best .Buy = some bid) (best_ask : book.best .Sell = some ask)
    (ran : (cross_heads bid ask).run book = .ok c book') :
    ∃ buy sell bids asks, HeadsTraded c buy sell bids asks book book' ∧ buy.price = bid ∧ sell.price = ask := by
  obtain ⟨buy,sell,between,buys,sells,other,bought,sold,buyer,seller,quantity,_⟩ := cross_heads_ok sound ran
  obtain ⟨buy_found,buy_side,buy_price⟩ := head_ok sound buys
  obtain ⟨_,sell_side,sell_price⟩ := head_ok sound sells
  obtain ⟨bids,bid_queue⟩ := sound.resting_head best_bid buys
  obtain ⟨asks,ask_queue⟩ := sound.resting_head best_ask sells
  have ask_queue' : between.resting .Sell = sell :: asks := by
    rw [sound.resting_other bought.sound buy_found (by rw [buy_side]; decide) (fun _ after => (after_same after).2.1)
      bought.orders]
    exact ask_queue
  refine ⟨buy,sell,bids,asks,⟨sold.sound,bid_queue,ask_queue,buyer,seller,quantity,⟨book.next_priority,?_⟩,
    ⟨between.next_priority,?_⟩,fun id bid ask => ?_⟩,buy_price,sell_price⟩
  · rw [bought.sound.resting_other sold.sound sold.found (by rw [sell_side]; decide) (fun _ after => (after_same after).2.1)
      sold.orders]
    exact sound.resting_traded bought.sound bid_queue bought.orders
  · exact bought.sound.resting_traded sold.sound ask_queue' sold.orders
  · rw [sold.others (seller ▸ ask.symm),bought.others (buyer ▸ bid.symm)]

theorem uncross_auctioned (ran : (uncross price).run book = .ok crosses book') : Auctioned price crosses book book' := by
  have uncrosses := uncross_run sound ran
  clear ran
  induction uncrosses with
  | stop => exact .none
  | cross _ best_bid best_ask above below crosses _ ih =>
    obtain ⟨_,_,_,_,_,_,bought,sold,_⟩ := cross_heads_ok sound crosses
    have advances := (bought.advances sound).trans (sold.advances bought.sound)
    have positive := bought.positive
    obtain ⟨buy,sell,bids,asks,traded,rfl,rfl⟩ := cross_heads_queues sound best_bid best_ask crosses
    have later := ih traded.sound
    obtain ⟨buy_found,buy_side⟩ := sound.mem_resting.mp (traded.buys ▸ List.mem_cons_self ..)
    obtain ⟨sell_found,sell_side⟩ := sound.mem_resting.mp (traded.sells ▸ List.mem_cons_self ..)
    refine ⟨?_,?_,List.forall_mem_cons.mpr ⟨?_,fun c' member => ?_⟩,fun id untouched => ?_⟩
    · obtain ⟨next,queue⟩ := traded.bids_after
      have bids := later.bids
      rw [queue] at bids
      rw [traded.buys]
      exact .cons next traded.buyer positive (traded.quantity.le.trans (min_le_left _ _)) (sound.resting_ahead traded.buys)
        (sound.resting_distinct traded.buys) bids
    · obtain ⟨next,queue⟩ := traded.asks_after
      have asks := later.asks
      rw [queue] at asks
      rw [traded.sells]
      exact .cons next traded.seller positive (traded.quantity.le.trans (min_le_right _ _))
        (sound.resting_ahead traded.sells) (sound.resting_distinct traded.sells) asks
    · rw [traded.buyer,traded.seller]
      exact ⟨⟨buy,buy_found,buy_side,above⟩,sell,sell_found,sell_side,below⟩
    · obtain ⟨⟨buy',found,side,above⟩,sell',found',side',below⟩ := later.limits c' member
      obtain ⟨before,there,same⟩ := advances.continues _ _ found
      obtain ⟨before',there',same'⟩ := advances.continues _ _ found'
      exact ⟨⟨before,there,same.side.symm.trans side,by rw [← same.price]; exact above⟩,
        before',there',same'.side.symm.trans side',by rw [← same'.price]; exact below⟩
    · obtain ⟨⟨buyer,seller⟩,untouched⟩ := List.forall_mem_cons.mp untouched
      rw [later.others id untouched,traded.others id buyer seller]

end

/-- Where an order of one side trades, each order with a better price has been
    filled before, and each one of its price that was ahead of it at the start has been
    filled or has traded all that it displayed. -/
def InPriority (side : Side) (book : Book) (fills : List (OrderId × Int)) : Prop :=
  ∀ before fill after, fills = before ++ fill :: after → ∀ order other, book.orders.get? fill.1 = some order →
    book.orders.get? other.order_id = some other → other.side = side → Ahead side other order →
    filled_of other.order_id before = other.remaining ∨
      (other.price = order.price ∧ other.visible ≤ filled_of other.order_id before)

theorem Fills.in_priority {side : Side} {fills : List (OrderId × Int)} (sound : book.Sound)
    (works : Fills side (book.resting side) fills) : InPriority side book fills := by
  intro before fill after split order other found there same ahead
  have member : fill ∈ fills := by simp [split]
  obtain ⟨order',rests,is⟩ := works.rests member
  have found' := (sound.mem_resting.mp rests).1
  rw [is,found] at found'
  cases found'
  exact works.priority split rests is (sound.mem_resting.mpr ⟨there,same⟩) ahead

/-- Uncrossing at the auction price executes exactly the volume of the auction,
    within every limit and in priority, and leaves a book that is not crossed.
    It fails only where the priorities run out. -/
theorem uncross_exact (book : Book) (reference price volume : Int) (sound : book.Sound)
    (auction : book.auction_price reference = some (price,volume)) :
    match (uncross price).run book with
    | .ok crosses book' =>
      crossed_volume crosses = volume ∧
      (∀ c ∈ crosses, (∃ buy, book.orders.get? c.buy = some buy ∧ buy.side = .Buy ∧ price ≤ buy.price) ∧
        ∃ sell, book.orders.get? c.sell = some sell ∧ sell.side = .Sell ∧ sell.price ≤ price) ∧
      InPriority .Buy book (crosses.map fun c => (c.buy,c.quantity)) ∧
      InPriority .Sell book (crosses.map fun c => (c.sell,c.quantity)) ∧
      Clear book'.view ∧
      ∀ id, (∀ c ∈ crosses, c.buy ≠ id ∧ c.sell ≠ id) → book'.orders.get? id = book.orders.get? id
    | .error e _ => e = .Overflow ∧ 18446744073709551615 < book.next_priority + 2 * book.orders.size := by
  cases ran : (uncross price).run book with
  | error e book' => exact uncross_overflow sound ran
  | ok crosses book' =>
    have auctioned := uncross_auctioned sound ran
    exact ⟨sound.uncross_volume auction ran,auctioned.limits,auctioned.bids.in_priority sound,
      auctioned.asks.in_priority sound,sound.uncross_clears auction ran,auctioned.others⟩

/-- An iceberg of ten that displays two and a bid of five behind it, against asks of four and six. -/
def icebergs : BookRecord :=
  ⟨4,[⟨7,.Buy,100,10,2,some 2,0⟩,⟨8,.Buy,100,5,5,none,1⟩,⟨9,.Sell,100,4,4,none,2⟩,⟨10,.Sell,100,6,6,none,3⟩]⟩

private theorem icebergs_trade : ∃ book, try_from icebergs = .ok book ∧ book.auction_price 100 = some (100,10) ∧
    ∃ crosses book', (uncross 100).run book = .ok crosses book' ∧
      crosses.map (fun c => (c.buy,c.quantity)) = [(7,4),(8,5),(7,1)] := by
  decide +kernel

theorem uncross_exact_icebergs :
    ∃ book crosses book', book.Sound ∧ book.auction_price 100 = some (100,10) ∧
      (uncross 100).run book = .ok crosses book' ∧ crossed_volume crosses = 10 ∧
      InPriority .Buy book (crosses.map fun c => (c.buy,c.quantity)) ∧ Clear book'.view := by
  obtain ⟨book,loads,auction,crosses,book',ran,_⟩ := icebergs_trade
  have sound := load_sound (sound_start _) rfl (by decide) loads
  have exact := uncross_exact book 100 100 10 sound auction
  rw [ran] at exact
  obtain ⟨volume,_,bids,_,clear,_⟩ := exact
  exact ⟨book,crosses,book',sound,auction,ran,volume,bids,clear⟩

/-- The bid behind the iceberg trades while most of the iceberg, which was ahead
    of it at the start and is not the one being filled, is still to be filled. -/
theorem later_bid_trades_before_iceberg :
    ∃ book crosses book', book.Sound ∧ book.auction_price 100 = some (100,10) ∧
      (uncross 100).run book = .ok crosses book' ∧
      ∃ before fill after, crosses.map (fun c => (c.buy,c.quantity)) = before ++ fill :: after ∧
        ∃ order iceberg, book.orders.get? fill.1 = some order ∧ book.orders.get? iceberg.order_id = some iceberg ∧
          iceberg.side = .Buy ∧ Ahead .Buy iceberg order ∧ iceberg.order_id ≠ fill.1 ∧
          filled_of iceberg.order_id before < iceberg.remaining := by
  obtain ⟨book,loads,auction,crosses,book',ran,bids⟩ := icebergs_trade
  have sound := load_sound (sound_start _) rfl (by decide) loads
  have loaded := load_all loads
  exact ⟨book,crosses,book',sound,auction,ran,[(7,4)],(8,5),[(7,1)],bids,⟨8,.Buy,100,5,5,none,1⟩,
    ⟨7,.Buy,100,10,2,some 2,0⟩,loaded.here ⟨8,.Buy,100,5,5,none,1⟩ (by decide),
    loaded.here ⟨7,.Buy,100,10,2,some 2,0⟩ (by decide),rfl,.inr ⟨rfl,by decide⟩,by decide,by decide⟩

end Uncross
end Book
end Bunting
