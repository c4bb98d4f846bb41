import Bunting.Stateful
import Bunting.MarketTypes

/-!
The price-time order book of one listing. The programs write as they go, as the
source does, so a failure leaves the book where it stopped. The loops carry a
fuel that starts at a bound of the iterations the source's loop can take.
-/

namespace Bunting
open Stateful

/-- One resting order. -/
structure BookOrder where
  order_id : OrderId
  side : Side
  price : Int
  remaining : Int
  visible : Int
  display : Option Int
  priority : Nat
  deriving DecidableEq

/-- One execution against a resting order. -/
structure Match where
  maker : OrderId
  price : Int
  quantity : Int
  maker_remaining : Int
  deriving DecidableEq

/-- One call-auction execution between two resting orders. -/
structure Cross where
  buy : OrderId
  sell : OrderId
  quantity : Int
  buy_remaining : Int
  sell_remaining : Int
  buy_priority : Nat
  sell_priority : Nat
  deriving DecidableEq

inductive BookError
  | DuplicateOrder
  | InvalidOrder
  | Overflow
  deriving DecidableEq

structure Level where
  queue : OrdMap Nat OrderId := ∅
  visible : Int := 0
  total : Int := 0
  deriving DecidableEq

structure Book where
  bids : OrdMap Int Level := ∅
  asks : OrdMap Int Level := ∅
  orders : OrdMap OrderId BookOrder := ∅
  next_priority : Nat := 0
  deriving DecidableEq

def crosses (taker : Side) (limit resting : Int) : Bool :=
  match taker with
  | .Buy => resting ≤ limit
  | .Sell => resting ≥ limit

namespace Book

def levels (book : Book) : Side → OrdMap Int Level
  | .Buy => book.bids
  | .Sell => book.asks

def set_levels (book : Book) (side : Side) (levels : OrdMap Int Level) : Book :=
  match side with
  | .Buy => { book with bids := levels }
  | .Sell => { book with asks := levels }

/-- Best resting price on one side. -/
def best (book : Book) : Side → Option Int
  | .Buy => book.bids.last?.map Prod.fst
  | .Sell => book.asks.first?.map Prod.fst

/-- Whether an order on the taker side at `limit` would trade immediately. -/
def would_cross (book : Book) (taker : Side) (limit : Int) : Bool :=
  (book.best taker.opposite).any (fun best => crosses taker limit best)

/-- Whether an aggressor trades at a resting price; a market order always does. -/
def reaches (taker : Side) (limit : Option Int) (price : Int) : Bool :=
  limit.all (fun limit => crosses taker limit price)

/-- Total quantity, displayed and hidden, executable for an aggressor. -/
def executable (book : Book) (taker : Side) (limit : Option Int) : Int :=
  let levels := match taker with
    | .Buy => book.asks.entries
    | .Sell => book.bids.entries.reverse
  (levels.takeWhile (fun e => reaches taker limit e.1)).foldl
    (fun total e => (to_i64 (total + e.2.total)).getD 9223372036854775807) 0

/-- Displayed quantity per price level, best first. -/
def depth (book : Book) : Side → List (Int × Int)
  | .Buy => book.bids.entries.reverse.map (fun entry => (entry.1,entry.2.visible))
  | .Sell => book.asks.entries.map (fun entry => (entry.1,entry.2.visible))

/-- Resting orders on one side in matching priority, best price first. -/
def resting (book : Book) (side : Side) : List BookOrder :=
  let levels := match side with
    | .Buy => book.bids.values.reverse
    | .Sell => book.asks.values
  (levels.flatMap (fun level => level.queue.values)).filterMap book.orders.get?

def take_priority : EStateM BookError Book Nat := do
  let book ← get
  let next ← orElse (to_u64 (book.next_priority + 1)) BookError.Overflow
  set { book with next_priority := next }
  pure book.next_priority

def put_level (side : Side) (price : Int) (level : Level) (book : Book) : Book :=
  book.set_levels side ((book.levels side).insert price level)

def insert (order : BookOrder) : EStateM BookError Book Unit := do
  refuse (order.remaining ≤ 0 ∨ order.visible ≤ 0 ∨ order.visible > order.remaining ∨ order.price ≤ 0)
    BookError.InvalidOrder
  let book ← get
  refuse (book.orders.contains order.order_id = true) BookError.DuplicateOrder
  let level := ((book.levels order.side).get? order.price).getD {}
  let queued := { level with queue := level.queue.insert order.priority order.order_id }
  modify (put_level order.side order.price queued)
  refuse (level.queue.contains order.priority = true) BookError.DuplicateOrder
  let visible ← orElse (to_i64 (level.visible + order.visible)) BookError.Overflow
  modify (put_level order.side order.price { queued with visible })
  let total ← orElse (to_i64 (level.total + order.remaining)) BookError.Overflow
  modify (put_level order.side order.price { queued with visible, total })
  modify (fun book => { book with orders := book.orders.insert order.order_id order })

/-- Drops a level whose queue is empty. -/
def drop_level (side : Side) (price : Int) (queue : OrdMap Nat OrderId) : EStateM BookError Book Unit :=
  if queue.isEmpty then modify (fun book => book.set_levels side ((book.levels side).erase price)) else pure ()

def remove (order_id : OrderId) : EStateM BookError Book Unit := do
  let book ← get
  let order ← orElse (book.orders.get? order_id) BookError.InvalidOrder
  set { book with orders := book.orders.erase order_id }
  let level ← orElse ((book.levels order.side).get? order.price) BookError.InvalidOrder
  let queue := level.queue.erase order.priority
  modify (put_level order.side order.price { level with queue })
  let visible ← orElse (to_i64 (level.visible - order.visible)) BookError.Overflow
  modify (put_level order.side order.price { level with queue, visible })
  let total ← orElse (to_i64 (level.total - order.remaining)) BookError.Overflow
  modify (put_level order.side order.price { level with queue, visible, total })
  drop_level order.side order.price queue

/-- Refreshes the displayed slice of an order at the back of its level. -/
def refresh (order : BookOrder) : EStateM BookError Book Unit := do
  let peak := order.display.getD order.remaining
  let priority ← take_priority
  insert { order with visible := min peak order.remaining, priority }

/-- Puts a partly filled maker back; an iceberg whose slice is used up loses its priority. -/
def put_back (maker : BookOrder) : EStateM BookError Book Unit :=
  if maker.remaining > 0 then
    if maker.visible = 0 then refresh maker else insert maker
  else pure ()

/-- One execution against the head of the best level. Returns the match and
    what is left of the aggressor. -/
def execute_head (maker_side : Side) (price remaining : Int) : EStateM BookError Book (Match × Int) := do
  let book ← get
  let maker_id ← orElse (((book.levels maker_side).get? price).bind (fun level => level.queue.first?.map Prod.snd))
    BookError.InvalidOrder
  let maker ← orElse (book.orders.get? maker_id) BookError.InvalidOrder
  let fill := min remaining maker.visible
  refuse (fill ≤ 0) BookError.InvalidOrder
  let left ← orElse (to_i64 (remaining - fill)) BookError.Overflow
  let maker_remaining ← orElse (to_i64 (maker.remaining - fill)) BookError.Overflow
  let visible ← orElse (to_i64 (maker.visible - fill)) BookError.Overflow
  remove maker_id
  put_back { maker with remaining := maker_remaining, visible }
  pure (⟨maker_id,price,fill,maker_remaining⟩,left)

def execute_loop (taker : Side) (limit : Option Int) :
    Nat → Int → List Match → EStateM BookError Book (List Match × Int)
  | 0, remaining, found => pure (found,remaining)
  | fuel + 1, remaining, found =>
    if remaining ≤ 0 then pure (found,remaining)
    else do
      let book ← get
      match book.best taker.opposite with
      | none => pure (found,remaining)
      | some price =>
        if reaches taker limit price then do
          let filled ← execute_head taker.opposite price remaining
          execute_loop taker limit fuel filled.2 (found ++ [filled.1])
        else pure (found,remaining)

/-- Executes an aggressor against the opposite side and returns the matches and
    the unfilled remainder. Every iteration fills at least one lot. -/
def execute (taker : Side) (limit : Option Int) (quantity : Int) : EStateM BookError Book (List Match × Int) := do
  refuse (quantity ≤ 0) BookError.InvalidOrder
  execute_loop taker limit quantity.toNat quantity []

/-- Rests a new order at the back of its price level. -/
def rest (order_id : OrderId) (side : Side) (price quantity : Int) (display : Option Int) :
    EStateM BookError Book Unit := do
  refuse (quantity ≤ 0 ∨ price ≤ 0 ∨ display.any (fun peak => peak ≤ 0 ∨ peak > quantity) = true)
    BookError.InvalidOrder
  let book ← get
  refuse (book.orders.contains order_id = true) BookError.DuplicateOrder
  let priority ← take_priority
  insert ⟨order_id,side,price,quantity,display.getD quantity,display,priority⟩

/-- Removes a resting order and returns it. -/
def cancel (order_id : OrderId) (book : Book) : Option BookOrder × Book :=
  match book.orders.get? order_id with
  | none => (none,book)
  | some order =>
    match (remove order_id).run book with
    | .ok _ book => (some order,book)
    | .error _ book => (none,book)

/-! ### The call auction -/

/-- The best candidate of the auction sweep so far. -/
structure Candidate where
  price : Int
  volume : Int
  imbalance : Int
  deriving DecidableEq

/-- More volume, then less imbalance, then nearer to the reference. -/
def Candidate.better (reference : Int) (new chosen : Candidate) : Prop :=
  new.volume > chosen.volume ∨ (new.volume = chosen.volume ∧
    (new.imbalance < chosen.imbalance ∨ (new.imbalance = chosen.imbalance ∧
      |new.price - reference| < |chosen.price - reference|)))

instance (reference : Int) (new chosen : Candidate) : Decidable (Candidate.better reference new chosen) :=
  inferInstanceAs (Decidable (_ ∨ _))

def Candidate.choose (reference : Int) (new : Candidate) (best : Option Candidate) : Option Candidate :=
  match best with
  | none => some new
  | some chosen => if Candidate.better reference new chosen then some new else some chosen

/-- The lowest price of two level lists that ascend. -/
def lowest (bids asks : List (Int × Level)) : Option Int :=
  match bids, asks with
  | bid :: _, ask :: _ => some (if bid.1 ≤ ask.1 then bid.1 else ask.1)
  | bid :: _, [] => some bid.1
  | [], ask :: _ => some ask.1
  | [], [] => none

/-- The level total at the head of a list, if its price is `price`, and the list after it. -/
def take_level (price : Int) : List (Int × Level) → Int × List (Int × Level)
  | [] => (0,[])
  | e :: rest => if e.1 = price then (e.2.total,rest) else (0,e :: rest)

/-- One ascending sweep over the levels of both sides. -/
def sweep (reference total_demand : Int) :
    Nat → List (Int × Level) → List (Int × Level) → Int → Int → Option Candidate → Option Candidate
  | 0, _, _, _, _, best => best
  | fuel + 1, bids, asks, bids_below, supply, best =>
    match lowest bids asks with
    | none => best
    | some price =>
      let bid := take_level price bids
      let ask := take_level price asks
      let supply := supply + ask.1
      let demand := total_demand - bids_below
      let volume := min demand supply
      let best :=
        if volume > 0 then Candidate.choose reference ⟨price,volume,|demand - supply|⟩ best else best
      sweep reference total_demand fuel bid.2 ask.2 (bids_below + bid.1) supply best

/-- The call-auction price, with the volume it executes. -/
def auction_price (book : Book) (reference : Int) : Option (Int × Int) :=
  let total_demand := (book.bids.values.map Level.total).sum
  (sweep reference total_demand (book.bids.size + book.asks.size) book.bids.entries book.asks.entries 0 0 none).bind
    (fun best => (to_i64 best.volume).map (fun volume => (best.price,volume)))

/-- Puts what remains of an order filled by the auction back. -/
def keep_resting (order : BookOrder) (quantity remaining : Int) : EStateM BookError Book Unit :=
  if remaining > 0 then
    if quantity ≥ order.visible then refresh { order with remaining }
    else do
      let visible ← orElse (to_i64 (order.visible - quantity)) BookError.Overflow
      insert { order with remaining, visible }
  else pure ()

/-- Takes `quantity` from a resting order and returns what remains. -/
def fill_resting (order : BookOrder) (quantity : Int) : EStateM BookError Book Int := do
  remove order.order_id
  let remaining ← orElse ((to_i64 (order.remaining - quantity)).filter (fun remaining => remaining ≥ 0)) BookError.Overflow
  keep_resting order quantity remaining
  pure remaining

def head (book : Book) (side : Side) (price : Int) : Except BookError BookOrder :=
  orElse (((book.levels side).get? price).bind (fun level => level.queue.first?.bind (fun e => book.orders.get? e.2)))
    BookError.InvalidOrder

/-- The heads of the best bid and the best offer trade with each other. -/
def cross_heads (bid ask : Int) : EStateM BookError Book Cross := do
  let book ← get
  let bid_head ← book.head .Buy bid
  let ask_head ← book.head .Sell ask
  let quantity := min bid_head.remaining ask_head.remaining
  let buy_remaining ← fill_resting bid_head quantity
  let sell_remaining ← fill_resting ask_head quantity
  pure ⟨bid_head.order_id,ask_head.order_id,quantity,buy_remaining,sell_remaining,bid_head.priority,ask_head.priority⟩

def uncross_loop (price : Int) : Nat → List Cross → EStateM BookError Book (List Cross)
  | 0, found => pure found
  | fuel + 1, found => do
    let book ← get
    match book.best .Buy, book.best .Sell with
    | some bid, some ask =>
      if bid < price ∨ ask > price then pure found
      else do
        let cross ← cross_heads bid ask
        uncross_loop price fuel (found ++ [cross])
    | _, _ => pure found

/-- Uncrosses the book at `price`: the best bid and the best offer trade in
    price-time priority while both can trade at it. Every iteration fills at
    least one order. -/
def uncross (price : Int) : EStateM BookError Book (List Cross) := do
  let book ← get
  uncross_loop price book.orders.size []

end Book

end Bunting
