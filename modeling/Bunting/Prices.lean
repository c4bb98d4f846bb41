import Bunting.Lifecycle

/-!
The prices of trades. A trade is on the grid of its listing and within the
limits of the two orders it names; in an auction all trades are at the price the
auction reports, and otherwise a trade is at the limit of the order that rested.
-/

namespace Bunting
open Stateful

/-! ### Prices in events -/

/-- The price of an auction of the listing. -/
def EventPayload.auction (key : ListingKey) : EventPayload → Option Int
  | .Simulation (.AuctionUncrossed at_key price _) => if at_key = key then some price else none
  | _ => none

/-- The price of the first auction of the listing that is reported. -/
def auction_of (key : ListingKey) (payloads : List EventPayload) : Option Int :=
  payloads.findSome? (EventPayload.auction key)

/-- A price within the limit of the order, if it has one. -/
def SubmitOrder.Allows (order : SubmitOrder) (price : Int) : Prop :=
  ∀ limit, order.kind.limit = some limit →
    match order.side with
    | .Buy => price ≤ limit
    | .Sell => limit ≤ price

/-- What a trade keeps to, given the orders by their ids, the events after it
    and what is known of the trades of no auction. -/
def Protected (listings : OrdMap ListingKey ListingDefinition) (origin : OrderId → Option SubmitOrder)
    (unreported : ListingKey → Int → SubmitOrder → Prop) (after : List EventPayload) : EventPayload → Prop
  | .TradeExecuted _ listing maker_id taker_id _ _ price _ _ _ =>
    ∃ key definition maker taker, listing = some key ∧ listings.get? key = some definition ∧
      definition.price_bounds.min ≤ price ∧ price ≤ definition.price_bounds.max ∧ definition.tick_size ∣ price ∧
      origin maker_id = some maker ∧ origin taker_id = some taker ∧ maker.side ≠ taker.side ∧
      maker.Allows price ∧ taker.Allows price ∧
      match auction_of key after with
      | some clearing => price = clearing
      | none => unreported key price maker
  | _ => True

/-- What is known of a trade no auction has reported yet. -/
def Mode.Unreported : Mode → ListingKey → Int → SubmitOrder → Prop
  | .Open,_,_,_ => False
  | .Calling at_key at_price,key,price,_ => at_key = key ∧ price = at_price
  | .Taking _,_,price,maker | .Taken _,_,price,maker => maker.kind.limit = some price

def EventPayload.Calm : EventPayload → Prop
  | .TradeExecuted .. | .Simulation (.AuctionUncrossed ..) => False
  | _ => True

/-- The trades of a transition are fair. -/
def ProtectedTrades (listings : OrdMap ListingKey ListingDefinition) (origin : OrderId → Option SubmitOrder) (mode : Mode)
    (payloads : List EventPayload) : Prop :=
  ∀ before payload after, payloads = before ++ payload :: after → Protected listings origin mode.Unreported after payload

theorem singleton_split {payload other : EventPayload} {before after : List EventPayload}
    (same : [other] = before ++ payload :: after) : before = [] ∧ payload = other ∧ after = [] := by
  cases before <;> simp_all

section Events
variable {listings : OrdMap ListingKey ListingDefinition} {origin : OrderId → Option SubmitOrder} {mode next : Mode}
  {payloads more after : List EventPayload} {payload : EventPayload}

theorem EventPayload.Calm.auction (calm : payload.Calm) (key : ListingKey) : payload.auction key = none := by
  unfold EventPayload.auction
  split
  · exact calm.elim
  · rfl

theorem EventPayload.Quiet.calm (quiet : payload.Quiet) : payload.Calm := by
  cases payload with
  | TradeExecuted _ _ _ _ _ _ _ _ _ _ => exact quiet.elim
  | Simulation event =>
    cases event with
    | AuctionUncrossed _ _ _ => cases quiet.2
    | _ => trivial
  | _ => trivial

theorem Protected.extend {unreported unreported' : ListingKey → Int → SubmitOrder → Prop}
    (fair : Protected listings origin unreported after payload)
    (next : ∀ key price maker, unreported key price maker →
      match auction_of key more with
      | some clearing => price = clearing
      | none => unreported' key price maker) : Protected listings origin unreported' (after ++ more) payload := by
  cases payload with
  | TradeExecuted _ _ _ _ _ _ price _ _ _ =>
    obtain ⟨key,definition,maker,taker,named,listed,lowest,highest,tick,makes,takes,sides,made,taken,at_price⟩ := fair
    refine ⟨key,definition,maker,taker,named,listed,lowest,highest,tick,makes,takes,sides,made,taken,?_⟩
    unfold auction_of at at_price next ⊢
    rw [List.findSome?_append]
    cases reported : after.findSome? (EventPayload.auction key) with
    | some clearing =>
      rw [reported] at at_price
      exact at_price
    | none =>
      rw [reported] at at_price
      exact next key price maker at_price
  | _ => trivial

theorem Protected.mono {unreported unreported' : ListingKey → Int → SubmitOrder → Prop}
    (fair : Protected listings origin unreported after payload)
    (weaker : ∀ key price maker, unreported key price maker → unreported' key price maker) :
    Protected listings origin unreported' after payload := by
  have kept := @Protected.extend _ _ [] _ _ _ unreported' fair weaker
  rwa [List.append_nil] at kept

/-- Events are added: the trades before them stay fair, and those among them are. -/
theorem ProtectedTrades.append (fair : ProtectedTrades listings origin mode payloads)
    (reports : ∀ key price maker, mode.Unreported key price maker →
      match auction_of key more with
      | some clearing => price = clearing
      | none => next.Unreported key price maker)
    (added : ProtectedTrades listings origin next more) : ProtectedTrades listings origin next (payloads ++ more) := by
  intro before payload after same
  rcases List.append_eq_append_iff.mp same with ⟨first,_,inside⟩ | ⟨first,old,inside⟩
  · exact added first payload after inside
  · cases first with
    | nil => exact added [] payload after inside.symm
    | cons head rest =>
      obtain ⟨rfl,rfl⟩ := List.cons_eq_cons.mp inside
      exact (fair before payload rest old).extend reports

theorem ProtectedTrades.of_calm (calm : ∀ payload ∈ more, payload.Calm) : ProtectedTrades listings origin mode more := by
  intro before payload after same
  have quiet := calm payload (by rw [same]; simp)
  cases payload with
  | TradeExecuted _ _ _ _ _ _ _ _ _ _ => exact quiet.elim
  | _ => trivial

variable (fair : ProtectedTrades listings origin mode payloads)
include fair

theorem ProtectedTrades.calm (calm : ∀ payload ∈ more, payload.Calm) :
    ProtectedTrades listings origin mode (payloads ++ more) := by
  refine fair.append (fun key price maker known => ?_) (.of_calm calm)
  rw [auction_of,List.findSome?_eq_none_iff.mpr fun payload member => (calm payload member).auction key]
  exact known

theorem ProtectedTrades.reported (owned : OwnedOrder) (n : Int) (id : OrderId) :
    ProtectedTrades listings origin mode (payloads ++ Bunting.reported owned n id) := by
  refine fair.calm fun payload member => ?_
  unfold Bunting.reported at member
  rw [List.mem_singleton.mp member]
  split_ifs <;> trivial

end Events

/-! ### One move -/

/-- The live orders are as submitted, an order without a limit being live only while it is taken for; the trades are fair. -/
structure Priced (listings : OrdMap ListingKey ListingDefinition) (origin : OrderId → Option SubmitOrder) (mode : Mode)
    (t : Transition) : Prop where
  records : ∀ id owned, t.run.ownership.get? id = some owned → owned.state = .Active →
    ∃ order, origin id = some order ∧ order.order_id = id ∧ owned.side = order.side ∧
      (∀ limit, order.kind.limit = some limit → owned.limit_price = limit) ∧
      (order.kind.limit = none → mode = .Taking order)
  trades : ProtectedTrades listings origin mode t.payloads

section Moves
variable {setup : Setup} {base : SimulationState} {now : Nat} {a b : Mode × Transition}
  {origin : OrderId → Option SubmitOrder} {key : ListingKey}

theorem Screened.limit_price {run : RunState} {listing : ListingState} {order : SubmitOrder} {ticket : Ticket}
    {price : Int} (screened : Screened run listing order key now ticket) (limit : order.kind.limit = some price) :
    (order.owned key ticket).limit_price = price := by
  obtain ⟨_,_,admits⟩ := screened.admitted
  obtain ⟨_,_,_,priced,_⟩ := admit_ok admits
  rcases admit_price_ok priced with ⟨same,_⟩ | ⟨none,_⟩
  · exact (Option.some.inj (limit.symm.trans same)).symm
  · rw [limit] at none; cases none

/-- An execution is within the limits of its two orders. -/
theorem Deals.within {ownership : OrdMap OrderId OwnedOrder} {maker_id taker_id : OrderId}
    {maker taker : OwnedOrder} {price quantity : Int} {made taken : SubmitOrder}
    (deals : Deals ownership key maker_id taker_id maker taker price quantity) (maker_side : maker.side = made.side)
    (taker_side : taker.side = taken.side)
    (maker_limit : ∀ limit, made.kind.limit = some limit → maker.limit_price = limit)
    (taker_limit : ∀ limit, taken.kind.limit = some limit → taker.limit_price = limit) :
    made.side ≠ taken.side ∧ made.Allows price ∧ taken.Allows price := by
  unfold Deals at deals
  unfold SubmitOrder.Allows
  rw [← maker_side,← taker_side]
  cases side : taker.side with
  | Buy =>
    rw [side] at deals
    rw [deals.sell_side]
    exact ⟨by simp,fun limit limited => maker_limit limit limited ▸ deals.above,
      fun limit limited => taker_limit limit limited ▸ deals.below⟩
  | Sell =>
    rw [side] at deals
    rw [deals.buy_side]
    exact ⟨by simp,fun limit limited => maker_limit limit limited ▸ deals.below,
      fun limit limited => taker_limit limit limited ▸ deals.above⟩

section
variable (taken : ∀ order, b.1.order = some order → origin order.order_id = some order)
  (kept : Priced setup.definitions origin a.1 a.2)
include taken kept

theorem Move.submitted (move : Move setup base now a b) {id : OrderId} {owned : OwnedOrder}
    (found : b.2.run.ownership.get? id = some owned) (live : owned.state = .Active) :
    ∃ order, origin id = some order ∧ order.order_id = id ∧ owned.side = order.side ∧
      (∀ limit, order.kind.limit = some limit → owned.limit_price = limit) ∧
      (order.kind.limit = none → b.1 = .Taking order) := by
  have before := kept.records id
  have still {order : SubmitOrder} (named : order.order_id = id) (market : order.kind.limit = none → a.1 = .Taking order)
      (none : order.kind.limit = none) : b.1 = .Taking order := by
    rcases move.taking (market none) with still | limited | ended
    · exact still
    · exact absurd none limited
    · exact absurd live (ended owned (named ▸ found))
  obtain ⟨_,_,effect⟩ := move.effect id
  generalize a.2.run.ownership.get? id = record at before effect
  rw [found] at effect
  cases effect with
  | idle _ | completed _ _ _ =>
    obtain ⟨order,known,named,side,limit,market⟩ := before owned rfl live
    exact ⟨order,known,named,side,limit,still named market⟩
  | accepted screened _ _ _ taking named =>
    subst named
    exact ⟨_,taken _ (congrArg Mode.order taking),rfl,rfl,fun limit limited => screened.limit_price limited,fun _ => taking⟩
  | filled active _ _ _ =>
    obtain ⟨order,known,named,side,limit,market⟩ := before _ rfl active
    exact ⟨order,known,named,side,limit,still named market⟩
  | canceled _ _ => exact absurd live (by simp [OwnedOrder.canceled])

/-- Every move keeps the live orders as submitted and the trades fair. -/
theorem Move.priced (move : Move setup base now a b) : Priced setup.definitions origin b.1 b.2 := by
  refine ⟨fun _ _ => move.submitted taken kept,?_⟩
  obtain ⟨records,trades⟩ := kept
  cases move with
  | touched _ | switched _ | marked _ | closed _ _ | passed _ _ _ _ | executed _ _ => exact trades
  | emitted quiet => exact trades.calm fun payload member => (quiet payload member).calm
  | simulated _ own =>
    refine trades.calm fun payload member => ?_
    obtain ⟨event,inside,rfl⟩ := List.mem_map.mp member
    have plain := List.all_eq_true.mp own event inside
    cases event with
    | AuctionUncrossed _ _ _ => cases plain
    | _ => trivial
  | announced tells =>
    refine trades.calm fun payload member => ?_
    rw [List.mem_singleton.mp member]
    rename_i event _
    cases event with
    | AuctionUncrossed _ _ _ => cases tells
    | _ => trivial
  | uncrossed _ _ _ =>
    exact fun before payload after same => (trades before payload after same).mono fun _ _ _ impossible => impossible.elim
  | @called t key price volume =>
    refine trades.append (fun at_key at_price maker known => ?_) fun before payload after same => ?_
    · obtain ⟨rfl,rfl⟩ := known
      simp [auction_of,EventPayload.auction]
    · obtain ⟨rfl,rfl,rfl⟩ := singleton_split same
      trivial
  | canceled _ _ _ _ _ _ => exact trades.calm (by simp [EventPayload.Calm])
  | @filled mode t key maker_id taker_id maker taker price quantity auction ledger _ fills dealt =>
    obtain ⟨makes,takes,distinct,maker_live,taker_live,_⟩ := dealt.deals.records
    obtain ⟨made,made_known,made_named,made_side,made_limit,made_market⟩ := records maker_id maker makes maker_live
    obtain ⟨took,took_known,_,took_side,took_limit,_⟩ := records taker_id taker takes taker_live
    have reports : ProtectedTrades setup.definitions origin mode (t.payloads ++ reported maker quantity maker_id ++
        if auction then reported taker quantity taker_id else []) := by
      cases auction
      · exact (trades.reported maker quantity maker_id).calm (by simp)
      · exact (trades.reported maker quantity maker_id).reported taker quantity taker_id
    obtain ⟨D,maker_fee,taker_fee,listed,_,_,_,rfl⟩ := dealt.settled
    obtain ⟨_,_,_,_,told⟩ := deal_trade_eq key maker_id taker_id maker taker price quantity maker_fee taker_fee
    simp only [Transition.filled]
    rw [told]
    refine reports.append (fun _ _ _ known => known) fun before payload after same => ?_
    obtain ⟨rfl,rfl,rfl⟩ := singleton_split same
    obtain ⟨sides,made_allows,took_allows⟩ := dealt.deals.within made_side took_side made_limit took_limit
    obtain ⟨lowest,highest⟩ := dealt.grid.bounds listed
    refine ⟨key,D,made,took,rfl,listed,lowest,highest,dealt.grid.tick listed,made_known,took_known,sides,made_allows,
      took_allows,?_⟩
    cases mode with
    | Open | Taken _ => exact fills.elim
    | Calling at_key at_price => exact ⟨fills.2.1.symm,fills.2.2⟩
    | Taking order =>
      -- The maker is not the order taken for, so it has a limit.
      obtain ⟨continuous,aggressor⟩ := fills
      cases limit : made.kind.limit with
      | none =>
        cases made_market limit
        exact absurd (aggressor.trans made_named) distinct
      | some value =>
        have at_price : price = value := (dealt.resting continuous).trans (made_limit value limit)
        exact limit.trans (congrArg some at_price.symm)
  | accepted _ _ _ _ => exact trades.append (fun _ _ _ impossible => impossible.elim) (.of_calm (by simp [EventPayload.Calm]))
  | completed _ _ | rested _ _ _ _ _ _ | dropped _ _ _ =>
    exact trades.append (fun _ _ _ known => known) (.of_calm (by simp [EventPayload.Calm]))

theorem Moves.priced (moves : Moves setup base now a b) : Priced setup.definitions origin b.1 b.2 := by
  induction moves with
  | refl => exact kept
  | tail _ move ih => exact move.priced taken (ih fun order accepted => taken order (move.keeps_order accepted))

end

end Moves

/-! ### Whole runs -/

/-- The order last accepted under an id. -/
def placed (history : List (Input × Applied)) (id : OrderId) : Option SubmitOrder :=
  history.reverse.findSome? (fun step => if .OrderAccepted id ∈ step.2.payloads then step.1.submission else none)

theorem placed_concat (history : List (Input × Applied)) (step : Input × Applied) (id : OrderId) :
    placed (history ++ [step]) id =
      (if .OrderAccepted id ∈ step.2.payloads then step.1.submission else none).or (placed history id) := by
  simp only [placed,List.reverse_append,List.reverse_singleton,List.singleton_append,List.findSome?_cons]
  split <;> simp_all

/-- Every live order of a run rests at the limit it was last placed with. -/
def AsPlaced (history : List (Input × Applied)) (s : RunState) : Prop :=
  ∀ id owned, s.ownership.get? id = some owned → owned.state = .Active →
    ∃ order, placed history id = some order ∧ order.order_id = id ∧ owned.side = order.side ∧
      order.kind.limit = some owned.limit_price

section Run
variable {scenario : ScenarioDefinition} {start s s' : RunState} {history : List (Input × Applied)}

/-- A step trades at fair prices, and leaves the live orders as placed. -/
theorem Stepped.priced {input : Input} {applied : Applied} {t : Transition} (stepped : Stepped s input applied s' t)
    (as_placed : AsPlaced history s) : AsPlaced (history ++ [(input,applied)]) s' ∧
      ∀ before payload after, applied.payloads = before ++ payload :: after →
        Protected s.setup.definitions (placed (history ++ [(input,applied)]))
          (fun _ price maker => maker.kind.limit = some price) after payload := by
  obtain ⟨mode,moves,takes,ends⟩ := stepped.moves
  have payloads : applied.payloads = t.payloads := stepped.payloads
  have taken (order : SubmitOrder) (accepted : mode.order = some order) :
      placed (history ++ [(input,applied)]) order.order_id = some order := by
    rw [placed_concat,payloads,if_pos (moves.tells rfl accepted),takes order accepted]
    rfl
  have starts : Priced s.setup.definitions (placed (history ++ [(input,applied)])) .Open { run := s } := by
    refine ⟨fun id owned found live => ?_,fun before payload after none => by simp at none⟩
    obtain ⟨order,known,named,side,limit⟩ := as_placed id owned found live
    -- An order that has a record is not accepted again in the step.
    have there : s.ownership.get? id ≠ none := by rw [found]; simp
    have silent := (moves.unaccepted there (by simp)).2
    refine ⟨order,?_,named,side,fun value limited => Option.some.inj (limit.symm.trans limited),fun none => ?_⟩
    · rw [placed_concat,payloads,if_neg silent]
      exact known
    · rw [limit] at none; cases none
  obtain ⟨records,trades⟩ := moves.priced taken starts
  have still (order : SubmitOrder) : mode ≠ .Taking order := by
    rcases ends with rfl | ⟨_,rfl⟩ <;> simp
  refine ⟨fun id owned found live => ?_,fun before payload after same => ?_⟩
  · obtain ⟨market,market_by_listing,rfl⟩ := stepped.commits
    obtain ⟨order,known,named,side,limit,market⟩ := records id owned (RunState.committed_get? found) live
    refine ⟨order,known,named,side,?_⟩
    cases limited : order.kind.limit with
    | none => exact absurd (market limited) (still order)
    | some value => rw [limit value limited]
  · refine (trades before payload after (payloads ▸ same)).mono fun _ _ _ known => ?_
    rcases ends with rfl | ⟨_,rfl⟩
    · exact known.elim
    · exact known

theorem Runs.priced (runs : Runs start history s) (sane : Sane start) (empty : start.ownership = ∅) :
    AsPlaced history s ∧ ∀ earlier step later, history = earlier ++ step :: later →
      ∀ before payload after, step.2.payloads = before ++ payload :: after →
        Protected start.setup.definitions (placed (earlier ++ [step])) (fun _ price maker => maker.kind.limit = some price)
          after payload := by
  induction runs with
  | nil =>
    refine ⟨fun id owned found => ?_,fun earlier step later none => by simp at none⟩
    rw [empty] at found
    cases found
  | @step history s s' input applied before ran ih =>
    obtain ⟨t,stepped⟩ := Input.stepped (before.sane sane) ran
    obtain ⟨as_placed,fair⟩ := ih
    obtain ⟨next,trades⟩ := stepped.priced as_placed
    refine ⟨next,fun earlier step later same => ?_⟩
    rcases List.eq_nil_or_concat later with rfl | ⟨middle,last,rfl⟩
    · obtain ⟨rfl,final⟩ := List.append_inj' same rfl
      cases final
      rw [← before.setup sane]
      exact trades
    · rw [List.concat_eq_append,← List.cons_append,← List.append_assoc] at same
      obtain ⟨rfl,_⟩ := List.append_inj' same rfl
      exact fair earlier step middle rfl

/-- Every trade of a run is within the price bounds and on the tick grid of its listing, and within the limits of its two
    orders. It is at the price of the auction that reports it, or else at the limit of the order that rested. -/
theorem trades_keep_to_prices (starts : Starts scenario start) (runs : Runs start history s)
    {earlier later : List (Input × Applied)} {step : Input × Applied} (split : history = earlier ++ step :: later)
    {before after : List EventPayload} {instrument : InstrumentId} {listing : Option ListingKey}
    {maker_id taker_id : OrderId} {buyer seller : ParticipantId} {price quantity buyer_fee seller_fee : Int}
    (told : step.2.payloads = before ++
      .TradeExecuted instrument listing maker_id taker_id buyer seller price quantity buyer_fee seller_fee :: after) :
    ∃ key definition maker taker, listing = some key ∧ scenario.listings.get? key = some definition ∧
      definition.price_bounds.min ≤ price ∧ price ≤ definition.price_bounds.max ∧ definition.tick_size ∣ price ∧
      placed (earlier ++ [step]) maker_id = some maker ∧ placed (earlier ++ [step]) taker_id = some taker ∧
      maker.side ≠ taker.side ∧ maker.Allows price ∧ taker.Allows price ∧
      match auction_of key after with
      | some clearing => price = clearing
      | none => maker.kind.limit = some price := by
  have opened := starts.opened
  have fair := (runs.priced opened.sane opened.fresh.1).2 earlier step later split before _ after told
  rw [opened.definitions] at fair
  exact fair

theorem trades_keep_to_prices_resting : ∃ start history s earlier step later before, Starts sample start ∧
    Runs start history s ∧ history = earlier ++ step :: later ∧
    step.2.payloads = before ++ .TradeExecuted 1 (some ⟨1,1⟩) 7 8 1 2 5 4 0 0 :: [.OrderCompleted 8] ∧
    ∃ maker, placed (earlier ++ [step]) 7 = some maker ∧ maker.kind.limit = some 5 := by
  obtain ⟨start,history,s,starts,runs,step,member,told⟩ := @play_reaches sample sample_codec
    [place 0 1 7 1 .Buy 10 (.Limit 5),place 1 2 8 2 .Sell 4 (.Limit 4)]
    (fun history _ => ∃ step ∈ history, step.2.payloads =
      step.2.payloads.take 3 ++ .TradeExecuted 1 (some ⟨1,1⟩) 7 8 1 2 5 4 0 0 :: [.OrderCompleted 8]) (by decide +kernel)
  obtain ⟨earlier,later,split⟩ := List.append_of_mem member
  obtain ⟨key,_,maker,_,_,_,_,_,_,made,_,_,_,_,at_price⟩ := trades_keep_to_prices starts runs split told
  exact ⟨start,history,s,earlier,step,later,_,starts,runs,split,told,maker,made,at_price⟩

end Run

end Bunting
