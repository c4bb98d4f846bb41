import Bunting.Fills
import Bunting.Clearing

/-!
Settling every execution of a sweep, and of an auction. The loops run over what
the book found; the invariant is a view of the book that holds what is still to
be settled, and ends at what the book holds.
-/

namespace Bunting
open Stateful

/-! ### The executions of an arriving order -/

theorem OwnedOrder.reduced_left {owned : OwnedOrder} {remaining quantity : Int} (some_left : remaining ≠ 0) :
    (owned.left remaining).reduced quantity = owned.left (remaining - quantity) := by
  unfold OwnedOrder.left OwnedOrder.reduced
  simp [some_left]

/-- An order that sweeps a listing: a market order is limited by the bounds of the listing. -/
structure Aggressor (F : Frame) (key : ListingKey) (limit : Option Int) (owned : OwnedOrder) : Prop where
  listing_key : owned.listing_key = key
  admitted : Admitted F.setup owned
  limited : ∀ D, F.setup.definitions.get? key = some D → owned.limit_price = limit.getD (D.market_bound owned.side)

section Match
variable {F : Frame} {key : ListingKey} {limit : Option Int} {owned maker : OwnedOrder}

/-- What an aggressor reaches is within its limit price. -/
theorem Aggressor.within (aggressor : Aggressor F key limit owned) (admitted : Admitted F.setup maker)
    (same : maker.listing_key = key) (reach : Book.reaches owned.side limit maker.limit_price = true) :
    (owned.side = .Buy → maker.limit_price ≤ owned.limit_price) ∧
    (owned.side = .Sell → owned.limit_price ≤ maker.limit_price) := by
  obtain ⟨D,_,listed,_,lowest,highest,_⟩ := admitted
  rw [same] at listed
  rw [aggressor.limited D listed]
  cases limit with
  | none =>
    refine ⟨fun buys => ?_,fun sells => ?_⟩
    · rw [buys]; exact highest
    · rw [sells]; exact lowest
  | some limit =>
    refine ⟨fun buys => ?_,fun sells => ?_⟩
    · rw [buys] at reach
      simpa [Book.reaches,crosses] using reach
    · rw [sells] at reach
      simpa [Book.reaches,crosses] using reach

/-- An execution of the aggressor against an order that rests in the view. -/
theorem Aggressor.deals {t : Transition} {views : Views} {id maker_id : OrderId} {order : Book.Resting}
    {remaining quantity : Int} (aggressor : Aggressor F key limit owned) (core : Core F views (some id) t)
    (takes : t.run.ownership.get? id = some (owned.left remaining)) (some_left : remaining ≠ 0)
    (rests : (views key).get? maker_id = some order) (side : order.side = owned.side.opposite)
    (reach : Book.reaches owned.side limit order.price = true) (maker_left : quantity ≤ order.remaining)
    (taker_left : quantity ≤ remaining) :
    ∃ maker, maker.resting = order ∧ maker_id ≠ id ∧ Admitted F.setup maker ∧ F.setup.OnGrid key maker.limit_price ∧
      Deals t.run.ownership key maker_id id maker (owned.left remaining) order.price quantity := by
  obtain ⟨maker,makes,live,same,rfl,grounded⟩ := core.records.orders.owns rests
  have admitted := core.records.admitted makes live
  have active : (owned.left remaining).state = .Active := if_neg some_left
  obtain ⟨below,above⟩ := aggressor.within admitted same reach
  refine ⟨maker,rfl,fun here => grounded (by rw [here]),admitted,same ▸ core.records.priced makes live grounded,?_⟩
  unfold Deals
  cases buys : owned.side with
  | Buy =>
    have here : (owned.left remaining).side = .Buy := buys
    rw [here]
    rw [buys] at side
    exact ⟨takes,makes,active,live,buys,side,aggressor.listing_key,same,le_refl _,below buys,taker_left,maker_left⟩
  | Sell =>
    have here : (owned.left remaining).side = .Sell := buys
    rw [here]
    rw [buys] at side
    exact ⟨makes,takes,live,active,side,buys,same,aggressor.listing_key,above buys,le_refl _,maker_left,taker_left⟩

/-- What is still to be settled of a sweep: the executions on the view of the book, and the rest of the aggressor. -/
structure Sweeping (F : Frame) (views : Views) (key : ListingKey) (limit : Option Int) (id : OrderId) (owned : OwnedOrder)
    (listings : OrdMap ListingKey ListingState) (final : OrdMap OrderId Book.Resting) (left : Int)
    (matches_ : List Match) (view : OrdMap OrderId Book.Resting) (t : Transition) : Prop where
  core : Core F (Function.update views key view) (some id) t
  listings : t.run.listings = listings
  takes : t.run.ownership.get? id = some (owned.left (left + Book.filled matches_))
  matched : Book.Matched owned.side limit view matches_ final

variable {views : Views} {id : OrderId} {listings : OrdMap ListingKey ListingState}
  {final view : OrdMap OrderId Book.Resting} {left : Int} {placed : SubmitOrder}

theorem filled_nonneg {taker : Side} {found : List Match} (matched : Book.Matched taker limit view found final) :
    0 ≤ Book.filled found := by
  induction matched with
  | nil => simp [Book.filled]
  | cons _ _ _ _ positive _ _ _ ih =>
    simp only [Book.filled,List.map_cons,List.sum_cons] at *
    omega

/-- Settling the first execution leaves the others to be settled. -/
theorem settle_match_meets (aggressor : Aggressor F key limit owned) (taking : F.mode = .Taking placed)
    (named : placed.order_id = id) (nonneg : 0 ≤ left)
    (m : Match) (rest : List Match) :
    Meets (fun t => ∃ view, Sweeping F views key limit id owned listings final left (m :: rest) view t)
      (settle_fill key m.maker id m.price m.quantity false)
      (fun _ t => ∃ view, Sweeping F views key limit id owned listings final left rest view t) F.Allows := by
  rintro t ⟨view,core,same,takes,matched⟩
  cases matched with
  | @cons _ _ _ _ order found side price reach positive enough _ more =>
    have later := filled_nonneg more
    have total : left + Book.filled (m :: rest) = left + Book.filled rest + m.quantity := by
      simp only [Book.filled,List.map_cons,List.sum_cons]; omega
    have some_left : left + Book.filled (m :: rest) ≠ 0 := by omega
    obtain ⟨maker,rfl,distinct,admitted,grid,deals⟩ := aggressor.deals core takes some_left
      (by rw [Function.update_self]; exact found) side (by rw [price]; exact reach) enough (by omega)
    have at_price : maker.limit_price = m.price := price
    rw [price] at deals
    have taker_admitted : Admitted F.setup (owned.left (left + Book.filled (m :: rest))) := aggressor.admitted
    obtain ⟨makes,_,_,live,active,maker_key,_,_,taker_left⟩ := deals.records
    cases ran : (settle_fill key m.maker id m.price m.quantity false).run t with
    | ok x t' =>
      obtain ⟨ledger,trade,dealt,balanced,rfl⟩ := settle_fill_ok core.setup core.balanced deals positive admitted
        taker_admitted (at_price ▸ grid) (fun _ => at_price.symm) ran
      have taker_next : (t.run.ownership.insert m.maker (maker.reduced m.quantity)).get? id =
          some (owned.left (left + Book.filled (m :: rest))) := by
        rw [OrdMap.get?_insert_of_ne distinct.symm]; exact takes
      have records := (core.records.reduce makes live (fun flies => distinct (Option.some.inj flies).symm) enough).reduce_flying
        taker_next active taker_left
      refine ⟨view.set m.maker (maker.resting.taken m.quantity),?_,same,?_,more⟩
      · simp only [Views.set,maker_key,Function.update_self,Function.update_idem] at records
        refine core.filled (by rw [taking]; exact ⟨rfl,named.symm⟩) dealt rfl balanced ?_
        simpa [Transition.filled] using records
      · simp only [Transition.filled,OrdMap.get?_insert_self]
        rw [OwnedOrder.reduced_left some_left]
        congr 2
        omega
    | error fault t' =>
      have fair : Fair t.run.ownership := by
        refine core.records.fair F.valid fun j other flies there buys => ?_
        cases Option.some.inj flies
        cases takes.symm.trans there
        have := (aggressor.within admitted maker_key (by rw [at_price]; exact reach)).1 buys
        exact lt_of_lt_of_le grid.positive this
      have price_positive : 0 < m.price := at_price ▸ grid.positive
      exact settle_fill_error core.setup core.balanced deals positive admitted taker_admitted fair price_positive ran

theorem settle_matches_meets (aggressor : Aggressor F key limit owned) (taking : F.mode = .Taking placed)
    (named : placed.order_id = id) (nonneg : 0 ≤ left)
    (found : List Match) :
    Meets (fun t => ∃ view, Sweeping F views key limit id owned listings final left found view t)
      (settle_matches id key found)
      (fun _ t => Core F (Function.update views key final) (some id) t ∧ t.run.listings = listings ∧
        t.run.ownership.get? id = some (owned.left left)) F.Allows := by
  refine (forM_meets
    (fun rest t => ∃ view, Sweeping F views key limit id owned listings final left rest view t)
    (settle_match_meets aggressor taking named nonneg) found).imp (fun _ holds => holds) ?_ fun _ _ allowed => allowed
  rintro _ t ⟨view,core,same,takes,matched⟩
  cases matched
  refine ⟨core,same,?_⟩
  simpa [Book.filled] using takes

end Match

section Auction
variable {F : Frame} {key : ListingKey} {views : Views} {listings : OrdMap ListingKey ListingState}
  {final : OrdMap OrderId Book.Resting} {price : Int} {view : OrdMap OrderId Book.Resting} {quantity : Int}

/-- What is still to be settled of an auction. -/
structure Uncrossing (F : Frame) (views : Views) (key : ListingKey) (price : Int)
    (listings : OrdMap ListingKey ListingState) (final : OrdMap OrderId Book.Resting) (crosses : List Cross)
    (view : OrdMap OrderId Book.Resting) (t : Transition) : Prop where
  core : Core F (Function.update views key view) none t
  listings : t.run.listings = listings
  crossed : Book.Crossed price view crosses final

/-- Two resting orders are executed against each other, in either role. -/
theorem Records.reduce_both {setup : Setup} {pending : List OrderId}
    {ownership : OrdMap OrderId OwnedOrder} {expiries : OrdSet (Nat ×ₗ OrderId)} {retired : List OrderId}
    {live_orders : OrdMap ParticipantId Nat} {maker_id taker_id : OrderId} {maker taker : OwnedOrder}
    (records : Records setup (Function.update views key view) none pending ownership expiries retired live_orders)
    (deals : Deals ownership key maker_id taker_id maker taker price quantity) :
    Records setup (Function.update views key ((view.set maker_id (maker.resting.taken quantity)).set taker_id
        (taker.resting.taken quantity))) none
      (pending ++ ended_by maker quantity maker_id ++ ended_by taker quantity taker_id)
      ((ownership.insert maker_id (maker.reduced quantity)).insert taker_id (taker.reduced quantity))
      (expiries_after taker quantity taker_id (expiries_after maker quantity maker_id expiries)) retired live_orders := by
  obtain ⟨makes,takes,distinct,maker_live,taker_live,maker_key,taker_key,maker_left,taker_left⟩ := deals.records
  have first := records.reduce makes maker_live (by simp) maker_left
  have taker_next : (ownership.insert maker_id (maker.reduced quantity)).get? taker_id = some taker := by
    rw [OrdMap.get?_insert_of_ne distinct]; exact takes
  have second := first.reduce taker_next taker_live (by simp) taker_left
  simpa only [Views.set,maker_key,taker_key,Function.update_self,Function.update_idem] using second

theorem settle_resting {t : Transition} {maker_id taker_id : OrderId}
    {maker taker : OwnedOrder} (core : Core F (Function.update views key view) none t)
    (deals : Deals t.run.ownership key maker_id taker_id maker taker price quantity) (positive : 0 < quantity)
    (grid : F.setup.OnGrid key price) (calling : F.mode = .Calling key price) :
    Meets (fun u => t = u) (settle_fill key maker_id taker_id price quantity true)
      (fun _ u => Core F (Function.update views key ((view.set maker_id (maker.resting.taken quantity)).set taker_id
        (taker.resting.taken quantity))) none u ∧ u.run.listings = t.run.listings) F.Allows := by
  rintro _ rfl
  obtain ⟨makes,takes,_,maker_live,taker_live,_⟩ := deals.records
  have maker_admitted := core.records.admitted makes maker_live
  have taker_admitted := core.records.admitted takes taker_live
  cases ran : (settle_fill key maker_id taker_id price quantity true).run t with
  | ok x u =>
    obtain ⟨ledger,trade,dealt,balanced,rfl⟩ := settle_fill_ok core.setup core.balanced deals positive maker_admitted
      taker_admitted grid (by simp) ran
    exact ⟨core.filled (by rw [calling]; exact ⟨rfl,rfl,rfl⟩) dealt rfl balanced (core.records.reduce_both deals),rfl⟩
  | error fault u =>
    have fair : Fair t.run.ownership := core.records.fair F.valid fun _ _ flies => (nomatch flies)
    exact settle_fill_error core.setup core.balanced deals positive maker_admitted taker_admitted fair grid.positive ran

/-- Settling the first cross leaves the others to be settled. -/
theorem settle_cross_meets (grid : F.setup.OnGrid key price) (calling : F.mode = .Calling key price)
    (c : Cross) (rest : List Cross) :
    Meets (fun t => ∃ view, Uncrossing F views key price listings final (c :: rest) view t)
      (settle_cross key price c) (fun _ t => ∃ view, Uncrossing F views key price listings final rest view t) F.Allows := by
  rintro t ⟨view,core,same,crossed⟩
  cases crossed with
  | @cons _ _ _ _ buy sell once more =>
    have at_key (order : OrderId) : (Function.update views key view key).get? order = view.get? order := by
      rw [Function.update_self]
    obtain ⟨buyer,buys,buy_live,buy_key,rfl,_⟩ := core.records.orders.owns ((at_key c.buy).trans once.buys)
    obtain ⟨seller,sells,sell_live,sell_key,rfl,_⟩ := core.records.orders.owns ((at_key c.sell).trans once.sells)
    have execution : Execution t.run.ownership key c.buy c.sell buyer seller price c.quantity :=
      ⟨buys,sells,buy_live,sell_live,once.buy_side,once.sell_side,buy_key,sell_key,once.ask,once.bid,once.buy_enough,
        once.sell_enough⟩
    unfold settle_cross
    split_ifs
    · -- The bid rested first: the offer is the taker.
      have deals : Deals t.run.ownership key c.buy c.sell buyer seller price c.quantity := by
        unfold Deals
        rw [show seller.side = .Sell from once.sell_side]
        exact execution
      exact (settle_resting core deals once.positive grid calling).imp (fun _ same => same)
        (fun _ u ⟨core',kept⟩ => ⟨_,core',kept.trans same,more⟩) (fun _ _ allowed => allowed) t rfl
    · have deals : Deals t.run.ownership key c.sell c.buy seller buyer price c.quantity := by
        unfold Deals
        rw [show buyer.side = .Buy from once.buy_side]
        exact execution
      refine (settle_resting core deals once.positive grid calling).imp (fun _ same => same)
        (fun _ u ⟨core',kept⟩ => ⟨_,?_,kept.trans same,more⟩) (fun _ _ allowed => allowed) t rfl
      rw [OrdMap.set_comm _ _ _ execution.distinct] at core'
      exact core'

theorem settle_crosses_meets (grid : F.setup.OnGrid key price) (calling : F.mode = .Calling key price)
    (crosses : List Cross) :
    Meets (fun t => ∃ view, Uncrossing F views key price listings final crosses view t)
      (forM crosses (settle_cross key price))
      (fun _ t => Core F (Function.update views key final) none t ∧ t.run.listings = listings) F.Allows := by
  refine (forM_meets (fun rest t => ∃ view, Uncrossing F views key price listings final rest view t)
    (settle_cross_meets grid calling) crosses).imp (fun _ holds => holds) ?_ fun _ _ allowed => allowed
  rintro _ t ⟨view,core,same,crossed⟩
  cases crossed
  exact ⟨core,same⟩

end Auction

section Books
variable {F : Frame} {views : Views} {flight : Option OrderId} {t t' : Transition} {key : ListingKey} {α : Type}
  {m : EStateM BookError Book α} {fault : BookError → Fault} {a : α} {listing : ListingState}

theorem on_book_ok (ran : (on_book key fault m).run t = .ok a t') :
    ∃ listing book, t.run.listings.get? key = some listing ∧ m.run listing.book = .ok a book ∧
      t' = t.put_book key book := by
  simp only [on_book,returned] at ran
  obtain ⟨listing,known,book,ran,rfl⟩ := ran
  rw [RunState.book_of_listing known] at ran
  exact ⟨listing,book,known,ran,by rw [RunState.set_book_eq]; rfl⟩

theorem on_book_error {e : Fault} (known : t.run.listings.get? key = some listing)
    (failed : (on_book key fault m).run t = .error e t') : ∃ d book, m.run listing.book = .error d book ∧ fault d = e := by
  simp only [on_book,returned,raised] at failed
  obtain ⟨missing,_⟩ | ⟨_,_,d,book,failed,rfl,_⟩ := failed
  · rw [known] at missing; cases missing
  · rw [RunState.book_of_listing known] at failed
    exact ⟨d,book,failed,rfl⟩

def Frame.shift (F : Frame) (mode : Mode) : Frame := { F with mode }

theorem Balanced.shift {ledger : Ledger} {ownership : OrdMap OrderId OwnedOrder} (balanced : Balanced F ledger ownership)
    (mode : Mode) : Balanced (F.shift mode) ledger ownership :=
  { balanced with }

/-- The book moves on; the view of it does not yet. -/
theorem Core.put_book {book : Book} {mode : Mode} (core : Core F views flight t)
    (known : t.run.listings.get? key = some listing) (sound : book.Sound)
    (move : Move F.setup F.base F.now (F.mode,t) (mode,t.put_book key book)) :
    Core (F.shift mode) views flight (t.put_book key book) :=
  { core with
    setup := RunState.setup_of core.setup definitions_put_book (core.balanced.shift mode) rfl
    books := fun j => by
      rw [RunState.book,Transition.put_book,book_put_book known]
      split_ifs
      · exact sound
      · exact core.books j
    balanced := core.balanced.shift mode
    moves := core.moves.tail move }

/-- An auction is reported once its crosses are settled. -/
theorem Inv.called {price : Int} (inv : Inv (F.shift (.Calling key price)) t) (opened : F.mode = .Open) (volume : Int) :
    Inv F { t with payloads := t.payloads ++ [.Simulation (.AuctionUncrossed key price volume)] } :=
  { inv with
    records := by
      rw [terminal_append (by simp [EventPayload.terminal])]
      exact inv.records
    balanced := { inv.balanced with }
    emitted := inv.emitted.append fun payload last => by rw [List.mem_singleton.mp last]; exact ⟨trivial,rfl,rfl⟩
    moves := by
      rw [opened]
      exact inv.moves.tail (.called volume) }

theorem Core.caught_up {u : Transition} {book : Book}
    (core : Core F (Function.update t.run.views key book.view) flight u)
    (known : t.run.listings.get? key = some listing) (same : u.run.listings = (t.put_book key book).run.listings) :
    Core F u.run.views flight u := by
  have caught : u.run.views = Function.update t.run.views key book.view := by
    rw [← views_put_book known]
    funext j
    rw [RunState.views,RunState.book,same]
    rfl
  rw [caught]
  exact core

/-- What an auction leaves: the other books as they were, and its own clear if its volume was in range. -/
structure Auctioned (key : ListingKey) (t u : Transition) : Prop where
  others : ∀ other, other ≠ key → u.run.book other = t.run.book other
  clears : (t.run.book key).Fits → Book.Clear (u.run.book key).view

theorem auction_meets (opened : F.mode = .Open) (inv : Inv F t) (member : F.setup.definitions.contains key = true) :
    Meets (fun u => t = u) (auction key) (fun _ u => Inv F u ∧ Auctioned key t u) F.Allows := by
  rintro _ rfl
  obtain ⟨D,listed⟩ := OrdMap.contains_iff.mp member
  rw [← inv.setup] at listed
  obtain ⟨listing,known,_⟩ := RunState.listing_of_definition listed
  have sound := inv.books key
  have here := RunState.book_of_listing known
  rw [here] at sound
  unfold auction
  rw [EStateM.run_bind]
  simp only [EStateM.run_get]
  rw [EStateM.run_bind,known]
  simp only [run_orElse_some]
  cases priced : listing.book.auction_price ((t.run.ledger.mark key.instrument_id).getD 1) with
  | none =>
    refine ⟨inv,fun _ _ => rfl,fun fits => ?_⟩
    rw [here] at fits ⊢
    exact sound.clear_of_matched (sound.no_auction priced fits)
  | some found =>
    obtain ⟨price,quantity⟩ := found
    have grid : F.setup.OnGrid key price := by
      obtain ⟨⟨id,order,rests,rfl⟩,_⟩ := sound.auctioned priced
      have there : (t.run.views key).get? id = some order := by rw [RunState.views,here]; exact rests
      obtain ⟨owned,found,live,rfl,rfl,grounded⟩ := inv.records.orders.owns there
      exact inv.records.priced found live grounded
    have uncrosses : Meets (fun u => t = u) (on_book key Fault.booking (Book.uncross price))
        (fun crosses u => ∃ book, Book.Clear book.view ∧ ∃ view,
          Uncrossing (F.shift (.Calling key price)) t.run.views key price (t.put_book key book).run.listings book.view crosses
            view u) F.Allows := by
      rintro _ rfl
      cases ran : (on_book key Fault.booking (Book.uncross price)).run t with
      | ok crosses u =>
        obtain ⟨listing',book,known',ran,rfl⟩ := on_book_ok ran
        cases known.symm.trans known'
        obtain ⟨sound',crossed,_⟩ := Book.uncross_ok sound ran
        refine ⟨book,sound.uncross_clears priced ran,listing.book.view,⟨?_,rfl,crossed⟩⟩
        have view : listing.book.view = t.run.views key := by rw [RunState.views,here]
        rw [view,Function.update_eq_self]
        exact Core.put_book inv known sound' (by rw [opened]; exact .uncrossed known priced ran)
      | error fault u =>
        obtain ⟨e,book,failed,rfl⟩ := on_book_error known ran
        refine F.allows_overflow ?_
        rw [Fault.booking,if_pos (Book.uncross_error sound failed)]
    have settles (crosses : List Cross) : Meets (fun u => ∃ book, Book.Clear book.view ∧ ∃ view,
        Uncrossing (F.shift (.Calling key price)) t.run.views key price (t.put_book key book).run.listings book.view crosses
          view u) (forM crosses (settle_cross key price))
        (fun _ u => Inv (F.shift (.Calling key price)) u ∧ Auctioned key t u) F.Allows := by
      rintro u ⟨book,clear,uncrossing⟩
      refine (settle_crosses_meets (F := F.shift (.Calling key price)) grid rfl crosses).imp (fun _ holds => holds)
        (fun _ v settled => ⟨settled.1.caught_up known settled.2,fun other apart => ?_,fun _ => ?_⟩)
        (fun _ _ allowed => allowed) u uncrossing
      · rw [RunState.book,settled.2,Transition.put_book,book_put_book known,if_neg apart]
      · rw [RunState.book,settled.2,Transition.put_book,book_put_book known,if_pos rfl]
        exact clear
    have reports : Meets (fun u => Inv (F.shift (.Calling key price)) u ∧ Auctioned key t u)
        (emit [.Simulation (.AuctionUncrossed key price quantity)]) (fun _ u => Inv F u ∧ Auctioned key t u) F.Allows :=
      fun u done => ⟨done.1.called opened quantity,done.2.others,done.2.clears⟩
    exact uncrosses.bind (fun crosses => (settles crosses).bind fun _ => reports) t rfl

end Books

end Bunting
