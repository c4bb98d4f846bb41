import Bunting.Retirement

/-!
The ledger against the live orders (`Accounts`): the open quantities and the
reservations are what the live orders hold, and what cannot be shorted is never
sold beyond what is held. An execution is refused only where the buyer's cash no
longer covers its live orders (`Covered`).
-/

namespace Bunting
open Stateful

/-- The inputs of a run that no transition changes. -/
structure Setup where
  participants : OrdMap ParticipantId ParticipantDefinition
  instruments : OrdMap InstrumentId InstrumentDefinition
  definitions : OrdMap ListingKey ListingDefinition
  terms : OrdMap InstrumentId InstrumentTerms
  reporting_currency : CurrencyId
  fx_rates : List FxRate
  calendar : Option Calendar
  config : EngineConfig

def RunState.setup (run : RunState) : Setup where
  participants := run.participants
  instruments := run.instruments
  definitions := run.listings.mapValues (fun _ listing => listing.definition)
  terms := run.ledger.terms
  reporting_currency := run.reporting_currency
  fx_rates := run.fx_rates
  calendar := run.calendar
  config := run.config

namespace Setup

/-- A currency that is reported in or converts. -/
def Converts (setup : Setup) (currency : CurrencyId) : Prop :=
  currency = setup.reporting_currency ∨ ∃ rate ∈ setup.fx_rates, rate.currency = currency

/-- What a validated scenario says of them. -/
structure Valid (setup : Setup) : Prop where
  terms : setup.terms = setup.instruments.mapValues (fun _ instrument => instrument.terms)
  multiplier : ∀ {i T}, setup.terms.get? i = some T → 0 < T.multiplier
  converts : ∀ {i T}, setup.terms.get? i = some T → setup.Converts T.currency
  rates : ∀ rate ∈ setup.fx_rates, 0 < rate.minor_units_per_lot
  listed : ∀ {key D}, setup.definitions.get? key = some D →
    D.key = key ∧ ∃ T, setup.terms.get? key.instrument_id = some T
  bounds : ∀ {key D}, setup.definitions.get? key = some D → D.price_bounds.min ≤ D.price_bounds.max
  ticks : ∀ {key D}, setup.definitions.get? key = some D → 1 ≤ D.tick_size
  config : setup.config = {}
  listings : setup.definitions.isEmpty = false ∧ setup.definitions.size ≤ MAX_LISTINGS
  participants : setup.participants.size ≤ MAX_PARTICIPANTS

/-- No fee of a listing exceeds the value of a lot at its lowest price. -/
def Cheap (setup : Setup) : Prop :=
  ∀ key D T, setup.definitions.get? key = some D → setup.terms.get? key.instrument_id = some T →
    D.fees.bound ≤ D.price_bounds.min * T.multiplier

/-- A price that a trade on the listing may be at. -/
structure OnGrid (setup : Setup) (key : ListingKey) (price : Int) : Prop where
  positive : 0 < price
  bounds : ∀ {D}, setup.definitions.get? key = some D → D.price_bounds.min ≤ price ∧ price ≤ D.price_bounds.max
  tick : ∀ {D}, setup.definitions.get? key = some D → D.tick_size ∣ price

/-- The reservation of an order at its limit price. -/
def reservation (setup : Setup) (D : ListingDefinition) (T : InstrumentTerms) (owned : OwnedOrder) : Reservation :=
  match owned.side with
  | .Buy =>
    if funded setup.participants owned.participant_id then ⟨owned.limit_price * T.multiplier + D.fees.bound,false⟩
    else .NONE
  | .Sell => if T.shortable then .NONE else ⟨0,true⟩

end Setup

/-- What admission fixed of a live order. -/
def Admitted (setup : Setup) (owned : OwnedOrder) : Prop :=
  ∃ D T, setup.definitions.get? owned.listing_key = some D ∧
    setup.terms.get? owned.listing_key.instrument_id = some T ∧
    D.price_bounds.min ≤ owned.limit_price ∧ owned.limit_price ≤ D.price_bounds.max ∧
    owned.reservation = setup.reservation D T owned

/-- What cannot be shorted is held beyond what is reserved of it. -/
def Stocked (ledger : Ledger) : Prop :=
  ∀ p i T, ledger.terms.get? i = some T → T.shortable = false →
    (ledger.position_of p i).reserved ≤ (ledger.position_of p i).quantity

/-- Positions are in instruments of the run. -/
def Known (ledger : Ledger) : Prop :=
  ∀ p i, ledger.positions.contains (toLex (p,i)) = true → ∃ T, ledger.terms.get? i = some T

structure Accounts (setup : Setup) (ledger : Ledger) (ownership : OrdMap OrderId OwnedOrder) : Prop where
  terms : ledger.terms = setup.terms
  reserved : Reserved ledger ownership
  stocked : Stocked ledger
  known : Known ledger

/-- The participant has a live buy order that settles in the currency. -/
def Buying (terms : OrdMap InstrumentId InstrumentTerms) (ownership : OrdMap OrderId OwnedOrder)
    (participant : ParticipantId) (currency : CurrencyId) : Prop :=
  ∃ id owned, ownership.get? id = some owned ∧ owned.state = .Active ∧ owned.participant_id = participant ∧
    owned.side = .Buy ∧ currency_of terms owned.listing_key.instrument_id = currency

/-- Who pays from its own cash only has the cash its live buy orders hold. -/
def Covered (setup : Setup) (ledger : Ledger) (ownership : OrdMap OrderId OwnedOrder) : Prop :=
  ∀ p c, funded setup.participants p = true → Buying setup.terms ownership p c →
    (ledger.cash_of p c).reserved ≤ (ledger.cash_of p c).balance

/-- What a live order holds is not negative. -/
def Fair (ownership : OrdMap OrderId OwnedOrder) : Prop :=
  ∀ id owned, ownership.get? id = some owned → owned.state = .Active →
    0 ≤ owned.remaining_quantity ∧ 0 ≤ owned.reservation.cash_per_lot

section Records
variable {setup : Setup} {ownership : OrdMap OrderId OwnedOrder} {id : OrderId} {owned next : OwnedOrder} {quantity : Int}

theorem held_nonneg (fair : Fair ownership) (terms : OrdMap InstrumentId InstrumentTerms) (counter : Counter) :
    0 ≤ held terms ownership counter := by
  refine OrdMap.sum_nonneg fun id owned found => ?_
  unfold OwnedOrder.holds
  split_ifs with live
  · obtain ⟨remaining,per_lot⟩ := fair id owned found live
    have := mul_nonneg per_lot remaining
    cases counter <;> simp only [Counter.change,OwnedOrder.entry,Entry.opening] <;> split_ifs <;> omega
  · omega

theorem Fair.replace (fair : Fair ownership)
    (here : next.state = .Active → 0 ≤ next.remaining_quantity ∧ 0 ≤ next.reservation.cash_per_lot) :
    Fair (ownership.insert id next) :=
  fun _ _ there => OrdMap.of_insert there here fair

theorem Fair.reduce (fair : Fair ownership) (found : ownership.get? id = some owned) (live : owned.state = .Active)
    (enough : quantity ≤ owned.remaining_quantity) : Fair (ownership.insert id (owned.reduced quantity)) := by
  refine fair.replace fun _ => ⟨?_,(fair id owned found live).2⟩
  simp only [OwnedOrder.reduced]
  omega

/-- A record that changes its state and quantity only does not start to buy. -/
theorem Buying.of_replace {terms : OrdMap InstrumentId InstrumentTerms} {p : ParticipantId} {c : CurrencyId}
    (buying : Buying terms (ownership.insert id next) p c) (found : ownership.get? id = some owned)
    (live : owned.state = .Active) (same : next.participant_id = owned.participant_id ∧ next.side = owned.side ∧
      next.listing_key = owned.listing_key) : Buying terms ownership p c := by
  obtain ⟨j,other,there,active,owner,buys,settles⟩ := buying
  rw [OrdMap.get?_insert] at there
  split_ifs at there
  · cases there
    exact ⟨id,owned,found,live,same.1 ▸ owner,same.2.1 ▸ buys,same.2.2 ▸ settles⟩
  · exact ⟨j,other,there,active,owner,buys,settles⟩

end Records

section Posted
variable {setup : Setup} {ledger ledger' : Ledger} {ownership ownership' : OrdMap OrderId OwnedOrder} {e : Entry}

/-- The accounts hold again once the counters, the stock and the instrument of an entry are checked. -/
theorem Accounts.post (accounts : Accounts setup ledger ownership) (posts : Ledger.Posts e ledger ledger')
    (moves : ∀ counter : Counter, held setup.terms ownership' counter = held setup.terms ownership counter +
      counter.change e)
    (stock : ∀ T, setup.terms.get? e.instrument = some T → T.shortable = false →
      (ledger.position_of e.participant e.instrument).reserved + e.lots.reserved ≤
        (ledger.position_of e.participant e.instrument).quantity + e.lots.quantity)
    (known : e.lots ≠ {} → ∃ T, setup.terms.get? e.instrument = some T) : Accounts setup ledger' ownership' where
  terms := by rw [posts.terms]; exact accounts.terms
  reserved counter := by
    rw [Counter.read_of_posts posts,accounts.reserved counter,posts.terms,accounts.terms,moves]
  stocked p i T found short := by
    rw [posts.terms] at found
    rw [posts.reserved,posts.quantity]
    by_cases here : p = e.participant ∧ i = e.instrument
    · obtain ⟨rfl,rfl⟩ := here
      rw [if_pos ⟨rfl,rfl⟩,if_pos ⟨rfl,rfl⟩]
      exact stock T (by rw [← accounts.terms]; exact found) short
    · rw [if_neg here,if_neg here,add_zero,add_zero]
      exact accounts.stocked p i T found short
  known p i there := by
    rw [posts.terms]
    rcases posts.position_held _ there with before | ⟨here,some_lots⟩
    · exact accounts.known p i before
    · cases toLex.injective here
      rw [accounts.terms]
      exact known some_lots

end Posted

section Opening
variable {setup : Setup} {ledger ledger' : Ledger} {ownership : OrdMap OrderId OwnedOrder} {id : OrderId}
  {owned : OwnedOrder} {x : Unit} {T : InstrumentTerms}

theorem entry_eq_opening (terms : ledger.terms = setup.terms)
    (found : ledger.terms.get? owned.listing_key.instrument_id = some T) (quantity : Int) :
    owned.entry setup.terms quantity = .opening owned.participant_id T.currency owned.listing_key.instrument_id
      owned.side owned.reservation quantity := by
  unfold OwnedOrder.entry currency_of
  rw [← terms,found]
  rfl

theorem Admitted.inventory (admitted : Admitted setup owned)
    (found : setup.terms.get? owned.listing_key.instrument_id = some T) :
    (owned.side = .Sell → T.shortable = false → owned.reservation.inventory = true) ∧
    (owned.side = .Buy → owned.reservation.inventory = false) := by
  obtain ⟨D,T',_,found',_,_,reserves⟩ := admitted
  cases found.symm.trans found'
  rw [reserves]
  unfold Setup.reservation
  refine ⟨fun sells short => ?_,fun buys => ?_⟩
  · rw [sells]; simp [short]
  · rw [buys]; simp only; split_ifs <;> rfl

variable (accounts : Accounts setup ledger ownership)
include accounts

theorem Accounts.open_order (absent : ownership.get? id = none)
    (live : owned.state = .Active) (admitted : Admitted setup owned)
    (ran : (Ledger.open_order owned.participant_id owned.listing_key.instrument_id owned.side owned.remaining_quantity
      owned.reservation).run ledger = .ok x ledger') :
    Accounts setup ledger' (ownership.insert id owned) := by
  obtain ⟨T,found,positive,admits,posts⟩ := Ledger.change_open_posts ran
  have found' : setup.terms.get? owned.listing_key.instrument_id = some T := by rw [← accounts.terms]; exact found
  refine accounts.post posts (fun counter => ?_) (fun T' there short => ?_) fun _ => ⟨T,found'⟩
  · rw [held,OrdMap.sum_insert_new _ _ absent,OwnedOrder.holds,if_pos live,entry_eq_opening accounts.terms found]
    rfl
  · cases found'.symm.trans there
    have before := accounts.stocked owned.participant_id _ T found short
    obtain ⟨_,_,_,sells⟩ := admits
    simp only [Entry.opening,Ledger.moved,if_true,add_zero]
    by_cases selling : owned.side = .Sell
    · have held := (admitted.inventory found').1 selling short
      have := (sells selling held).2 rfl
      rw [if_pos ⟨selling,held⟩]
      simpa [selling,held,Ledger.moved] using this
    · rw [if_neg fun h => selling h.1]
      simpa using before

theorem Accounts.close_order (found : ownership.get? id = some owned) (live : owned.state = .Active)
    (ran : (Ledger.close_order owned.participant_id owned.listing_key.instrument_id owned.side owned.remaining_quantity
      owned.reservation).run ledger = .ok x ledger') :
    Accounts setup ledger' (ownership.insert id owned.canceled) := by
  obtain ⟨T,known,positive,admits,posts⟩ := Ledger.change_open_posts ran
  have known' : setup.terms.get? owned.listing_key.instrument_id = some T := by rw [← accounts.terms]; exact known
  refine accounts.post posts (fun counter => ?_) (fun T' there short => ?_) fun _ => ⟨T,known'⟩
  · have gone : owned.canceled.holds setup.terms counter = 0 := rfl
    rw [held_replace found,gone,OwnedOrder.holds,if_pos live,entry_eq_opening accounts.terms known]
    simp only [Ledger.moved,Bool.false_eq_true,if_false]
    rw [Counter.change_opening_neg]
    omega
  · cases known'.symm.trans there
    have before := accounts.stocked owned.participant_id _ T known short
    simp only [Entry.opening,Ledger.moved,Bool.false_eq_true,if_false,add_zero]
    split_ifs <;> omega

/-- A live order can always be closed, overflow apart. -/
theorem Accounts.close_order_error (fair : Fair (ownership.insert id owned.canceled))
    (found : ownership.get? id = some owned) (live : owned.state = .Active) (positive : 0 < owned.remaining_quantity)
    (admitted : Admitted setup owned) {e : LedgerError}
    (failed : (Ledger.close_order owned.participant_id owned.listing_key.instrument_id owned.side
      owned.remaining_quantity owned.reservation).run ledger = .error e ledger') : e = .ArithmeticOverflow := by
  obtain ⟨D,T,_,known',_⟩ := admitted
  have known : ledger.terms.get? owned.listing_key.instrument_id = some T := by rw [accounts.terms]; exact known'
  -- What is left in each counter is what the other live orders hold.
  have left (counter : Counter) : 0 ≤ counter.read ledger + counter.change (.opening owned.participant_id T.currency
      owned.listing_key.instrument_id owned.side owned.reservation (-owned.remaining_quantity)) := by
    have rest := held_nonneg fair setup.terms counter
    have gone : owned.canceled.holds setup.terms counter = 0 := rfl
    rw [held_replace found,gone,OwnedOrder.holds,if_pos live,entry_eq_opening accounts.terms known] at rest
    rw [accounts.reserved counter,accounts.terms,Counter.change_opening_neg]
    omega
  refine Ledger.change_open_error known positive ⟨?_,?_,fun buys => ⟨?_,by simp⟩,fun sells held => ⟨?_,by simp⟩⟩ failed
  · simpa [Counter.read,Counter.change,Entry.opening,Ledger.moved] using
      left (.OpenBuy owned.participant_id owned.listing_key.instrument_id)
  · simpa [Counter.read,Counter.change,Entry.opening,Ledger.moved] using
      left (.OpenSell owned.participant_id owned.listing_key.instrument_id)
  · simpa [Counter.read,Counter.change,Entry.opening,Ledger.moved,buys] using left (.Cash owned.participant_id T.currency)
  · simpa [Counter.read,Counter.change,Entry.opening,Ledger.moved,sells,held] using
      left (.Inventory owned.participant_id owned.listing_key.instrument_id)

end Opening

/-! ### Executing two orders against each other -/

/-- An execution between two live orders of one listing, at a price within both limits. -/
structure Execution (ownership : OrdMap OrderId OwnedOrder) (key : ListingKey) (buy sell : OrderId)
    (buyer seller : OwnedOrder) (price quantity : Int) : Prop where
  buys : ownership.get? buy = some buyer
  sells : ownership.get? sell = some seller
  buy_live : buyer.state = .Active
  sell_live : seller.state = .Active
  buy_side : buyer.side = .Buy
  sell_side : seller.side = .Sell
  buy_key : buyer.listing_key = key
  sell_key : seller.listing_key = key
  above : seller.limit_price ≤ price
  below : price ≤ buyer.limit_price
  buy_left : quantity ≤ buyer.remaining_quantity
  sell_left : quantity ≤ seller.remaining_quantity

def executed (ownership : OrdMap OrderId OwnedOrder) (buy sell : OrderId) (buyer seller : OwnedOrder) (quantity : Int) :
    OrdMap OrderId OwnedOrder := (ownership.insert buy (buyer.reduced quantity)).insert sell (seller.reduced quantity)

/-- What the ledger is given of an execution. -/
def execution_fill (setup : Setup) (key : ListingKey) (buyer seller : OwnedOrder) (price quantity buy_fee sell_fee : Int) :
    Fill :=
  ⟨key.instrument_id,price,quantity,some (buyer.party setup.participants buy_fee),
    some (seller.party setup.participants sell_fee),true⟩

section Legs
variable {setup : Setup} {ledger ledger' : Ledger} {ownership : OrdMap OrderId OwnedOrder} {id : OrderId}
  {owned : OwnedOrder} {T : InstrumentTerms} {fill : Fill} {fee value : Int}

/-- The counters after a leg are those of the records after it. -/
theorem held_leg (known : setup.terms.get? owned.listing_key.instrument_id = some T)
    (found : ownership.get? id = some owned) (live : owned.state = .Active)
    (instrument : fill.instrument = owned.listing_key.instrument_id) (counter : Counter) :
    held setup.terms (ownership.insert id (owned.reduced fill.quantity)) counter =
      held setup.terms ownership counter +
        counter.change (.opening owned.participant_id T.currency fill.instrument owned.side owned.reservation
          (-fill.quantity)) := by
  rw [held_replace found,OwnedOrder.holds_reduced live,Counter.change_opening_neg,instrument]
  have same : owned.entry setup.terms fill.quantity = .opening owned.participant_id T.currency
      owned.listing_key.instrument_id owned.side owned.reservation fill.quantity := by
    unfold OwnedOrder.entry currency_of
    rw [known]
    rfl
  rw [same]
  omega

theorem Accounts.leg (accounts : Accounts setup ledger ownership) (found : ownership.get? id = some owned)
    (live : owned.state = .Active) (instrument : fill.instrument = owned.listing_key.instrument_id)
    (known : setup.terms.get? fill.instrument = some T) (positive : 0 < fill.quantity)
    (leg : Ledger.Leg T value fill owned.side (some (owned.party setup.participants fee)) ledger ledger') :
    Accounts setup ledger' (ownership.insert id (owned.reduced fill.quantity)) := by
  obtain ⟨posts,_,funds⟩ := Ledger.leg_posts leg positive
  refine accounts.post posts (fun counter => ?_) (fun T' there short => ?_) fun _ => ⟨T,known⟩
  · rw [held_leg (by rw [← instrument]; exact known) found live instrument,Counter.change_leg]
    rfl
  · cases known.symm.trans there
    have before := accounts.stocked owned.participant_id fill.instrument T (by rw [accounts.terms]; exact known) short
    cases side : owned.side with
    | Buy => simp only [Entry.leg,Entry.opening,OwnedOrder.party,Option.elim]; simp; omega
    | Sell =>
      have delivers := funds.2 side short
      rw [side] at delivers
      simp only [OwnedOrder.party,Position.released,Position.opened_reserved,Entry.leg,Entry.opening,Option.elim,
        Side.signed_sell] at delivers ⊢
      omega

/-- A leg of a live order leaves the counters of its account where the other orders put them. -/
theorem Accounts.releases (accounts : Accounts setup ledger ownership) (fair : Fair ownership)
    (found : ownership.get? id = some owned) (live : owned.state = .Active)
    (enough : fill.quantity ≤ owned.remaining_quantity)
    (instrument : fill.instrument = owned.listing_key.instrument_id)
    (known : setup.terms.get? fill.instrument = some T) :
    Ledger.ReleaseAdmits fill owned.side (owned.party setup.participants fee)
      (ledger.cash_of owned.participant_id T.currency) (ledger.position_of owned.participant_id fill.instrument) := by
  have left (counter : Counter) : 0 ≤ counter.read ledger + counter.change (.opening owned.participant_id T.currency
      fill.instrument owned.side owned.reservation (-fill.quantity)) := by
    have rest := held_nonneg (fair.reduce found live enough) setup.terms counter
    rw [held_leg (by rw [← instrument]; exact known) found live instrument] at rest
    rw [accounts.reserved counter,accounts.terms]
    exact rest
  intro _
  simp only [OwnedOrder.party,Position.released,CashBalance.released,Position.opened_buy,Position.opened_sell,
    Position.opened_reserved,CashBalance.opened_reserved]
  refine ⟨?_,?_,?_,?_⟩
  · simpa [Counter.read,Counter.change,Entry.opening] using left (.OpenBuy owned.participant_id fill.instrument)
  · simpa [Counter.read,Counter.change,Entry.opening] using left (.OpenSell owned.participant_id fill.instrument)
  · simpa [Counter.read,Counter.change,Entry.opening] using left (.Inventory owned.participant_id fill.instrument)
  · simpa [Counter.read,Counter.change,Entry.opening] using left (.Cash owned.participant_id T.currency)

end Legs

theorem Accounts.mark {setup : Setup} {ledger : Ledger} {ownership : OrdMap OrderId OwnedOrder}
    (accounts : Accounts setup ledger ownership) (marks : OrdMap InstrumentId Int) :
    Accounts setup { ledger with marks } ownership :=
  ⟨accounts.terms,fun counter => by rw [← accounts.reserved counter]; cases counter <;> rfl,accounts.stocked,
    accounts.known⟩

section Worth
variable {setup : Setup} {owned : OwnedOrder} {D : ListingDefinition} {T : InstrumentTerms} {price quantity fee : Int}

/-- What a live order that pays from its own cash holds of it. -/
theorem Admitted.cash_per_lot (admitted : Admitted setup owned) (listed : setup.definitions.get? owned.listing_key = some D)
    (known : setup.terms.get? owned.listing_key.instrument_id = some T) (buys : owned.side = .Buy)
    (pays : funded setup.participants owned.participant_id = true) :
    owned.reservation.cash_per_lot = owned.limit_price * T.multiplier + D.fees.bound := by
  obtain ⟨D',T',listed',known',_,_,reserves⟩ := admitted
  cases listed.symm.trans listed'
  cases known.symm.trans known'
  rw [reserves,Setup.reservation,buys]
  simp [pays]

/-- Selling at a price of the listing is worth its fee. -/
theorem Admitted.worth (admitted : Admitted setup owned) (valid : setup.Valid) (cheap : setup.Cheap)
    (listed : setup.definitions.get? owned.listing_key = some D)
    (known : setup.terms.get? owned.listing_key.instrument_id = some T) (above : owned.limit_price ≤ price)
    (positive : 0 < quantity) (charged : fee ≤ D.fees.bound * quantity) :
    fee ≤ price * quantity * T.multiplier := by
  obtain ⟨D',T',listed',known',lowest,_,_⟩ := admitted
  cases listed.symm.trans listed'
  cases known.symm.trans known'
  have multiplier := valid.multiplier known
  have bound : D.fees.bound ≤ price * T.multiplier :=
    (cheap _ D T listed known).trans (Int.mul_le_mul_of_nonneg_right (lowest.trans above) multiplier.le)
  calc fee ≤ D.fees.bound * quantity := charged
    _ ≤ price * T.multiplier * quantity := Int.mul_le_mul_of_nonneg_right bound positive.le
    _ = price * quantity * T.multiplier := by ring

end Worth

section Settling
variable {setup : Setup} {ledger ledger' : Ledger} {ownership : OrdMap OrderId OwnedOrder} {key : ListingKey}
  {buy sell : OrderId} {buyer seller : OwnedOrder} {price quantity buy_fee sell_fee : Int} {x : Unit}
  {D : ListingDefinition}

variable (execution : Execution ownership key buy sell buyer seller price quantity)
include execution

theorem Execution.distinct : sell ≠ buy := by
  rintro rfl
  cases execution.buys.symm.trans execution.sells
  cases execution.buy_side.symm.trans execution.sell_side

/-- The records after the buyer's leg still hold the seller's. -/
theorem Execution.sells_next : (ownership.insert buy (buyer.reduced quantity)).get? sell = some seller := by
  rw [OrdMap.get?_insert_of_ne execution.distinct]
  exact execution.sells

section Settled
variable (ran : (Ledger.settle (execution_fill setup key buyer seller price quantity buy_fee sell_fee)).run ledger = .ok x ledger')
include ran

/-- What settling an execution does to the ledger: the legs of its orders and the mark. -/
theorem settle_legs :
    ∃ T bought sold, ledger.terms.get? key.instrument_id = some T ∧ 0 < quantity ∧ 0 < price ∧
      Ledger.Leg T (price * quantity * T.multiplier)
        (execution_fill setup key buyer seller price quantity buy_fee sell_fee) buyer.side
        (some (buyer.party setup.participants buy_fee)) ledger bought ∧
      Ledger.Leg T (price * quantity * T.multiplier)
        (execution_fill setup key buyer seller price quantity buy_fee sell_fee) seller.side
        (some (seller.party setup.participants sell_fee)) bought sold ∧
      ledger' = { sold with marks := ledger.marks.insert key.instrument_id price } := by
  rw [execution.buy_side,execution.sell_side]
  exact Ledger.settle_ok ran

theorem Accounts.settle (accounts : Accounts setup ledger ownership) :
    Accounts setup ledger' (executed ownership buy sell buyer seller quantity) := by
  obtain ⟨T,bought,sold,known,positive,_,buys,sells,rfl⟩ := settle_legs execution ran
  rw [accounts.terms] at known
  have first := accounts.leg execution.buys execution.buy_live (by rw [execution.buy_key]; rfl) known positive buys
  have second := first.leg execution.sells_next execution.sell_live (by rw [execution.sell_key]; rfl) known positive sells
  exact second.mark _

/-- Neither cash nor lots are made or lost, and the price becomes the mark. -/
theorem settle_conserves :
    (∀ c, ledger'.total_cash c = ledger.total_cash c) ∧ (∀ i, ledger'.total_lots i = ledger.total_lots i) ∧
      ledger'.marks = ledger.marks.insert key.instrument_id price ∧ 0 < price ∧ 0 < quantity := by
  obtain ⟨T,bought,sold,_,positive,price_positive,buys,sells,rfl⟩ := settle_legs execution ran
  have first := (Ledger.leg_posts buys positive).1
  have second := (Ledger.leg_posts sells positive).1
  refine ⟨fun c => ?_,fun i => ?_,rfl,price_positive,positive⟩
  · have := second.total_cash c
    rw [first.total_cash] at this
    change sold.total_cash c = _
    rw [this]
    simp only [Entry.leg,Entry.opening,OwnedOrder.party,Option.elim,execution.buy_side,execution.sell_side,
      Side.signed_buy,Side.signed_sell]
    split_ifs <;> omega
  · have := second.total_lots i
    rw [first.total_lots] at this
    change sold.total_lots i = _
    rw [this]
    simp only [Entry.leg,Entry.opening,OwnedOrder.party,Option.elim,execution.buy_side,execution.sell_side,
      Side.signed_buy,Side.signed_sell]
    split_ifs <;> omega

/-- The accounts that get cash or lots from an execution had them or have a live order. -/
theorem settle_holds {p : ParticipantId} {c : CurrencyId} (held : ledger'.cash.contains (toLex (p,c)) = true) :
    ledger.cash.contains (toLex (p,c)) = true ∨ c = currency_of ledger.terms key.instrument_id := by
  obtain ⟨T,bought,sold,known,positive,_,buys,sells,rfl⟩ := settle_legs execution ran
  have settles : currency_of ledger.terms key.instrument_id = T.currency := by rw [currency_of,known]; rfl
  rcases (Ledger.leg_posts sells positive).1.cash_held _ held with before | here
  · rcases (Ledger.leg_posts buys positive).1.cash_held _ before with before | here
    · exact .inl before
    · cases toLex.injective here
      exact .inr settles.symm
  · cases toLex.injective here
    exact .inr settles.symm

theorem Covered.settle {D : ListingDefinition} (covered : Covered setup ledger ownership) (valid : setup.Valid)
    (cheap : setup.Cheap) (terms : ledger.terms = setup.terms) (admitted : Admitted setup seller)
    (listed : setup.definitions.get? key = some D) (charged : sell_fee ≤ D.fees.bound * quantity) :
    Covered setup ledger' (executed ownership buy sell buyer seller quantity) := by
  obtain ⟨T,bought,sold,known,positive,_,buys,sells,rfl⟩ := settle_legs execution ran
  rw [terms] at known
  have worth := admitted.worth valid cheap (by rw [execution.sell_key]; exact listed)
    (by rw [execution.sell_key]; exact known) execution.above positive charged
  obtain ⟨first,_,pays⟩ := Ledger.leg_posts buys positive
  obtain ⟨second,_,_⟩ := Ledger.leg_posts sells positive
  intro p c own buying
  -- No order starts to buy by being executed.
  have before : Buying setup.terms ownership p c :=
    (buying.of_replace execution.sells_next execution.sell_live ⟨rfl,rfl,rfl⟩).of_replace execution.buys
      execution.buy_live ⟨rfl,rfl,rfl⟩
  have had := covered p c own before
  change (sold.cash_of p c).reserved ≤ (sold.cash_of p c).balance
  rw [second.cash_reserved,second.balance,first.cash_reserved,first.balance]
  simp only [Entry.leg,Entry.opening,OwnedOrder.party,Option.elim,execution.buy_side,execution.sell_side,
    Side.signed_buy,Side.signed_sell,if_true,reduceCtorEq,if_false,ite_self,add_zero]
  have paid : p = buyer.participant_id → c = T.currency → (ledger.cash_of p c).reserved +
      buyer.reservation.cash_per_lot * -quantity ≤ (ledger.cash_of p c).balance - price * quantity * T.multiplier - buy_fee := by
    rintro rfl rfl
    have := pays.1 execution.buy_side own
    rw [execution.buy_side] at this
    simpa [OwnedOrder.party,CashBalance.released,execution_fill] using this
  by_cases here : p = buyer.participant_id ∧ c = T.currency
  · have := paid here.1 here.2
    rw [if_pos here,if_pos here]
    simp only [execution_fill]
    split_ifs <;> omega
  · rw [if_neg here,if_neg here]
    split_ifs <;> omega

end Settled

/-- The buyer's leg is paid from what its order holds. -/
theorem Covered.funds {T : InstrumentTerms} (covered : Covered setup ledger ownership)
    (valid : setup.Valid) (admitted : Admitted setup buyer) (listed : setup.definitions.get? key = some D)
    (known : setup.terms.get? key.instrument_id = some T) (positive : 0 < quantity)
    (charged : buy_fee ≤ D.fees.bound * quantity) (pays : funded setup.participants buyer.participant_id = true) :
    (ledger.cash_of buyer.participant_id T.currency).reserved + buyer.reservation.cash_per_lot * -quantity ≤
      (ledger.cash_of buyer.participant_id T.currency).balance - price * quantity * T.multiplier - buy_fee := by
  have multiplier := valid.multiplier known
  have buying : Buying setup.terms ownership buyer.participant_id T.currency :=
    ⟨buy,buyer,execution.buys,execution.buy_live,rfl,execution.buy_side,by rw [execution.buy_key,currency_of,known]; rfl⟩
  have had := covered _ _ pays buying
  have holds := admitted.cash_per_lot (by rw [execution.buy_key]; exact listed) (by rw [execution.buy_key]; exact known)
    execution.buy_side pays
  have value : price * quantity * T.multiplier ≤ buyer.limit_price * T.multiplier * quantity :=
    calc price * quantity * T.multiplier = price * T.multiplier * quantity := by ring
      _ ≤ buyer.limit_price * T.multiplier * quantity := Int.mul_le_mul_of_nonneg_right
        (Int.mul_le_mul_of_nonneg_right execution.below multiplier.le) positive.le
  have total : buyer.reservation.cash_per_lot * -quantity =
      -(buyer.limit_price * T.multiplier * quantity) - D.fees.bound * quantity := by rw [holds]; ring
  omega

/-- An execution between live orders is refused only by overflow, where the buyer's live orders are covered. -/
theorem Accounts.settle_error {e : LedgerError} (accounts : Accounts setup ledger ownership)
    (covered : Covered setup ledger ownership) (valid : setup.Valid) (fair : Fair ownership)
    (buyer_admitted : Admitted setup buyer)
    (seller_admitted : Admitted setup seller) (listed : setup.definitions.get? key = some D)
    (positive : 0 < quantity) (price_positive : 0 < price) (charged : buy_fee ≤ D.fees.bound * quantity)
    (failed : (Ledger.settle (execution_fill setup key buyer seller price quantity buy_fee sell_fee)).run ledger =
      .error e ledger') : e = .ArithmeticOverflow := by
  obtain ⟨_,T,known⟩ := valid.listed listed
  have buy_instrument : key.instrument_id = buyer.listing_key.instrument_id := by rw [execution.buy_key]
  have sell_instrument : key.instrument_id = seller.listing_key.instrument_id := by rw [execution.sell_key]
  refine (Ledger.settle_error (by rw [accounts.terms]; exact known) positive price_positive ?_ (fun bought leg => ?_)
    failed).1
  · rintro _ ⟨⟩
    have releases := @Accounts.releases setup ledger ownership buy buyer T
      (execution_fill setup key buyer seller price quantity buy_fee sell_fee) buy_fee accounts fair execution.buys
      execution.buy_live execution.buy_left buy_instrument known
    rw [execution.buy_side] at releases
    refine ⟨releases,fun _ pays => ?_,fun sells => (by cases sells)⟩
    simpa [OwnedOrder.party,CashBalance.released,execution_fill] using
      covered.funds execution valid buyer_admitted listed known positive charged pays
  · rintro _ ⟨⟩
    rw [← execution.buy_side] at leg
    have next := accounts.leg execution.buys execution.buy_live buy_instrument known positive leg
    have releases := @Accounts.releases setup bought _ sell seller T
      (execution_fill setup key buyer seller price quantity buy_fee sell_fee) sell_fee next
      (fair.reduce execution.buys execution.buy_live execution.buy_left) execution.sells_next execution.sell_live
      execution.sell_left sell_instrument known
    rw [execution.sell_side] at releases
    refine ⟨releases,fun buys => (by cases buys),fun _ short => ?_⟩
    -- The order holds the inventory that it delivers.
    have held := (seller_admitted.inventory (by rw [execution.sell_key]; exact known)).1 execution.sell_side short
    have stock := next.stocked seller.participant_id key.instrument_id T (by rw [next.terms]; exact known) short
    simp only [OwnedOrder.party,Position.released,execution_fill,Position.opened_reserved,held,and_self,if_true]
    omega

end Settling

end Bunting
