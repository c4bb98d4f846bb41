import Bunting.Settlement

/-!
Every operation of the ledger as entries. An `Entry` moves the fields of one
participant's cash and position by given amounts and leaves every other account
alone (`Posts`), so an invariant of the accounts follows from the amounts.
-/

namespace Bunting
open Stateful

/-- The lots of a position, without its cost. -/
structure Lots where
  quantity : Int := 0
  reserved : Int := 0
  open_buy : Int := 0
  open_sell : Int := 0

def Position.lots (position : Position) : Lots :=
  ⟨position.quantity,position.reserved,position.open_buy,position.open_sell⟩

/-- Amounts that move on the account of one participant. -/
structure Entry where
  participant : ParticipantId
  currency : CurrencyId
  instrument : InstrumentId
  cash : CashBalance := {}
  lots : Lots := {}

def CashBalance.add (a b : CashBalance) : CashBalance := ⟨a.balance + b.balance,a.reserved + b.reserved,a.fees + b.fees⟩

def Lots.add (a b : Lots) : Lots :=
  ⟨a.quantity + b.quantity,a.reserved + b.reserved,a.open_buy + b.open_buy,a.open_sell + b.open_sell⟩

@[simp] theorem CashBalance.add_zero (a : CashBalance) : a.add {} = a := by simp [add]
@[simp] theorem Lots.add_zero (a : Lots) : a.add {} = a := by simp [add]

namespace Ledger

/-- Cash of all participants in one currency, fees included. -/
def total_cash (ledger : Ledger) (currency : CurrencyId) : Int :=
  ledger.cash.sum (fun key cash => if (ofLex key).2 = currency then cash.balance + cash.fees else 0)

/-- Lots of all participants in one instrument. -/
def total_lots (ledger : Ledger) (instrument : InstrumentId) : Int :=
  ledger.positions.sum (fun key position => if (ofLex key).2 = instrument then position.quantity else 0)

/-- The ledger moves by the entry and by nothing else. -/
structure Posts (e : Entry) (ledger ledger' : Ledger) : Prop where
  terms : ledger'.terms = ledger.terms
  marks : ledger'.marks = ledger.marks
  cash : ∀ p c, ledger'.cash_of p c =
    if p = e.participant ∧ c = e.currency then (ledger.cash_of p c).add e.cash else ledger.cash_of p c
  lots : ∀ p i, (ledger'.position_of p i).lots =
    if p = e.participant ∧ i = e.instrument then (ledger.position_of p i).lots.add e.lots
    else (ledger.position_of p i).lots
  total_cash : ∀ c, ledger'.total_cash c = ledger.total_cash c + if e.currency = c then e.cash.balance + e.cash.fees else 0
  total_lots : ∀ i, ledger'.total_lots i = ledger.total_lots i + if e.instrument = i then e.lots.quantity else 0
  cash_held : ∀ key, ledger'.cash.contains key = true → ledger.cash.contains key = true ∨
    key = toLex (e.participant,e.currency)
  position_held : ∀ key, ledger'.positions.contains key = true → ledger.positions.contains key = true ∨
    (key = toLex (e.participant,e.instrument) ∧ e.lots ≠ {})

section Fields
variable {e : Entry} {ledger ledger' : Ledger} (posts : Posts e ledger ledger') (p : ParticipantId)
include posts

private theorem Posts.lots_field (i : InstrumentId) (f : Lots → Int) (linear : ∀ a b, f (a.add b) = f a + f b) :
    f (ledger'.position_of p i).lots =
      f (ledger.position_of p i).lots + if p = e.participant ∧ i = e.instrument then f e.lots else 0 := by
  rw [posts.lots]
  split_ifs
  · exact linear _ _
  · omega

theorem Posts.quantity (i : InstrumentId) : (ledger'.position_of p i).quantity =
    (ledger.position_of p i).quantity + if p = e.participant ∧ i = e.instrument then e.lots.quantity else 0 :=
  posts.lots_field p i Lots.quantity fun _ _ => rfl
theorem Posts.reserved (i : InstrumentId) : (ledger'.position_of p i).reserved =
    (ledger.position_of p i).reserved + if p = e.participant ∧ i = e.instrument then e.lots.reserved else 0 :=
  posts.lots_field p i Lots.reserved fun _ _ => rfl
theorem Posts.open_buy (i : InstrumentId) : (ledger'.position_of p i).open_buy =
    (ledger.position_of p i).open_buy + if p = e.participant ∧ i = e.instrument then e.lots.open_buy else 0 :=
  posts.lots_field p i Lots.open_buy fun _ _ => rfl
theorem Posts.open_sell (i : InstrumentId) : (ledger'.position_of p i).open_sell =
    (ledger.position_of p i).open_sell + if p = e.participant ∧ i = e.instrument then e.lots.open_sell else 0 :=
  posts.lots_field p i Lots.open_sell fun _ _ => rfl

theorem Posts.balance (c : CurrencyId) : (ledger'.cash_of p c).balance =
    (ledger.cash_of p c).balance + if p = e.participant ∧ c = e.currency then e.cash.balance else 0 := by
  rw [posts.cash]
  split_ifs
  · rfl
  · omega
theorem Posts.cash_reserved (c : CurrencyId) : (ledger'.cash_of p c).reserved =
    (ledger.cash_of p c).reserved + if p = e.participant ∧ c = e.currency then e.cash.reserved else 0 := by
  rw [posts.cash]
  split_ifs
  · rfl
  · omega

end Fields

section Write
variable (ledger : Ledger) (participant : ParticipantId) (currency : CurrencyId) (instrument : InstrumentId)

private theorem total_cash_insert (cash : CashBalance) (c : CurrencyId) :
    ({ ledger with cash := ledger.cash.insert (toLex (participant,currency)) cash } : Ledger).total_cash c =
      ledger.total_cash c + if currency = c then
        (cash.balance + cash.fees) - ((ledger.cash_of participant currency).balance +
          (ledger.cash_of participant currency).fees) else 0 := by
  have moved := ledger.cash.sum_insert (fun key cash => if (ofLex key).2 = c then cash.balance + cash.fees else 0)
    (toLex (participant,currency)) cash
  unfold total_cash cash_of
  simp only [ofLex_toLex] at moved
  cases held : ledger.cash.get? (toLex (participant,currency)) <;> rw [held] at moved <;>
    by_cases same : currency = c <;> simp only [same,Option.elim,Option.getD,if_true,if_false] at moved ⊢ <;> omega

private theorem total_lots_insert (position : Position) (i : InstrumentId) :
    ({ ledger with positions := ledger.positions.insert (toLex (participant,instrument)) position } : Ledger).total_lots i =
      ledger.total_lots i + if instrument = i then
        position.quantity - (ledger.position_of participant instrument).quantity else 0 := by
  have moved := ledger.positions.sum_insert (fun key position => if (ofLex key).2 = i then position.quantity else 0)
    (toLex (participant,instrument)) position
  unfold total_lots position_of
  simp only [ofLex_toLex] at moved
  cases held : ledger.positions.get? (toLex (participant,instrument)) <;> rw [held] at moved <;>
    by_cases same : instrument = i <;> simp only [same,Option.elim,Option.getD,if_true,if_false] at moved ⊢ <;> omega

end Write

section Posted
variable {e : Entry} {ledger : Ledger} {position : Position}

/-- Writing the cash account of an entry that moves no lots. -/
theorem posts_cash (empty : e.lots = {}) :
    Posts e ledger { ledger with
      cash := ledger.cash.insert (toLex (e.participant,e.currency))
        ((ledger.cash_of e.participant e.currency).add e.cash) } where
  terms := rfl
  marks := rfl
  cash p c := by
    by_cases same : p = e.participant ∧ c = e.currency
    · obtain ⟨rfl,rfl⟩ := same; simp [cash_of]
    · rw [if_neg same]
      simp only [cash_of]
      rw [OrdMap.get?_insert_of_ne (fun h => same (Prod.ext_iff.mp (toLex.injective h)))]
  lots p i := by rw [empty,Lots.add_zero]; split_ifs <;> rfl
  total_cash c := by
    rw [total_cash_insert]
    simp only [CashBalance.add]
    split_ifs <;> omega
  total_lots i := by rw [empty]; simp [total_lots]
  cash_held key held := OrdMap.contains_insert.mp held
  position_held key held := .inl held

/-- Writing the position of an entry that moves no cash. -/
theorem posts_position (empty : e.cash = {}) (some_lots : e.lots ≠ {})
    (moved : position.lots = (ledger.position_of e.participant e.instrument).lots.add e.lots) :
    Posts e ledger { ledger with positions := ledger.positions.insert (toLex (e.participant,e.instrument)) position } where
  terms := rfl
  marks := rfl
  cash p c := by rw [empty,CashBalance.add_zero]; split_ifs <;> rfl
  lots p i := by
    by_cases same : p = e.participant ∧ i = e.instrument
    · obtain ⟨rfl,rfl⟩ := same; simpa [position_of] using moved
    · rw [if_neg same]
      simp only [position_of]
      rw [OrdMap.get?_insert_of_ne (fun h => same (Prod.ext_iff.mp (toLex.injective h)))]
  total_cash c := by rw [empty]; simp [total_cash]
  total_lots i := by
    have quantity : position.quantity = (ledger.position_of e.participant e.instrument).quantity + e.lots.quantity :=
      congrArg Lots.quantity moved
    rw [total_lots_insert]
    split_ifs <;> omega
  cash_held key held := .inl held
  position_held key held := (OrdMap.contains_insert.mp held).imp (fun before => before) fun here => ⟨here,some_lots⟩

theorem posts_put {cash : CashBalance} (some_lots : e.lots ≠ {})
    (paid : cash = (ledger.cash_of e.participant e.currency).add e.cash)
    (moved : position.lots = (ledger.position_of e.participant e.instrument).lots.add e.lots) :
    Posts e ledger (ledger.put e.participant e.currency e.instrument cash position) := by
  subst paid
  have first : Posts { e with lots := {} } ledger _ := posts_cash rfl
  have second : Posts { e with cash := {} } ({ ledger with
      cash := ledger.cash.insert (toLex (e.participant,e.currency))
        ((ledger.cash_of e.participant e.currency).add e.cash) }) _ := posts_position rfl some_lots moved
  exact ⟨rfl,rfl,first.cash,second.lots,first.total_cash,second.total_lots,first.cash_held,second.position_held⟩

end Posted

/-! ### The entries of the operations -/

end Ledger

/-- Opening `quantity` lots of an order; a negative quantity releases them. -/
def Entry.opening (participant : ParticipantId) (currency : CurrencyId) (instrument : InstrumentId) (side : Side)
    (order : Reservation) (quantity : Int) : Entry where
  participant := participant
  currency := currency
  instrument := instrument
  cash := { reserved := if side = .Buy then order.cash_per_lot * quantity else 0 }
  lots :=
    { reserved := if side = .Sell ∧ order.inventory = true then quantity else 0
      open_buy := if side = .Buy then quantity else 0
      open_sell := if side = .Sell then quantity else 0 }

/-- One side of a fill: its order is released, it pays or receives the value, and pays its fee. -/
def Entry.leg (terms : InstrumentTerms) (value : Int) (fill : Fill) (side : Side) (party : FillParty) : Entry :=
  let release := party.order.elim (⟨party.participant,terms.currency,fill.instrument,{},{}⟩ : Entry) (fun order =>
    .opening party.participant terms.currency fill.instrument side order (-fill.quantity))
  { release with
    cash := { release.cash with balance := -side.signed value - party.fee, fees := party.fee }
    lots := { release.lots with quantity := side.signed fill.quantity } }

namespace Ledger

section Operations
variable {participant : ParticipantId} {instrument : InstrumentId} {side : Side} {quantity : Int} {order : Reservation}
  {opening : Bool} {ledger ledger' : Ledger} {x : Unit}

theorem change_open_posts
    (ran : (change_open participant instrument side quantity order opening).run ledger = .ok x ledger') :
    ∃ terms, ledger.terms.get? instrument = some terms ∧ 0 < quantity ∧
      Admits side quantity order opening (ledger.cash_of participant terms.currency)
        (ledger.position_of participant instrument) ∧
      Posts (.opening participant terms.currency instrument side order (moved opening quantity)) ledger ledger' := by
  obtain ⟨terms,found,positive,admits,rfl⟩ := change_open_ok ran
  have some_lots : moved opening quantity ≠ 0 := by unfold moved; split_ifs <;> omega
  refine ⟨terms,found,positive,admits,posts_put ?_ ?_ ?_⟩
  · cases side <;> simp [Entry.opening,some_lots]
  · cases side <;> simp [CashBalance.opened,CashBalance.add,Entry.opening]
  · cases side <;> cases held : order.inventory <;>
      simp [Position.opened,Position.lots,Lots.add,Entry.opening,held]

theorem leg_posts {terms : InstrumentTerms} {value : Int} {fill : Fill} {party : FillParty}
    (leg : Leg terms value fill side (some party) ledger ledger') (positive : 0 < fill.quantity) :
    Posts (.leg terms value fill side party) ledger ledger' ∧
    ReleaseAdmits fill side party (ledger.cash_of party.participant terms.currency)
      (ledger.position_of party.participant fill.instrument) ∧
    Funds terms value fill side party (ledger.cash_of party.participant terms.currency)
      (ledger.position_of party.participant fill.instrument) := by
  obtain ⟨cash,position,settles,rfl⟩ := leg
  obtain ⟨releases,funds,effect⟩ := settle_leg_ok settles
  obtain ⟨balance,fees,cash_reserved,lots,reserved,buys,sells⟩ := effect
  refine ⟨?_,releases,funds⟩
  cases held : party.order with
  | none =>
    rw [held] at cash_reserved reserved buys sells
    have here : Entry.leg terms value fill side party = ⟨party.participant,terms.currency,fill.instrument,
        ⟨-side.signed value - party.fee,0,party.fee⟩,⟨side.signed fill.quantity,0,0,0⟩⟩ := by simp [Entry.leg,held]
    rw [here]
    refine posts_put ?_ ?_ ?_
    · cases side <;> simp [positive.ne']
    · cases cash; simp_all [CashBalance.add,CashBalance.released]; omega
    · simp_all [Position.lots,Lots.add,Position.released]
  | some order =>
    rw [held] at cash_reserved reserved buys sells
    have here : Entry.leg terms value fill side party = ⟨party.participant,terms.currency,fill.instrument,
        ⟨-side.signed value - party.fee,if side = .Buy then order.cash_per_lot * -fill.quantity else 0,party.fee⟩,
        ⟨side.signed fill.quantity,if side = .Sell ∧ order.inventory = true then -fill.quantity else 0,
          if side = .Buy then -fill.quantity else 0,if side = .Sell then -fill.quantity else 0⟩⟩ := by
      simp [Entry.leg,Entry.opening,held]
    rw [here]
    refine posts_put ?_ ?_ ?_
    · cases side <;> simp [positive.ne']
    · cases cash; simp_all [CashBalance.add,CashBalance.released]; omega
    · simp_all [Position.lots,Lots.add,Position.released]

theorem post_cash_posts {currency : CurrencyId} {amount : Int}
    (ran : (post_cash participant currency amount).run ledger = .ok x ledger') :
    currency ≠ 0 ∧ Posts ⟨participant,currency,0,{ balance := amount },{}⟩ ledger ledger' := by
  obtain ⟨supported,rfl⟩ := post_cash_ok ran
  refine ⟨supported,?_⟩
  have posts : Posts ⟨participant,currency,0,{ balance := amount },{}⟩ ledger _ := posts_cash rfl
  simpa [CashBalance.add] using posts

end Operations

section Convert
variable {participant : ParticipantId} {input output : Option (InstrumentId × Int)} {ledger ledger' : Ledger}

/-- What a conversion asks of the holding it takes its input from. -/
def Holds (ledger : Ledger) (participant : ParticipantId) (input : InstrumentId × Int) : Prop :=
  0 < input.2 ∧ (ledger.position_of participant input.1).reserved + input.2 ≤
    (ledger.position_of participant input.1).quantity

private theorem convert_taken_ok {taken : OrdMap (ParticipantId ×ₗ InstrumentId) Position × Int}
    (ran : ledger.convert_taken participant input = .ok taken) :
    match input with
    | none => taken.1 = ledger.positions
    | some (i,q) => ledger.Holds participant (i,q) ∧ ∃ terms, ledger.terms.get? i = some terms ∧
      Posts ⟨participant,terms.currency,i,{},{ quantity := -q }⟩ ledger { ledger with positions := taken.1 } := by
  cases input with
  | none => cases except_pure_eq_ok.mp ran; rfl
  | some given =>
    obtain ⟨i,q⟩ := given
    simp only [convert_taken,convert_input,returned,terms_of_ok] at ran
    obtain ⟨_,⟨terms,found,positive,available,free,enough,_,_,basis,_,lots,fits,rfl⟩,rfl⟩ := ran
    have := Position.available_ok free
    have := to_i64_some (overflow_eq_ok.mp fits)
    refine ⟨⟨by omega,by simp only; omega⟩,terms,found,posts_position rfl (by simp; omega) ?_⟩
    simp [Position.lots,Lots.add]
    omega

private theorem convert_given_ok {taken : OrdMap (ParticipantId ×ₗ InstrumentId) Position × Int}
    {positions : OrdMap (ParticipantId ×ₗ InstrumentId) Position}
    (ran : ledger.convert_given participant output taken = .ok positions) :
    match output with
    | none => positions = taken.1
    | some (i,q) => 0 < q ∧ ∃ terms, ledger.terms.get? i = some terms ∧
      Posts ⟨participant,terms.currency,i,{},{ quantity := q }⟩ { ledger with positions := taken.1 }
        { ledger with positions } := by
  cases output with
  | none => exact (except_pure_eq_ok.mp ran).symm
  | some given =>
    obtain ⟨i,q⟩ := given
    simp only [convert_given,returned,terms_of_ok,overflow_eq_ok] at ran
    obtain ⟨terms,found,positive,quantity,fits,_,_,rfl⟩ := ran
    refine ⟨by omega,terms,found,posts_position rfl (by simp; omega) ?_⟩
    simp [Position.lots,Lots.add,position_of,to_i64_some fits]

/-- The ledger before and after a part of a conversion, or the same ledger where there is none. -/
def Converts (participant : ParticipantId) (sign : Int) (part : Option (InstrumentId × Int)) (ledger ledger' : Ledger) :
    Prop :=
  match part with
  | none => ledger' = ledger
  | some (i,q) => 0 < q ∧ ∃ terms, ledger.terms.get? i = some terms ∧
    Posts ⟨participant,terms.currency,i,{},{ quantity := sign * q }⟩ ledger ledger'

theorem convert_posts {x : Unit} (ran : (convert participant input output).run ledger = .ok x ledger') :
    (∀ taken ∈ input, ledger.Holds participant taken) ∧
    ∃ between, Converts participant (-1) input ledger between ∧ Converts participant 1 output between ledger' := by
  simp only [convert,returned] at ran
  obtain ⟨taken,takes,positions,gives,rfl⟩ := ran
  have takes := convert_taken_ok takes
  have gives := convert_given_ok gives
  refine ⟨?_,{ ledger with positions := taken.1 },?_,?_⟩
  · rintro ⟨i,q⟩ rfl
    exact takes.1
  · unfold Converts
    cases input with
    | none => simp only at takes; rw [takes]
    | some given =>
      obtain ⟨holds,terms,known,posts⟩ := takes
      exact ⟨holds.1,terms,known,by simpa using posts⟩
  · unfold Converts
    cases output with
    | none => simp only at gives; rw [gives]
    | some given =>
      obtain ⟨positive,terms,known,posts⟩ := gives
      exact ⟨positive,terms,known,by simpa using posts⟩

private theorem convert_taken_failsOnly
    (holds : ∀ taken ∈ input, (∃ terms, ledger.terms.get? taken.1 = some terms) ∧ ledger.Holds participant taken) :
    OnlyOverflow (ledger.convert_taken participant input) := by
  cases input with
  | none => exact .pure _
  | some given =>
    obtain ⟨⟨terms,found⟩,positive,enough⟩ := holds given rfl
    have known : OnlyOverflow (ledger.terms_of given.1) := by
      rw [terms_of_ok.mpr found]
      exact .pure _
    refine .bind (.bind known fun _ _ => .bind (.refuse (by omega)) fun _ _ =>
      .bind onlyOverflow_overflow fun available free => .bind (.refuse ?_) fun _ _ => .bind ?_ fun _ _ =>
      .bind onlyOverflow_overflow fun _ _ => .bind onlyOverflow_overflow fun _ _ => .pure _) fun _ _ => .pure _
    · have := Position.available_ok free
      omega
    · exact .ite (fun _ => .map _ onlyOverflow_overflow) fun _ => .pure _

private theorem convert_given_failsOnly (taken : OrdMap (ParticipantId ×ₗ InstrumentId) Position × Int)
    (known : ∀ given ∈ output, (∃ terms, ledger.terms.get? given.1 = some terms) ∧ 0 < given.2) :
    OnlyOverflow (ledger.convert_given participant output taken) := by
  cases output with
  | none => exact .pure _
  | some given =>
    obtain ⟨⟨terms,found⟩,positive⟩ := known given rfl
    have known : OnlyOverflow (ledger.terms_of given.1) := by
      rw [terms_of_ok.mpr found]
      exact .pure _
    exact .bind known fun _ _ => .bind (.refuse (by omega)) fun _ _ => .bind onlyOverflow_overflow fun _ _ =>
      .bind onlyOverflow_overflow fun _ _ => .pure _

/-- A conversion from a holding with its input free fails only by overflow. -/
theorem convert_error {e : LedgerError}
    (holds : ∀ taken ∈ input, (∃ terms, ledger.terms.get? taken.1 = some terms) ∧ ledger.Holds participant taken)
    (known : ∀ given ∈ output, (∃ terms, ledger.terms.get? given.1 = some terms) ∧ 0 < given.2)
    (failed : (convert participant input output).run ledger = .error e ledger') : e = .ArithmeticOverflow := by
  simp only [convert,returned,raised] at failed
  obtain ⟨stuck,_⟩ | ⟨taken,_,stuck,_⟩ := failed
  · exact convert_taken_failsOnly holds _ stuck
  · exact convert_given_failsOnly taken known _ stuck

end Convert

end Ledger

/-! ### What open orders hold -/

/-- One of the four amounts that open orders hold of an account. -/
inductive Counter
  | OpenBuy (participant : ParticipantId) (instrument : InstrumentId)
  | OpenSell (participant : ParticipantId) (instrument : InstrumentId)
  | Inventory (participant : ParticipantId) (instrument : InstrumentId)
  | Cash (participant : ParticipantId) (currency : CurrencyId)

namespace Counter

def read (ledger : Ledger) : Counter → Int
  | .OpenBuy p i => (ledger.position_of p i).open_buy
  | .OpenSell p i => (ledger.position_of p i).open_sell
  | .Inventory p i => (ledger.position_of p i).reserved
  | .Cash p c => (ledger.cash_of p c).reserved

/-- What an entry adds to it. -/
def change (e : Entry) : Counter → Int
  | .OpenBuy p i => if p = e.participant ∧ i = e.instrument then e.lots.open_buy else 0
  | .OpenSell p i => if p = e.participant ∧ i = e.instrument then e.lots.open_sell else 0
  | .Inventory p i => if p = e.participant ∧ i = e.instrument then e.lots.reserved else 0
  | .Cash p c => if p = e.participant ∧ c = e.currency then e.cash.reserved else 0

theorem read_of_posts {e : Entry} {ledger ledger' : Ledger} (posts : Ledger.Posts e ledger ledger') (k : Counter) :
    k.read ledger' = k.read ledger + k.change e := by
  cases k with
  | OpenBuy p i => exact posts.open_buy p i
  | OpenSell p i => exact posts.open_sell p i
  | Inventory p i => exact posts.reserved p i
  | Cash p c => exact posts.cash_reserved p c

variable (participant : ParticipantId) (currency : CurrencyId) (instrument : InstrumentId) (side : Side)
  (order : Reservation)

theorem change_opening_add (a b : Int) (k : Counter) :
    k.change (.opening participant currency instrument side order (a + b)) =
      k.change (.opening participant currency instrument side order a) +
      k.change (.opening participant currency instrument side order b) := by
  cases k <;> cases side <;> simp only [change,Entry.opening] <;> split_ifs <;> first | omega | ring

@[simp] theorem change_opening_zero (k : Counter) :
    k.change (.opening participant currency instrument side order 0) = 0 := by
  cases k <;> cases side <;> simp [change,Entry.opening]

theorem change_opening_neg (a : Int) (k : Counter) :
    k.change (.opening participant currency instrument side order (-a)) =
      -k.change (.opening participant currency instrument side order a) := by
  have := change_opening_add participant currency instrument side order a (-a) k
  rw [add_neg_cancel,change_opening_zero] at this
  omega

/-- A leg moves the counters only by what it releases of its order. -/
theorem change_leg (terms : InstrumentTerms) (value : Int) (fill : Fill) (party : FillParty) (k : Counter) :
    k.change (.leg terms value fill side party) =
      party.order.elim 0 (fun order =>
        k.change (.opening party.participant terms.currency fill.instrument side order (-fill.quantity))) := by
  cases held : party.order <;> cases k <;> simp [Entry.leg,change,held,Entry.opening]

end Counter

end Bunting
