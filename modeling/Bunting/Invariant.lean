import Bunting.Moves

/-!
What every transition keeps. A `Frame` names what a piece of a transition leaves
alone, where it started, and what its caller vouches for. `Core` is the
invariant within a transition, over a view of the books and with at most one
order in flight; `Inv` is the invariant between its pieces. `Frame.Allows` names
the failures that are left.
-/

namespace Bunting
open Stateful

/-- Every held currency converts into the reporting currency. -/
structure Valued (setup : Setup) (ledger : Ledger) : Prop where
  rates : ∀ rate ∈ setup.fx_rates, ∃ mark, ledger.marks.get? rate.instrument_id = some mark
  cash : ∀ p c, setup.participants.contains p = true → ledger.cash.contains (toLex (p,c)) = true → setup.Converts c

structure Frame where
  setup : Setup
  simulation : SimulationState
  steps : OrdMap VenueId Nat
  cash : CurrencyId → Int
  lots : InstrumentId → Int
  posting : List SimulationEvent
  sessions : List SessionEvent
  /-- The scheduled work, the time of the input and the transition the moves are counted from. -/
  base : SimulationState
  now : Nat
  start : Transition
  mode : Mode
  /-- The caller vouches for the cash of the live orders. -/
  covered : Prop
  /-- The caller vouches for the rates of the held currencies. -/
  valued : Prop
  valid : setup.Valid
  cheap : covered → setup.Cheap

theorem Frame.vacuous (F : Frame) : False → F.setup.Cheap := False.elim

/-- The failures of a transition that do not come from its own order. -/
def Frame.Allows (F : Frame) (fault : Fault) (_ : Transition) : Prop :=
  fault.cause ≠ .Resting ∧ (fault.cause = .Other → ¬ F.valued) ∧ ∀ e, fault.cause = .Settlement e → ¬ F.covered

theorem Frame.allows_overflow (F : Frame) {fault : Fault} {t : Transition} (large : fault.cause = .Overflow) :
    F.Allows fault t := by
  refine ⟨?_,fun other => ?_,fun e settling => ?_⟩
  · rw [large]; simp
  · rw [large] at other; cases other
  · rw [large] at settling; cases settling

/-- The ledger of a frame. -/
structure Balanced (F : Frame) (ledger : Ledger) (ownership : OrdMap OrderId OwnedOrder) : Prop where
  accounts : Accounts F.setup ledger ownership
  cash : ∀ c, ledger.total_cash c = F.cash c
  lots : ∀ i, ledger.total_lots i = F.lots i
  marks : ∀ {i mark}, ledger.marks.get? i = some mark → 0 < mark
  covered : F.covered → Covered F.setup ledger ownership
  valued : F.valued → Valued F.setup ledger

/-- What a transition has emitted: aligned trades, and the postings and session events of its frame. -/
structure Emitted (posting : List SimulationEvent) (sessions : List SessionEvent) (payloads : List EventPayload) : Prop where
  aligned : ∀ payload ∈ payloads, payload.Aligned
  posting : payloads.filterMap EventPayload.posting = posting
  sessions : payloads.filterMap EventPayload.session_event = sessions

section Emitted
variable {posting : List SimulationEvent} {sessions : List SessionEvent} {payloads more : List EventPayload}

theorem Emitted.append (emitted : Emitted posting sessions payloads) (routine : ∀ payload ∈ more, payload.Routine) :
    Emitted posting sessions (payloads ++ more) where
  aligned payload member := (List.mem_append.mp member).elim (emitted.aligned payload) fun new => (routine payload new).1
  posting := by
    rw [List.filterMap_append,List.filterMap_eq_nil_iff.mpr fun payload new => (routine payload new).2.1,List.append_nil]
    exact emitted.posting
  sessions := by
    rw [List.filterMap_append,List.filterMap_eq_nil_iff.mpr fun payload new => (routine payload new).2.2,List.append_nil]
    exact emitted.sessions

theorem Emitted.session {event : SimulationEvent} {label : SessionEvent} (emitted : Emitted posting sessions payloads)
    (tells : event.session_event = some label) :
    Emitted posting (sessions ++ [label]) (payloads ++ [.Simulation event]) where
  aligned payload member := (List.mem_append.mp member).elim (emitted.aligned payload) fun new => by
    rw [List.mem_singleton.mp new]; trivial
  posting := by
    have silent : (EventPayload.Simulation event).posting = none := by cases event <;> first | rfl | cases tells
    rw [List.filterMap_append,emitted.posting,List.filterMap_cons_none silent,List.filterMap_nil,List.append_nil]
  sessions := by
    have named : (EventPayload.Simulation event).session_event = some label := tells
    rw [List.filterMap_append,emitted.sessions,List.filterMap_cons_some named,List.filterMap_nil]

end Emitted

structure Core (F : Frame) (views : Views) (flight : Option OrderId) (t : Transition) : Prop where
  setup : t.run.setup = F.setup
  simulation : t.run.simulation = F.simulation
  steps : t.run.session_steps = F.steps
  books : ∀ key, (t.run.book key).Sound
  records : Records F.setup views flight (t.payloads.filterMap EventPayload.terminal) t.run.ownership t.run.expiries
    t.run.retired t.run.live_orders
  balanced : Balanced F t.run.ledger t.run.ownership
  trades : ∀ {key price}, t.run.day_trades.get? key = some price → 0 < price
  closes : ∀ {key price}, t.run.closes.get? key = some price → 0 < price
  emitted : Emitted F.posting F.sessions t.payloads
  moves : Moves F.setup F.base F.now (.Open,F.start) (F.mode,t)

def RunState.views (run : RunState) : Views := fun key => (run.book key).view

/-- The invariant between the pieces of a transition. -/
def Inv (F : Frame) (t : Transition) : Prop := Core F t.run.views none t

/-- The frame with its moves counted from a transition on. -/
def Frame.rebase (F : Frame) (t : Transition) : Frame := { F with start := t, mode := .Open }

theorem Inv.rebase {F : Frame} {t : Transition} (inv : Inv F t) : Inv (F.rebase t) t :=
  { inv with balanced := { inv.balanced with }, moves := .refl }

section Listings
variable {run : RunState} {key : ListingKey} {listing : ListingState} {book : Book}

theorem RunState.set_book_eq (run : RunState) (key : ListingKey) (book : Book) :
    run.set_book key book = { run with listings := put_book run.listings key book } := by
  unfold RunState.set_book put_book
  cases run.listings.get? key <;> rfl

theorem book_put_book (known : run.listings.get? key = some listing) (j : ListingKey) :
    (((put_book run.listings key book).get? j).map ListingState.book).getD {} = if j = key then book else run.book j := by
  unfold put_book
  rw [known]
  simp only [OrdMap.get?_insert]
  split_ifs
  · rfl
  · rfl

theorem views_put_book (known : run.listings.get? key = some listing) :
    (fun j => ((((put_book run.listings key book).get? j).map ListingState.book).getD {}).view) =
      Function.update run.views key book.view := by
  funext j
  rw [book_put_book known]
  by_cases here : j = key
  · subst here; simp
  · rw [if_neg here,Function.update_of_ne here]; rfl

theorem definitions_put_book {listings : OrdMap ListingKey ListingState} {key : ListingKey} {book : Book} :
    (put_book listings key book).mapValues (fun _ listing => listing.definition) =
      listings.mapValues (fun _ listing => listing.definition) := by
  refine OrdMap.ext_get? fun j => ?_
  unfold put_book
  cases known : listings.get? key with
  | none => rfl
  | some listing =>
    simp only [OrdMap.get?_mapValues,OrdMap.get?_insert]
    split_ifs with here
    · rw [here,known]; rfl
    · rfl

theorem RunState.book_of_listing (known : run.listings.get? key = some listing) : run.book key = listing.book := by
  rw [RunState.book,known]; rfl

theorem RunState.definition_of_listing (known : run.listings.get? key = some listing) :
    run.setup.definitions.get? key = some listing.definition := by
  rw [RunState.setup,OrdMap.get?_mapValues,known]
  rfl

theorem RunState.listing_of_definition {D : ListingDefinition} (listed : run.setup.definitions.get? key = some D) :
    ∃ listing, run.listings.get? key = some listing ∧ listing.definition = D := by
  rw [RunState.setup,OrdMap.get?_mapValues] at listed
  obtain ⟨listing,known,same⟩ := Option.map_eq_some_iff.mp listed
  exact ⟨listing,known,same⟩

end Listings

section Ledgers
variable {F : Frame} {ledger ledger' : Ledger} {ownership ownership' : OrdMap OrderId OwnedOrder} {e : Entry}

/-- An entry that moves neither cash nor lots between the accounts. -/
theorem Balanced.post (balanced : Balanced F ledger ownership) (posts : Ledger.Posts e ledger ledger')
    (accounts : Accounts F.setup ledger' ownership') (cash : e.cash.balance + e.cash.fees = 0)
    (lots : e.lots.quantity = 0) (converts : F.setup.Converts e.currency)
    (covered : F.covered → Covered F.setup ledger' ownership') : Balanced F ledger' ownership' where
  accounts := accounts
  cash c := by rw [posts.total_cash,cash,ite_self,add_zero]; exact balanced.cash c
  lots i := by rw [posts.total_lots,lots,ite_self,add_zero]; exact balanced.lots i
  marks found := by rw [posts.marks] at found; exact balanced.marks found
  covered := covered
  valued vouched := by
    obtain ⟨rates,held⟩ := balanced.valued vouched
    refine ⟨by rw [posts.marks]; exact rates,fun p c enrolled has => ?_⟩
    rcases posts.cash_held _ has with before | here
    · exact held p c enrolled before
    · cases toLex.injective here
      exact converts

variable {owned : OwnedOrder} {id : OrderId} {x : Unit}

section
variable (balanced : Balanced F ledger ownership)
include balanced

theorem Balanced.open_order (absent : ownership.get? id = none)
    (live : owned.state = .Active) (admitted : Admitted F.setup owned)
    (ran : (Ledger.open_order owned.participant_id owned.listing_key.instrument_id owned.side owned.remaining_quantity
      owned.reservation).run ledger = .ok x ledger') : Balanced F ledger' (ownership.insert id owned) := by
  have accounts := balanced.accounts.open_order absent live admitted ran
  obtain ⟨T,known,_,admits,posts⟩ := Ledger.change_open_posts ran
  rw [balanced.accounts.terms] at known
  refine balanced.post posts accounts rfl rfl (F.valid.converts known) fun vouched p c pays buying => ?_
  rw [posts.cash_reserved,posts.balance]
  simp only [Entry.opening,Ledger.moved,if_true,ite_self,add_zero]
  -- The new order holds no more than there is.
  have enough (buys : owned.side = .Buy) : (ledger.cash_of owned.participant_id T.currency).reserved +
      owned.reservation.cash_per_lot * owned.remaining_quantity ≤
        (ledger.cash_of owned.participant_id T.currency).balance := by
    obtain ⟨_,_,cash,_⟩ := admits
    simpa [buys,Ledger.moved] using (cash buys).2 rfl
  by_cases account : (p = owned.participant_id ∧ c = T.currency) ∧ owned.side = .Buy
  · obtain ⟨⟨rfl,rfl⟩,buys⟩ := account
    rw [if_pos ⟨rfl,rfl⟩,if_pos buys]
    exact enough buys
  · have free : (if p = owned.participant_id ∧ c = T.currency then
        (if owned.side = .Buy then owned.reservation.cash_per_lot * owned.remaining_quantity else 0) else 0) = 0 := by
      split_ifs with here buys
      · exact absurd ⟨here,buys⟩ account
      · rfl
      · rfl
    rw [free,add_zero]
    refine balanced.covered vouched p c pays ?_
    obtain ⟨j,other,there,active,owner,buys,settles⟩ := buying
    rw [OrdMap.get?_insert] at there
    split_ifs at there with here
    · cases there
      rw [currency_of,known] at settles
      exact absurd ⟨⟨owner.symm,settles.symm⟩,buys⟩ account
    · exact ⟨j,other,there,active,owner,buys,settles⟩

theorem Balanced.close_order (found : ownership.get? id = some owned)
    (live : owned.state = .Active) (fair : F.covered → 0 ≤ owned.reservation.cash_per_lot)
    (ran : (Ledger.close_order owned.participant_id owned.listing_key.instrument_id owned.side owned.remaining_quantity
      owned.reservation).run ledger = .ok x ledger') : Balanced F ledger' (ownership.insert id owned.canceled) := by
  have accounts := balanced.accounts.close_order found live ran
  obtain ⟨T,known,positive,_,posts⟩ := Ledger.change_open_posts ran
  rw [balanced.accounts.terms] at known
  refine balanced.post posts accounts rfl rfl (F.valid.converts known) fun vouched p c pays buying => ?_
  have had := balanced.covered vouched p c pays (buying.of_replace found live ⟨rfl,rfl,rfl⟩)
  have released := mul_nonneg (fair vouched) positive.le
  rw [posts.cash_reserved,posts.balance]
  simp only [Entry.opening,Ledger.moved,Bool.false_eq_true,if_false,mul_neg]
  split_ifs <;> omega

theorem Balanced.mark (instrument : InstrumentId) {mark : Int}
    (positive : 0 < mark) : Balanced F { ledger with marks := ledger.marks.insert instrument mark } ownership := by
  refine { balanced with
    accounts := balanced.accounts.mark _
    marks := fun found => OrdMap.of_insert found positive fun _ _ => balanced.marks
    valued := fun vouched => ⟨fun rate member => ?_,(balanced.valued vouched).cash⟩ }
  rw [OrdMap.get?_insert]
  split_ifs
  · exact ⟨mark,rfl⟩
  · exact (balanced.valued vouched).rates rate member

theorem Balanced.prune {dropped : List OrderId}
    (ended : ∀ id ∈ dropped, ∀ owned, ownership.get? id = some owned → owned.state ≠ .Active) :
    Balanced F ledger (dropped.foldl OrdMap.erase ownership) := by
  refine { balanced with
    accounts := { balanced.accounts with reserved := fun counter => ?_ }
    covered := fun vouched p c pays buying => balanced.covered vouched p c pays ?_ }
  · exact (balanced.accounts.reserved counter).trans
      (OrdMap.sum_foldl_erase fun id member owned found => if_neg (ended id member owned found)).symm
  · obtain ⟨j,other,there,rest⟩ := buying
    rw [OrdMap.get?_foldl_erase] at there
    split_ifs at there
    exact ⟨j,other,there,rest⟩

end

section Fills
variable {key : ListingKey} {buy sell : OrderId} {buyer seller : OwnedOrder} {price quantity buy_fee sell_fee : Int}
  {D : ListingDefinition}

theorem Balanced.fill (balanced : Balanced F ledger ownership)
    (execution : Execution ownership key buy sell buyer seller price quantity) (admitted : Admitted F.setup seller)
    (listed : F.setup.definitions.get? key = some D) (charged : sell_fee ≤ D.fees.bound * quantity)
    (ran : (Ledger.settle (execution_fill F.setup key buyer seller price quantity buy_fee sell_fee)).run ledger =
      .ok x ledger') :
    Balanced F ledger' (executed ownership buy sell buyer seller quantity) ∧ 0 < price ∧ 0 < quantity := by
  obtain ⟨cash,lots,marks,price_positive,positive⟩ := settle_conserves execution ran
  refine ⟨⟨balanced.accounts.settle execution ran,fun c => by rw [cash]; exact balanced.cash c,
    fun i => by rw [lots]; exact balanced.lots i,fun {i value} found => ?_,fun vouched => ?_,fun vouched => ⟨?_,?_⟩⟩,
    price_positive,positive⟩
  · rw [marks] at found
    exact OrdMap.of_insert found price_positive fun _ _ => balanced.marks
  · exact (balanced.covered vouched).settle execution ran F.valid (F.cheap vouched) balanced.accounts.terms admitted listed charged
  · intro rate member
    rw [marks,OrdMap.get?_insert]
    split_ifs
    · exact ⟨price,rfl⟩
    · exact (balanced.valued vouched).rates rate member
  · intro p c enrolled held
    rcases settle_holds execution ran held with before | here
    · exact (balanced.valued vouched).cash p c enrolled before
    · obtain ⟨_,T,known⟩ := F.valid.listed listed
      rw [here,currency_of,balanced.accounts.terms,known]
      exact F.valid.converts known

end Fills

end Ledgers

/-- A run whose listings keep their definitions and whose ledger keeps its terms has the same setup. -/
theorem RunState.setup_congr {run run' : RunState} (definitions : run'.setup.definitions = run.setup.definitions)
    (terms : run'.setup.terms = run.setup.terms)
    (rest : run'.setup = { run.setup with definitions := run'.setup.definitions, terms := run'.setup.terms }) :
    run'.setup = run.setup := by
  rw [rest,definitions,terms]

theorem RunState.setup_of {F : Frame} {run run' : RunState} {ownership : OrdMap OrderId OwnedOrder}
    (setup : run.setup = F.setup) (definitions : run'.setup.definitions = run.setup.definitions)
    (balanced : Balanced F run'.ledger ownership)
    (rest : run'.setup = { run.setup with definitions := run'.setup.definitions, terms := run'.setup.terms }) :
    run'.setup = F.setup := by
  rw [← setup]
  refine RunState.setup_congr definitions ?_ rest
  rw [setup]
  exact balanced.accounts.terms

section Events
variable {F : Frame} {views : Views} {flight : Option OrderId} {t : Transition} {payloads : List EventPayload}

theorem terminal_append (plain : ∀ payload ∈ payloads, payload.terminal = none) (before : List EventPayload) :
    (before ++ payloads).filterMap EventPayload.terminal = before.filterMap EventPayload.terminal := by
  rw [List.filterMap_append,List.filterMap_eq_nil_iff.mpr plain,List.append_nil]

/-- Events that neither post nor say that an order was accepted, traded or ended. -/
theorem Core.emit (core : Core F views flight t) (quiet : ∀ payload ∈ payloads, payload.Quiet) :
    Core F views flight { t with payloads := t.payloads ++ payloads } :=
  { core with
    records := by rw [terminal_append fun payload member => (quiet payload member).terminal]; exact core.records
    emitted := core.emitted.append fun payload member => (quiet payload member).routine
    moves := core.moves.tail (.emitted quiet) }

theorem emit_meets {payload : EventPayload} {E : Fault → Transition → Prop} (quiet : payload.Quiet) :
    Meets (Inv F) (emit [payload]) (fun _ => Inv F) E :=
  fun _ inv => Core.emit inv fun _ member => List.mem_singleton.mp member ▸ quiet

end Events

end Bunting
