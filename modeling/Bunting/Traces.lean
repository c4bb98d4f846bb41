import Bunting.Submission

/-!
What every move keeps, and the rule by which an invariant of single moves holds
at the end of a transition. What a move does to one order, its record and its
events together, is said once.
-/

namespace Bunting
open Stateful

/-- The run has the setup, and its live orders are admitted there. -/
structure Lawful (setup : Setup) (run : RunState) : Prop where
  same : run.setup = setup
  admitted : ∀ id owned, run.ownership.get? id = some owned → owned.state = .Active → Admitted setup owned

/-- The transition has posted none but events of a kind. -/
def PostsOnly (allowed : SimulationEvent → Prop) (t : Transition) : Prop :=
  ∀ event ∈ t.payloads.filterMap EventPayload.posting, allowed event

section Ledgers
variable {ledger ledger' : Ledger} {x : Unit}

theorem Ledger.settle_terms {fill : Fill} (ran : (Ledger.settle fill).run ledger = .ok x ledger') :
    ledger'.terms = ledger.terms := by
  obtain ⟨_,bought,sold,_,_,_,buys,sells,rfl⟩ := Ledger.settle_ok ran
  exact sells.terms.trans buys.terms

theorem Ledger.change_open_terms {participant : ParticipantId} {instrument : InstrumentId} {side : Side} {quantity : Int}
    {order : Reservation} {opening : Bool}
    (ran : (Ledger.change_open participant instrument side quantity order opening).run ledger = .ok x ledger') :
    ledger'.terms = ledger.terms := by
  obtain ⟨_,_,_,_,posts⟩ := Ledger.change_open_posts ran
  exact posts.terms

end Ledgers

namespace EventPayload

/-- The quantity of a trade, once for each side that the order holds. -/
def traded (id : OrderId) : EventPayload → Int
  | .TradeExecuted _ _ maker taker _ _ _ quantity _ _ =>
    (if maker = id then quantity else 0) + (if taker = id then quantity else 0)
  | _ => 0

def trades (id : OrderId) : EventPayload → Bool
  | .TradeExecuted _ _ maker taker .. => maker = id ∨ taker = id
  | _ => false

end EventPayload

/-- What events say has traded of an order. -/
def traded (id : OrderId) (payloads : List EventPayload) : Int := (payloads.map (EventPayload.traded id)).sum

def endings (id : OrderId) (payloads : List EventPayload) : List EventPayload :=
  payloads.filter (fun payload => payload.terminal = some id)

theorem traded_append (id : OrderId) (payloads more : List EventPayload) :
    traded id (payloads ++ more) = traded id payloads + traded id more := by
  simp [traded]

theorem endings_append (id : OrderId) (payloads more : List EventPayload) :
    endings id (payloads ++ more) = endings id payloads ++ endings id more := by
  simp [endings]

/-- An event that does not concern the order. -/
def EventPayload.Apart (id : OrderId) (payload : EventPayload) : Prop :=
  payload.trades id = false ∧ payload.terminal ≠ some id ∧ payload ≠ .OrderAccepted id

theorem EventPayload.Quiet.apart {payload : EventPayload} (quiet : payload.Quiet) (id : OrderId) : payload.Apart id := by
  cases payload with
  | OrderAccepted _ | OrderCompleted _ | OrderCanceled _ _ _ _ _ _ | TradeExecuted _ _ _ _ _ _ _ _ _ _ => exact quiet.elim
  | _ => exact ⟨rfl,by simp [EventPayload.terminal],by simp⟩

/-- What an execution reports. -/
def deal_events (key : ListingKey) (maker_id taker_id : OrderId) (maker taker : OwnedOrder)
    (price n maker_fee taker_fee : Int) (auction : Bool) : List EventPayload :=
  reported maker n maker_id ++ ((if auction then reported taker n taker_id else []) ++
    [deal_trade key maker_id taker_id maker taker price n maker_fee taker_fee])

section Deals
variable (key : ListingKey) {maker_id taker_id : OrderId} (maker taker : OwnedOrder) (price n maker_fee taker_fee : Int)
  (auction : Bool) (id : OrderId)

theorem reported_traded (owned : OwnedOrder) (j : OrderId) : traded id (reported owned n j) = 0 := by
  unfold reported
  split_ifs <;> rfl

theorem reported_endings (owned : OwnedOrder) (j : OrderId) : endings id (reported owned n j) =
    if j = id ∧ owned.remaining_quantity = n then [.OrderCompleted id] else [] := by
  unfold reported
  by_cases spent : owned.remaining_quantity = n
  · by_cases here : j = id
    · simp [spent,here,endings,EventPayload.terminal]
    · simp [spent,here,endings,EventPayload.terminal]
  · simp [spent,endings,EventPayload.terminal]

theorem reported_apart (owned : OwnedOrder) {j : OrderId} (other : id ≠ j) :
    ∀ payload ∈ reported owned n j, payload.Apart id := by
  intro payload member
  unfold reported at member
  rw [List.mem_singleton.mp member]
  split_ifs
  · exact ⟨rfl,by simpa [EventPayload.terminal] using other.symm,by simp⟩
  · exact ⟨rfl,by simp [EventPayload.terminal],by simp⟩

theorem deal_traded : traded id (deal_events key maker_id taker_id maker taker price n maker_fee taker_fee auction) =
    (if maker_id = id then n else 0) + (if taker_id = id then n else 0) := by
  obtain ⟨_,_,_,_,same⟩ := deal_trade_eq key maker_id taker_id maker taker price n maker_fee taker_fee
  unfold deal_events
  rw [same,traded_append,traded_append,reported_traded]
  cases auction
  · simp [traded,EventPayload.traded]
  · rw [if_pos rfl,reported_traded]
    simp [traded,EventPayload.traded]

theorem deal_endings : endings id (deal_events key maker_id taker_id maker taker price n maker_fee taker_fee auction) =
    (if maker_id = id ∧ maker.remaining_quantity = n then [.OrderCompleted id] else []) ++
    (if auction = true ∧ taker_id = id ∧ taker.remaining_quantity = n then [.OrderCompleted id] else []) := by
  obtain ⟨_,_,_,_,same⟩ := deal_trade_eq key maker_id taker_id maker taker price n maker_fee taker_fee
  have none (instrument : InstrumentId) (listing_key : Option ListingKey) (a b : OrderId) (buyer seller : ParticipantId)
      (p q x y : Int) : endings id [.TradeExecuted instrument listing_key a b buyer seller p q x y] = [] := rfl
  unfold deal_events
  rw [same,endings_append,endings_append,reported_endings,none,List.append_nil]
  cases auction
  · rfl
  · rw [if_pos rfl,reported_endings]
    simp only [true_and]

theorem deal_apart (made : id ≠ maker_id) (taken : id ≠ taker_id) :
    ∀ payload ∈ deal_events key maker_id taker_id maker taker price n maker_fee taker_fee auction, payload.Apart id := by
  intro payload member
  obtain ⟨_,_,_,_,same⟩ := deal_trade_eq key maker_id taker_id maker taker price n maker_fee taker_fee
  unfold deal_events at member
  rw [same] at member
  rcases List.mem_append.mp member with first | rest
  · exact reported_apart n id maker made payload first
  · rcases List.mem_append.mp rest with second | trade
    · cases auction
      · cases second
      · exact reported_apart n id taker taken payload second
    · rw [List.mem_singleton.mp trade]
      exact ⟨by simp [EventPayload.trades,made.symm,taken.symm],by simp [EventPayload.terminal],by simp⟩

theorem deal_untold : .OrderAccepted id ∉ deal_events key maker_id taker_id maker taker price n maker_fee taker_fee auction := by
  obtain ⟨_,_,_,_,same⟩ := deal_trade_eq key maker_id taker_id maker taker price n maker_fee taker_fee
  have report (owned : OwnedOrder) (j : OrderId) : .OrderAccepted id ∉ reported owned n j := by
    unfold reported
    split_ifs <;> simp
  rw [deal_events,same]
  cases auction <;> simp [report]

end Deals

/-- What a move does to the record of one order, with the events it adds: nothing, or the order is accepted, executed,
    canceled with what remains of it, or reported complete. -/
inductive Effect (now : Nat) (id : OrderId) (a b : Mode × Transition) :
    Option OwnedOrder → List EventPayload → Option OwnedOrder → Prop
  | idle {record more} (apart : ∀ payload ∈ more, payload.Apart id) : Effect now id a b record more record
  | accepted {listing order key ticket} (screened : Screened a.2.run listing order key now ticket)
      (known : a.2.run.listings.get? key = some listing) (at_key : key.instrument_id = order.instrument_id)
      (opened : a.1 = .Open) (taking : b.1 = .Taking order) (named : order.order_id = id) :
      Effect now id a b none [.OrderAccepted id] (some (order.owned key ticket))
  | filled {owned n more} (live : owned.state = .Active) (trade : traded id more = n) (untold : .OrderAccepted id ∉ more)
      (ending : endings id more = [] ∨ (endings id more = [.OrderCompleted id] ∧ owned.remaining_quantity = n)) :
      Effect now id a b (some owned) more (some (owned.reduced n))
  | canceled {owned participant instrument key reason} (live : owned.state = .Active)
      (positive : 0 < owned.remaining_quantity) : Effect now id a b (some owned)
        [.OrderCanceled id participant instrument key owned.remaining_quantity reason] (some owned.canceled)
  | completed {order owned} (spent : owned.state = .Filled) (taken : b.1.order = some order) (named : order.order_id = id) :
      Effect now id a b (some owned) [.OrderCompleted id] (some owned)

theorem Effect.insert {now : Nat} {id j : OrderId} {a b : Mode × Transition} {ownership : OrdMap OrderId OwnedOrder}
    {more : List EventPayload} {next : OwnedOrder} (apart : id ≠ j → ∀ payload ∈ more, payload.Apart id)
    (here : id = j → Effect now id a b (ownership.get? id) more (some next)) :
    Effect now id a b (ownership.get? id) more ((ownership.insert j next).get? id) := by
  rw [OrdMap.get?_insert]
  split_ifs with same
  · exact here same
  · exact .idle (apart same)

section Moves
variable {setup : Setup} {base : SimulationState} {now : Nat} {a b : Mode × Transition} {order : SubmitOrder}
  {id : OrderId}

theorem Move.effect (move : Move setup base now a b) (id : OrderId) : ∃ more, b.2.payloads = a.2.payloads ++ more ∧
    Effect now id a b (a.2.run.ownership.get? id) more (b.2.run.ownership.get? id) := by
  cases move with
  | touched _ | executed _ _ | uncrossed _ _ _ | switched _ | marked _ | closed _ _ | passed _ _ _ _ =>
    exact ⟨[],(List.append_nil _).symm,.idle (by simp)⟩
  | emitted quiet => exact ⟨_,rfl,.idle fun payload member => (quiet payload member).apart id⟩
  | simulated _ _ =>
    refine ⟨_,rfl,.idle fun payload member => ?_⟩
    obtain ⟨_,_,rfl⟩ := List.mem_map.mp member
    exact ⟨rfl,by simp [EventPayload.terminal],by simp⟩
  | called _ | announced _ | rested _ _ _ _ _ _ =>
    exact ⟨_,rfl,.idle (by simp [EventPayload.Apart,EventPayload.trades,EventPayload.terminal])⟩
  | @canceled _ t j owned _ _ _ _ _ found live _ _ _ closes =>
    refine ⟨_,rfl,.insert (fun other => ?_) fun here => ?_⟩
    · simp [EventPayload.Apart,EventPayload.trades,EventPayload.terminal,other.symm]
    · subst here
      obtain ⟨_,_,positive,_⟩ := Ledger.change_open_posts closes
      rw [show t.run.ownership.get? id = some owned from found]
      exact .canceled live positive
  | @filled _ t key maker_id taker_id maker taker price n auction ledger _ _ dealt =>
    obtain ⟨makes,takes,distinct,maker_live,taker_live,_⟩ := dealt.deals.records
    obtain ⟨_,maker_fee,taker_fee,_,_,_,_,rfl⟩ := dealt.settled
    refine ⟨deal_events key maker_id taker_id maker taker price n maker_fee taker_fee auction,?_,?_⟩
    · simp only [Transition.filled,deal_events,List.append_assoc]
    have trade := @deal_traded key maker_id taker_id maker taker price n maker_fee taker_fee auction id
    have ends := @deal_endings key maker_id taker_id maker taker price n maker_fee taker_fee auction id
    have untold := @deal_untold key maker_id taker_id maker taker price n maker_fee taker_fee auction id
    simp only [Transition.filled]
    by_cases taken : id = taker_id
    · subst taken
      rw [if_neg distinct.symm,if_pos rfl,zero_add] at trade
      rw [if_neg (fun both => distinct both.1.symm),List.nil_append] at ends
      rw [OrdMap.get?_insert_self,show t.run.ownership.get? id = some taker from takes]
      refine .filled taker_live trade untold ?_
      by_cases completes : auction = true ∧ id = id ∧ taker.remaining_quantity = n
      · exact .inr ⟨ends.trans (if_pos completes),completes.2.2⟩
      · exact .inl (ends.trans (if_neg completes))
    rw [OrdMap.get?_insert_of_ne taken]
    refine .insert (fun made => deal_apart key maker taker price n maker_fee taker_fee auction id made taken) fun made => ?_
    subst made
    rw [if_pos rfl,if_neg (Ne.symm taken),add_zero] at trade
    have alone : ¬ (auction = true ∧ taker_id = id ∧ taker.remaining_quantity = n) := fun both => taken both.2.1.symm
    rw [if_neg alone,List.append_nil] at ends
    rw [show t.run.ownership.get? id = some maker from makes]
    refine .filled maker_live trade untold ?_
    by_cases completes : id = id ∧ maker.remaining_quantity = n
    · exact .inr ⟨ends.trans (if_pos completes),completes.2⟩
    · exact .inl (ends.trans (if_neg completes))
  | @accepted t _ order key ticket _ screened known at_key _ =>
    refine ⟨_,rfl,.insert (fun other => ?_) fun here => ?_⟩
    · simp [EventPayload.Apart,EventPayload.trades,EventPayload.terminal,other.symm]
    · subst here
      rw [show t.run.ownership.get? order.order_id = none from screened.fresh]
      exact .accepted screened known at_key rfl rfl rfl
  | @completed t order owned found spent =>
    refine ⟨_,rfl,?_⟩
    by_cases here : id = order.order_id
    · subst here
      rw [show t.run.ownership.get? order.order_id = some owned from found]
      exact .completed spent rfl rfl
    · exact .idle (by simp [EventPayload.Apart,EventPayload.trades,EventPayload.terminal,Ne.symm here])
  | @dropped t order key ticket remaining _ positive found _ =>
    refine ⟨_,rfl,.insert (fun other => ?_) fun here => ?_⟩
    · simp [EventPayload.Apart,EventPayload.trades,EventPayload.terminal,other.symm]
    · subst here
      rw [show t.run.ownership.get? order.order_id = _ from found]
      exact .canceled (if_neg positive.ne') positive

theorem Move.payloads (move : Move setup base now a b) : a.2.payloads <+: b.2.payloads := by
  obtain ⟨more,events,_⟩ := move.effect 0
  exact ⟨more,events.symm⟩

theorem Moves.payloads (moves : Moves setup base now a b) : a.2.payloads <+: b.2.payloads := by
  induction moves with
  | refl => exact List.prefix_rfl
  | tail _ move ih => exact ih.trans move.payloads

theorem Move.keeps_setup (move : Move setup base now a b) : b.2.run.setup = a.2.run.setup := by
  cases move with
  | touched _ | emitted _ | called _ | completed _ _ | switched _ | closed _ _ | passed _ _ _ _ | announced _ => rfl
  | marked _ => rfl
  | simulated posted _ => exact RunState.setup_congr rfl posted.posts.terms rfl
  | canceled _ _ _ _ _ closes =>
    exact RunState.setup_congr definitions_put_book (Ledger.change_open_terms closes) rfl
  | filled _ dealt =>
    obtain ⟨_,_,_,_,_,_,settles,_⟩ := dealt.settled
    exact RunState.setup_congr rfl (Ledger.settle_terms settles) rfl
  | executed _ _ => exact RunState.setup_congr definitions_put_book rfl rfl
  | uncrossed _ _ _ => exact RunState.setup_congr definitions_put_book rfl rfl
  | accepted _ _ _ opens => exact RunState.setup_congr rfl (Ledger.change_open_terms opens) rfl
  | rested _ _ _ _ _ _ => exact RunState.setup_congr definitions_put_book rfl rfl
  | dropped _ _ closes => exact RunState.setup_congr rfl (Ledger.change_open_terms closes) rfl

/-- Orders are retired and events are numbered by the commit only. -/
theorem Move.keeps_window (move : Move setup base now a b) :
    b.2.run.retired = a.2.run.retired ∧ b.2.run.event_sequence = a.2.run.event_sequence := by
  cases move <;> exact ⟨rfl,rfl⟩

theorem Moves.keeps_window (moves : Moves setup base now a b) :
    b.2.run.retired = a.2.run.retired ∧ b.2.run.event_sequence = a.2.run.event_sequence := by
  induction moves with
  | refl => exact ⟨rfl,rfl⟩
  | tail _ move ih => exact ⟨move.keeps_window.1.trans ih.1,move.keeps_window.2.trans ih.2⟩

/-- The order taken for is taken for until it rests at its limit or is no longer live. -/
theorem Move.taking (move : Move setup base now a b) (taking : a.1 = .Taking order) :
    b.1 = .Taking order ∨ order.kind.limit ≠ none ∨
      ∀ owned, b.2.run.ownership.get? order.order_id = some owned → owned.state ≠ .Active := by
  cases move with
  | completed found spent =>
    cases taking
    refine .inr (.inr fun owned there => ?_)
    cases found.symm.trans there
    rw [spent]
    simp
  | rested _ _ limit _ _ _ =>
    cases taking
    exact .inr (.inl (by rw [limit]; simp))
  | dropped _ _ _ =>
    cases taking
    refine .inr (.inr fun owned there => ?_)
    rw [Transition.dropped,OrdMap.get?_insert_self] at there
    cases there
    simp [OwnedOrder.canceled]
  | _ => first | exact .inl taking | cases taking

theorem Move.keeps_order (move : Move setup base now a b) (accepted : a.1.order = some order) :
    b.1.order = some order := by
  cases move <;> first | exact accepted | cases accepted

theorem Move.accepts (move : Move setup base now a b) (silent : .OrderAccepted id ∉ a.2.payloads)
    (told : .OrderAccepted id ∈ b.2.payloads) :
    a.2.run.ownership.get? id = none ∧ ∃ order, b.1.order = some order ∧ order.order_id = id := by
  obtain ⟨more,events,effect⟩ := move.effect id
  rw [events] at told
  have new := (List.mem_append.mp told).resolve_left silent
  generalize a.2.run.ownership.get? id = record at effect ⊢
  generalize b.2.run.ownership.get? id = record' at effect
  cases effect with
  | idle apart => exact absurd rfl (apart _ new).2.2
  | accepted _ _ _ _ taking named => exact ⟨rfl,_,congrArg Mode.order taking,named⟩
  | filled _ _ untold _ => exact absurd new untold
  | canceled _ _ | completed _ _ _ => simp at new

theorem Moves.accepts (moves : Moves setup base now a b) (silent : .OrderAccepted id ∉ a.2.payloads)
    (told : .OrderAccepted id ∈ b.2.payloads) : ∃ order, b.1.order = some order ∧ order.order_id = id := by
  induction moves with
  | refl => exact absurd told silent
  | @tail c d _ move ih =>
    by_cases before : .OrderAccepted id ∈ c.2.payloads
    · obtain ⟨order,accepted,named⟩ := ih before
      exact ⟨order,move.keeps_order accepted,named⟩
    · exact (move.accepts before told).2

theorem Move.tells (move : Move setup base now a b)
    (told : a.1.order = some order → .OrderAccepted order.order_id ∈ a.2.payloads) (accepted : b.1.order = some order) :
    .OrderAccepted order.order_id ∈ b.2.payloads := by
  have kept := move.payloads
  cases move with
  | accepted _ _ _ _ =>
    cases accepted
    simp [Transition.accepted]
  | _ => exact kept.subset (told accepted)

theorem Moves.tells (moves : Moves setup base now a b) (opened : a.1 = .Open)
    (accepted : b.1.order = some order) : .OrderAccepted order.order_id ∈ b.2.payloads := by
  induction moves with
  | refl => rw [opened] at accepted; cases accepted
  | tail _ move ih => exact move.tells ih accepted

theorem Move.keeps_record (move : Move setup base now a b) (there : a.2.run.ownership.get? id ≠ none) :
    b.2.run.ownership.get? id ≠ none := by
  obtain ⟨_,_,effect⟩ := move.effect id
  generalize a.2.run.ownership.get? id = record at *
  generalize b.2.run.ownership.get? id = record' at *
  cases effect with
  | idle _ => exact there
  | accepted _ _ _ _ _ _ | filled _ _ _ _ | canceled _ _ | completed _ _ _ => simp

/-- An order with a record is not accepted again. -/
theorem Moves.unaccepted (moves : Moves setup base now a b) (there : a.2.run.ownership.get? id ≠ none)
    (silent : .OrderAccepted id ∉ a.2.payloads) :
    b.2.run.ownership.get? id ≠ none ∧ .OrderAccepted id ∉ b.2.payloads := by
  induction moves with
  | refl => exact ⟨there,silent⟩
  | tail _ move ih => exact ⟨move.keeps_record ih.1,fun told => ih.1 (move.accepts ih.2 told).1⟩

/-- What does not depend on the quantity left of an order holds of every live record after a move, if it holds of every live
    one before and of the order that the move accepts. -/
theorem Move.keeps_live {P : OwnedOrder → Prop} (move : Move setup base now a b)
    (holds : ∀ id owned, a.2.run.ownership.get? id = some owned → owned.state = .Active → P owned)
    (reduced : ∀ owned n, P owned → P (owned.reduced n))
    (accepted : ∀ listing order key ticket, Screened a.2.run listing order key now ticket →
      a.2.run.listings.get? key = some listing → key.instrument_id = order.instrument_id → P (order.owned key ticket)) :
    ∀ id owned, b.2.run.ownership.get? id = some owned → owned.state = .Active → P owned := by
  intro id owned found live
  obtain ⟨_,_,effect⟩ := move.effect id
  have before := holds id
  generalize a.2.run.ownership.get? id = record at before effect
  rw [found] at effect
  cases effect with
  | idle _ => exact before owned rfl live
  | accepted screened known at_key _ _ _ => exact accepted _ _ _ _ screened known at_key
  | filled active _ _ _ => exact reduced _ _ (before _ rfl active)
  | canceled _ _ => exact absurd live (by simp [OwnedOrder.canceled])
  | completed _ _ _ => exact before owned rfl live

theorem Move.lawful (move : Move setup base now a b) (valid : setup.Valid) (lawful : Lawful setup a.2.run) :
    Lawful setup b.2.run := by
  refine ⟨move.keeps_setup.trans lawful.same,?_⟩
  refine move.keeps_live lawful.admitted (fun _ _ admitted => admitted) fun _ _ _ _ screened known at_key => ?_
  rw [← lawful.same] at valid ⊢
  exact screened.owned_admitted valid known at_key

/-- What every move keeps holds after any number of them. -/
theorem Moves.keeps {allowed : SimulationEvent → Prop} {P : Transition → Prop} (moves : Moves setup base now a b)
    (valid : setup.Valid) (lawful : Lawful setup a.2.run) (posts : PostsOnly allowed b.2) (starts : P a.2)
    (step : ∀ {c d}, Move setup base now c d → Lawful setup c.2.run → PostsOnly allowed d.2 → P c.2 → P d.2) :
    Lawful setup b.2.run ∧ P b.2 := by
  induction moves with
  | refl => exact ⟨lawful,starts⟩
  | tail _ move ih =>
    have earlier : PostsOnly allowed _ := fun event member => posts event ((move.payloads.filterMap _).subset member)
    obtain ⟨lawful,holds⟩ := ih earlier
    exact ⟨move.lawful valid lawful,step move lawful posts holds⟩

end Moves

end Bunting
