import Bunting.CatchUp

/-!
Submitting an order. The checks admit it on terms the records keep (`Screened`);
it takes off when it is accepted, is in flight while it matches, and then lands
in its book, is complete, or is canceled.
-/

namespace Bunting
open Stateful

/-! ### What the checks say -/

theorem OrderKind.terms_limit (kind : OrderKind) : kind.terms.1 = kind.limit := by cases kind <;> rfl

variable {price : Int}

section Screen
variable {run : RunState} {listing : ListingState} {order : SubmitOrder} {key : ListingKey} {now : Nat} {ticket : Ticket}

theorem screen_ok (ran : screen run listing order key now = .ok ticket) : Screened run listing order key now ticket := by
  simp only [screen,returned] at ran
  obtain ⟨_,absent,room,positive,participant,enrolled,_,lasts,shape,call,phase,collects,_,_,admission,admits,_,rfl⟩ := ran
  have fresh : run.ownership.get? order.order_id = none := by
    cases there : run.ownership.get? order.order_id with
    | none => rfl
    | some _ => exact absurd (by rw [OrdMap.contains,there]; rfl) absent
  have peaks (peak : Int) (member : peak ∈ order.kind.terms.2.2.2) : 0 < peak ∧ peak ≤ order.quantity := by
    rw [Option.mem_def.mp member] at shape
    simp only [Option.any_some,decide_eq_true_eq,not_or] at shape
    omega
  refine ⟨fresh,by omega,by omega,order.kind.terms_limit,lasts,peaks,fun fok => ?_,fun called => ?_,phase,participant,
    enrolled,admits⟩
  · simp only at fok ⊢
    rw [fok]
    rfl
  · simp only at called ⊢
    subst called
    simpa using collects

variable (screened : Screened run listing order key now ticket)
include screened

theorem Screened.priced (bounds : listing.definition.price_bounds.min ≤ listing.definition.price_bounds.max) :
    listing.definition.price_bounds.min ≤ ticket.admission.reservation_price ∧
    ticket.admission.reservation_price ≤ listing.definition.price_bounds.max ∧
    ticket.admission.reservation_price = ticket.limit.getD (listing.definition.market_bound order.side) := by
  obtain ⟨participant,_,admits⟩ := screened.admitted
  obtain ⟨_,terms,_,priced,_⟩ := admit_ok admits
  rw [screened.limit] at priced ⊢
  rcases admit_price_ok priced with ⟨limit,lowest,highest⟩ | ⟨market,bound⟩
  · rw [limit]
    exact ⟨lowest,highest,rfl⟩
  · rw [if_pos market,Option.some.injEq] at bound
    rw [market,← bound]
    refine ⟨?_,?_,rfl⟩ <;> cases order.side <;> simp only [ListingDefinition.market_bound] <;> omega

/-- The reservation of an admitted order is the one its record calls for. -/
theorem Screened.reserves {T : InstrumentTerms} (terms : run.ledger.terms.get? order.instrument_id = some T) :
    ticket.admission.reservation = run.setup.reservation listing.definition T (order.owned key ticket) := by
  obtain ⟨participant,enrolled,admits⟩ := screened.admitted
  obtain ⟨_,T',terms',_,backed⟩ := admit_ok admits
  cases terms.symm.trans terms'
  have fees : max listing.definition.terms.fee_bound 0 = listing.definition.fees.bound :=
    max_eq_left listing.definition.fees.bound_nonneg
  have pays : funded run.setup.participants order.participant_id = participant.limits.cash_constrained := by
    unfold funded RunState.setup
    rw [enrolled]
    rfl
  unfold Backed at backed
  unfold Setup.reservation SubmitOrder.owned
  cases side : order.side with
  | Buy =>
    simp only [side] at backed ⊢
    rw [pays]
    split_ifs at backed ⊢
    · rw [backed.1,lot_cost,fees]
    · exact backed
  | Sell =>
    simp only [side] at backed ⊢
    split_ifs at backed ⊢
    · exact backed
    · exact backed.1

theorem Screened.owned_admitted (valid : run.setup.Valid)
    (known : run.listings.get? key = some listing) (at_key : key.instrument_id = order.instrument_id) :
    Admitted run.setup (order.owned key ticket) := by
  have listed := RunState.definition_of_listing known
  obtain ⟨_,T,terms⟩ := valid.listed listed
  obtain ⟨lowest,highest,_⟩ := screened.priced (valid.bounds listed)
  exact ⟨listing.definition,T,listed,terms,lowest,highest,screened.reserves (by rw [← at_key]; exact terms)⟩

/-- An admitted order sweeps its listing within its limit price. -/
theorem Screened.aggressor {F : Frame} (setup : run.setup = F.setup)
    (known : run.listings.get? key = some listing) (at_key : key.instrument_id = order.instrument_id) :
    Aggressor F key ticket.limit (order.owned key ticket) := by
  have valid := F.valid
  rw [← setup] at valid
  refine ⟨rfl,by rw [← setup]; exact screened.owned_admitted valid known at_key,fun D other => ?_⟩
  rw [← setup] at other
  cases (RunState.definition_of_listing known).symm.trans other
  exact (screened.priced (valid.bounds other)).2.2

theorem Screened.on_grid (limit : ticket.limit = some price)
    (grid : 1 ≤ listing.definition.tick_size) : listing.definition.tick_size ∣ price := by
  obtain ⟨participant,_,admits⟩ := screened.admitted
  obtain ⟨_,terms,_,priced,_⟩ := admit_ok admits
  rw [screened.limit] at limit
  have ticks := admit_price_tick priced limit grid
  rcases admit_price_ok priced with ⟨same,_⟩ | ⟨market,_⟩
  · cases limit.symm.trans same
    exact ticks
  · cases limit.symm.trans market

end Screen

/-! ### Taking off -/

/-- The order is in flight with some quantity left. -/
structure Flying (F : Frame) (order : SubmitOrder) (key : ListingKey) (ticket : Ticket) (left : Int) (t : Transition) :
    Prop where
  core : Core F t.run.views (some order.order_id) t
  taking : F.mode = .Taking order
  takes : t.run.ownership.get? order.order_id = some ((order.owned key ticket).left left)
  limit : ticket.limit = order.kind.limit
  nonneg : 0 ≤ left
  aggressor : Aggressor F key ticket.limit (order.owned key ticket)
  ticks : ∀ {price D}, ticket.limit = some price → F.setup.definitions.get? key = some D → D.tick_size ∣ price
  listed : ∃ listing, t.run.listings.get? key = some listing
  phase : (t.run.session_phase key.venue_id).collects = .ok ticket.call

/-- No failure is that of a settlement where the live orders are vouched for. -/
def Unsettled (covered : Prop) (fault : Fault) (_ : Transition) : Prop :=
  ∀ e, fault.cause = .Settlement e → ¬ covered

theorem Fault.accounting_cause (e d : LedgerError) : (Fault.accounting e).cause ≠ .Settlement d := by
  unfold Fault.accounting; split_ifs <;> simp

section Flight
variable {F : Frame} {order : SubmitOrder} {key : ListingKey} {ticket : Ticket} {t t' : Transition} {x : Unit}
  {flight : Option OrderId} {fault : Fault}

/-- The phases depend on the calendar and the steps only. -/
theorem session_phase_congr {run run' : RunState} (calendar : run'.calendar = run.calendar)
    (steps : run'.session_steps = run.session_steps) (venue : VenueId) :
    run'.session_phase venue = run.session_phase venue := by
  unfold RunState.session_phase
  rw [calendar,steps]

theorem Core.session_phase {views views' : Views} {flight' : Option OrderId} {u : Transition}
    (core : Core F views flight t) (later : Core F views' flight' u) (venue : VenueId) :
    u.run.session_phase venue = t.run.session_phase venue := by
  refine session_phase_congr ?_ (later.steps.trans core.steps.symm) venue
  have before : t.run.setup.calendar = F.setup.calendar := by rw [core.setup]
  have after : u.run.setup.calendar = F.setup.calendar := by rw [later.setup]
  exact after.trans before.symm

theorem accept_run (ran : (accept order key ticket).run t = .ok x t') :
    ∃ ledger, (Ledger.open_order order.participant_id order.instrument_id order.side order.quantity
        ticket.admission.reservation).run t.run.ledger = .ok () ledger ∧
      t' = t.accepted order key ticket ledger
        (t.run.live_orders.insert order.participant_id ((t.run.live_orders.get? order.participant_id).getD 0 + 1)) := by
  simp only [accept,posting,modify_run,emit,returned] at ran
  obtain ⟨_,⟨ledger,opens,rfl⟩,count,fits,rfl⟩ := ran
  cases to_u32_some fits
  exact ⟨ledger,opens,rfl⟩

theorem accept_error (failed : (accept order key ticket).run t = .error fault t') (covered : Prop) :
    Unsettled covered fault t' := by
  intro d settling
  simp only [accept,posting,modify_run,emit,returned,raised] at failed
  obtain ⟨e,_,_,rfl,_⟩ | ⟨_,_,_,rfl,_⟩ := failed
  · exact absurd settling (Fault.accounting_cause e d)
  · cases settling

theorem OwnedOrder.left_self (positive : 0 < order.quantity) (key : ListingKey) (ticket : Ticket) :
    (order.owned key ticket).left order.quantity = order.owned key ticket := by
  unfold OwnedOrder.left
  rw [if_neg (by omega)]
  rfl

theorem accept_meets {listing : ListingState} (opened : F.mode = .Open) (inv : Inv F t)
    (screened : Screened t.run listing order key F.now ticket) (known : t.run.listings.get? key = some listing)
    (at_key : key.instrument_id = order.instrument_id) :
    Meets (fun u => t = u) (accept order key ticket)
      (fun _ => Flying (F.shift (.Taking order)) order key ticket order.quantity) (Unsettled F.covered) := by
  rintro _ rfl
  cases ran : (accept order key ticket).run t with
  | error fault u => exact accept_error ran _
  | ok x u =>
    obtain ⟨ledger,opens,rfl⟩ := accept_run ran
    have aggressor := screened.aggressor inv.setup known at_key
    have reserves : (Ledger.open_order (order.owned key ticket).participant_id
        (order.owned key ticket).listing_key.instrument_id (order.owned key ticket).side
        (order.owned key ticket).remaining_quantity (order.owned key ticket).reservation).run t.run.ledger =
        .ok () ledger := by
      simp only [SubmitOrder.owned,at_key]
      exact opens
    have balanced := (inv.balanced.open_order screened.fresh rfl aggressor.admitted reserves).shift (.Taking order)
    have live : (order.owned key ticket).state = .Active := rfl
    have records := inv.records.take_off screened.fresh live rfl screened.positive aggressor.admitted screened.room
    have ends : (t.payloads ++ [EventPayload.OrderAccepted order.order_id]).filterMap EventPayload.terminal =
        t.payloads.filterMap EventPayload.terminal := terminal_append (by simp [EventPayload.terminal]) _
    have listed := RunState.definition_of_listing known
    rw [inv.setup] at listed
    refine ⟨⟨RunState.setup_of inv.setup rfl balanced rfl,inv.simulation,inv.steps,inv.books,?_,
      balanced,inv.trades,inv.closes,inv.emitted.append fun payload member => ?_,?_⟩,rfl,?_,screened.limit,screened.positive.le,
      ⟨aggressor.listing_key,aggressor.admitted,aggressor.limited⟩,fun limit defined => ?_,⟨listing,known⟩,screened.phase⟩
    · simp only [Transition.accepted]
      rw [ends]
      exact records
    · rw [List.mem_singleton.mp member]; exact ⟨trivial,rfl,rfl⟩
    · have moves := inv.moves
      rw [opened] at moves
      exact moves.tail (.accepted screened known at_key opens)
    · rw [OwnedOrder.left_self screened.positive]
      exact OrdMap.get?_insert_self _ _ _
    · cases listed.symm.trans defined
      exact screened.on_grid limit (F.valid.ticks listed)

/-! ### Matching on arrival -/

/-- Executing the order on its book, before the executions are settled. -/
theorem execute_meets {quantity : Int} (flying : Flying F order key ticket quantity t) (positive : 0 < quantity) :
    Meets (fun u => t = u) (on_book key Fault.booking (Book.execute order.side ticket.limit quantity))
      (fun found u => 0 ≤ found.2 ∧ ∃ book view, (0 < found.2 → Book.Exhausted order.side ticket.limit book) ∧
        Sweeping F t.run.views key ticket.limit order.order_id (order.owned key ticket) (t.put_book key book).run.listings
          book.view found.2 found.1 view u) (Unsettled F.covered) := by
  obtain ⟨listing,known⟩ := flying.listed
  have sound := flying.core.books key
  rw [RunState.book_of_listing known] at sound
  rintro _ rfl
  cases ran : (on_book key Fault.booking (Book.execute order.side ticket.limit quantity)).run t with
  | ok found u =>
    obtain ⟨listing',book,known',executes,rfl⟩ := on_book_ok ran
    cases known.symm.trans known'
    obtain ⟨_,executed⟩ := Book.execute_ok sound executes
    refine ⟨executed.nonneg,book,listing.book.view,executed.exhausted,?_,rfl,?_,executed.matched⟩
    · have here : listing.book.view = t.run.views key := by rw [RunState.views,RunState.book_of_listing known]
      rw [here,Function.update_eq_self]
      have moved : Core (F.shift F.mode) t.run.views (some order.order_id) (t.put_book key book) :=
        flying.core.put_book known executed.sound (by rw [flying.taking]; exact .executed known executed)
      exact moved
    · have total : found.2 + Book.filled found.1 = quantity := by have := executed.remains; omega
      rw [total]
      exact flying.takes
  | error fault u =>
    obtain ⟨e,book,failed,rfl⟩ := on_book_error known ran
    intro d settling
    rw [Fault.booking,if_pos (Book.execute_error sound positive failed)] at settling
    cases settling

/-- What is left of an order that may rest meets nothing, unless it is collected for an auction. -/
def Cleared (order : SubmitOrder) (key : ListingKey) (ticket : Ticket) (left : Int) (run : RunState) : Prop :=
  ticket.call = false → ticket.immediate = false → 0 < left → Book.Exhausted order.side ticket.limit (run.book key)

theorem match_order_meets (positive : 0 < order.quantity) (fok : ticket.time_in_force = .Fok → ticket.immediate = true) :
    Meets (Flying F order key ticket order.quantity) (match_order order key ticket)
      (fun left t => Flying F order key ticket left t ∧ Cleared order key ticket left t.run) (Unsettled F.covered) := by
  refine get_meets fun t flying => ite_meets (fun _ => ?_) fun rests => pure_meets fun _ same => same ▸ ⟨flying,?_⟩
  · obtain ⟨listing,known⟩ := flying.listed
    refine (execute_meets flying positive).bind fun found => ?_
    rintro u ⟨nonneg,book,view,exhausted,sweeping⟩
    refine (Meets.bind ((settle_matches_meets flying.aggressor flying.taking rfl nonneg found.1).fault
      fun fault _ allowed => allowed.2.2) fun _ => pure_meets fun v swept => ?_) u ⟨view,sweeping⟩
    obtain ⟨core,same,takes⟩ := swept
    have settled := core.caught_up known same
    have kept : v.run.listings.get? key = some { listing with book } := by
      rw [same]
      unfold Transition.put_book put_book
      rw [known]
      exact OrdMap.get?_insert_self _ _ _
    refine ⟨⟨settled,flying.taking,takes,flying.limit,nonneg,flying.aggressor,flying.ticks,⟨_,kept⟩,?_⟩,fun _ _ left => ?_⟩
    · rw [flying.core.session_phase settled]; exact flying.phase
    · rw [RunState.book_of_listing kept]; exact exhausted left
  · -- An order that was not matched is collected, or is an immediate one.
    intro continuous lasting
    have policy : ticket.time_in_force ≠ .Fok := fun is => by rw [fok is] at lasting; cases lasting
    exact absurd (by simp [fillable,continuous,policy]) rests

/-! ### The remainder -/

/-- The frame without a word on the cash of the live orders. -/
def Frame.doubt (F : Frame) : Frame := { F with covered := False, cheap := False.elim }

theorem Core.doubt {views : Views} (core : Core F views flight t) :
    Core F.doubt views flight t :=
  { core with balanced := { core.balanced with covered := False.elim } }

theorem complete_meets {E : Fault → Transition → Prop} :
    Meets (Flying F order key ticket 0) (emit [.OrderCompleted order.order_id])
      (fun _ => Inv (F.shift (.Taken order))) E := by
  intro t flying
  have core := flying.core
  have spent : ((order.owned key ticket).left 0).state = .Filled := by simp [OwnedOrder.left]
  have records := core.records.crash flying.takes (by rw [spent]; simp)
  refine { core with
    records := ?_
    balanced := core.balanced.shift _
    emitted := core.emitted.append fun payload member => ?_
    moves := ?_ }
  · rw [List.filterMap_append]
    exact records
  · rw [List.mem_singleton.mp member]; exact ⟨trivial,rfl,rfl⟩
  · have moves := core.moves
    rw [flying.taking] at moves
    exact moves.tail (.completed flying.takes spent)

variable {remaining : Int}

theorem rest_remainder_run (ran : (rest_remainder order key ticket price remaining).run t = .ok x t') :
    ∃ listing book, t.run.listings.get? key = some listing ∧
      (Book.rest order.order_id order.side price remaining ticket.display).run listing.book = .ok () book ∧
      t' = t.rested order key ticket price remaining book := by
  simp only [rest_remainder,modify_run,emit,returned] at ran
  obtain ⟨_,rests,rfl⟩ := ran
  obtain ⟨listing,book,known,inner,rfl⟩ := on_book_ok rests
  exact ⟨listing,book,known,inner,rfl⟩

theorem Flying.limit_price {left : Int} (flying : Flying F order key ticket left t) (limit : ticket.limit = some price) :
    (order.owned key ticket).limit_price = price := by
  obtain ⟨listing,known⟩ := flying.listed
  have listed := RunState.definition_of_listing known
  rw [flying.core.setup] at listed
  rw [flying.aggressor.limited _ listed,limit]
  rfl

theorem Flying.on_grid {left : Int} (flying : Flying F order key ticket left t) (limit : ticket.limit = some price)
    (positive : 0 < price) : F.setup.OnGrid key price := by
  refine ⟨positive,fun {D} defined => ?_,fun defined => flying.ticks limit defined⟩
  obtain ⟨D',_,listed,_,lowest,highest,_⟩ := flying.aggressor.admitted
  cases defined.symm.trans listed
  rw [flying.limit_price limit] at lowest highest
  exact ⟨lowest,highest⟩

theorem rest_remainder_ok (positive : 0 < remaining) (limit : ticket.limit = some price)
    (lasting : ticket.immediate = false) (flying : Flying F order key ticket remaining t)
    (cleared : Cleared order key ticket remaining t.run)
    (ran : (rest_remainder order key ticket price remaining).run t = .ok x t') : Inv (F.shift (.Taken order)) t' := by
  obtain ⟨listing,book,known,rests,rfl⟩ := rest_remainder_run ran
  have core := flying.core
  have sound := core.books key
  rw [RunState.book_of_listing known] at sound
  obtain ⟨sound',_,priced,_,_,view⟩ := Book.rest_ok sound rests
  have price_eq := flying.limit_price limit
  have live : ((order.owned key ticket).left remaining).state = .Active := if_neg (by omega)
  have landed := core.records.land flying.takes live (by rw [OwnedOrder.left,price_eq]; exact flying.on_grid limit priced)
  have resting : ((order.owned key ticket).left remaining).resting = ⟨order.side,price,remaining⟩ := by
    rw [← price_eq]; rfl
  have views : (t.rested order key ticket price remaining book).run.views =
      t.run.views.set key order.order_id (some ⟨order.side,price,remaining⟩) := by
    have here : listing.book.view = t.run.views key := by rw [RunState.views,RunState.book_of_listing known]
    rw [Views.set,← here,← view]
    exact views_put_book known
  have ends : (t.rested order key ticket price remaining book).payloads.filterMap EventPayload.terminal =
      t.payloads.filterMap EventPayload.terminal := terminal_append (by simp [EventPayload.terminal]) _
  have clear : (t.run.session_phase key.venue_id).collects = .ok true ∨
      Book.Exhausted order.side (some price) listing.book := by
    cases call : ticket.call with
    | true => exact .inl (call ▸ flying.phase)
    | false =>
      have exhausted := cleared call lasting positive
      rw [RunState.book_of_listing known,limit] at exhausted
      exact .inr exhausted
  unfold Inv
  rw [views]
  refine { core with
    setup := RunState.setup_of core.setup definitions_put_book (core.balanced.shift _) rfl
    books := fun j => ?_
    records := ?_
    balanced := core.balanced.shift _
    emitted := core.emitted.append fun payload member => ?_
    moves := ?_ }
  · rw [RunState.book,Transition.rested,book_put_book known]
    split_ifs
    · exact sound'
    · exact core.books j
  · rw [ends]
    rw [resting] at landed
    exact landed
  · rw [List.mem_singleton.mp member]; exact ⟨trivial,rfl,rfl⟩
  · have moves := core.moves
    rw [flying.taking] at moves
    exact moves.tail (.rested known flying.takes (flying.limit ▸ limit) price_eq clear rests)

theorem rest_remainder_error
    (failed : (rest_remainder order key ticket price remaining).run t = .error fault t') (covered : Prop) :
    Unsettled covered fault t' := by
  intro d settling
  simp only [rest_remainder,on_book,modify_run,emit,returned,raised] at failed
  obtain ⟨_,rfl,_⟩ | ⟨_,_,e,_,_,rfl,_⟩ := failed
  · cases settling
  · unfold Fault.resting at settling
    simp only at settling
    split_ifs at settling

theorem drop_remainder_run {owned : OwnedOrder} (found : t.run.ownership.get? order.order_id = some owned)
    (ran : (drop_remainder order key ticket remaining).run t = .ok x t') :
    ∃ ledger, (Ledger.close_order order.participant_id order.instrument_id order.side remaining
        ticket.admission.reservation).run t.run.ledger = .ok () ledger ∧
      t' = { t with
        run := { t.run with ledger, ownership := t.run.ownership.insert order.order_id owned.canceled }
        payloads := t.payloads ++ [.OrderCanceled order.order_id order.participant_id order.instrument_id (some key) remaining
          (if ticket.limit = none then .MarketRemainder else .Expired)] } := by
  simp only [drop_remainder,posting,modify_run,emit,returned] at ran
  obtain ⟨_,⟨ledger,closes,rfl⟩,owned',found',rfl⟩ := ran
  cases found.symm.trans found'
  exact ⟨ledger,closes,rfl⟩

/-- What is left of an order that does not rest is canceled. The cash it
    reserved may fall short of the cash it spent, so nothing is vouched for after it. -/
theorem drop_remainder_ok (positive : 0 < remaining) (flying : Flying F order key ticket remaining t)
    (at_key : key.instrument_id = order.instrument_id)
    (ran : (drop_remainder order key ticket remaining).run t = .ok x t') : Inv (F.shift (.Taken order)).doubt t' := by
  obtain ⟨ledger,closes,rfl⟩ := drop_remainder_run flying.takes ran
  have core := flying.core.doubt
  have live : ((order.owned key ticket).left remaining).state = .Active := if_neg (by omega)
  have releases : (Ledger.close_order ((order.owned key ticket).left remaining).participant_id
      ((order.owned key ticket).left remaining).listing_key.instrument_id ((order.owned key ticket).left remaining).side
      ((order.owned key ticket).left remaining).remaining_quantity
      ((order.owned key ticket).left remaining).reservation).run t.run.ledger = .ok () ledger := by
    simp only [OwnedOrder.left,SubmitOrder.owned,at_key]
    exact closes
  have balanced := core.balanced.close_order flying.takes live False.elim releases
  refine { core with
    setup := RunState.setup_of core.setup rfl (balanced.shift _) rfl
    records := ?_
    balanced := balanced.shift _
    emitted := core.emitted.append fun payload member => ?_
    moves := ?_ }
  · rw [List.filterMap_append]
    exact core.records.abandon flying.takes live
  · rw [List.mem_singleton.mp member]; exact ⟨trivial,rfl,rfl⟩
  · have moves := flying.core.moves
    rw [flying.taking] at moves
    exact moves.tail (.dropped positive flying.takes closes)

theorem drop_remainder_error
    (failed : (drop_remainder order key ticket remaining).run t = .error fault t') (covered : Prop) :
    Unsettled covered fault t' := by
  intro d settling
  simp only [drop_remainder,posting,modify_run,emit,returned,raised] at failed
  obtain ⟨e,_,_,rfl,_⟩ | ⟨_,_,_,rfl,_⟩ := failed
  · exact absurd settling (Fault.accounting_cause e d)
  · cases settling

theorem settle_remainder_meets (remaining : Int) (at_key : key.instrument_id = order.instrument_id) :
    Meets (fun t => Flying F order key ticket remaining t ∧ Cleared order key ticket remaining t.run)
      (settle_remainder order key ticket remaining) (fun _ => Inv (F.shift (.Taken order)).doubt) (Unsettled F.covered) := by
  by_cases spent : remaining = 0
  · subst spent
    exact complete_meets.imp (fun _ holds => holds.1) (fun _ _ inv => Core.doubt inv) fun _ _ impossible => impossible
  · rintro t ⟨flying,cleared⟩
    have positive : 0 < remaining := lt_of_le_of_ne flying.nonneg (Ne.symm spent)
    have drops : Meets (fun u => t = u) (drop_remainder order key ticket remaining)
        (fun _ => Inv (F.shift (.Taken order)).doubt) (Unsettled F.covered) := by
      rintro _ rfl
      cases ran : (drop_remainder order key ticket remaining).run t with
      | ok x u => exact drop_remainder_ok positive flying at_key ran
      | error fault u => exact drop_remainder_error ran _
    unfold settle_remainder
    rw [if_neg spent]
    cases limit : ticket.limit with
    | none => exact drops t rfl
    | some price =>
      cases lasting : ticket.immediate with
      | true => exact drops t rfl
      | false =>
        cases ran : (rest_remainder order key ticket price remaining).run t with
        | ok x u => exact (rest_remainder_ok positive limit lasting flying cleared ran).doubt
        | error fault u => exact rest_remainder_error ran _

/-! ### The whole submission -/

/-- What a submission leaves: nothing has changed, or the order was taken for. -/
def Submitted (F : Frame) (t : Transition) (order : SubmitOrder) (outcome : Except RejectCode Unit) (u : Transition) : Prop :=
  match outcome with
  | .error _ => u = t
  | .ok _ => Inv (F.shift (.Taken order)).doubt u

theorem submit_meets (opened : F.mode = .Open) (inv : Inv F t) (at_key : key.instrument_id = order.instrument_id) :
    Meets (fun u => t = u) (submit order key F.now) (Submitted F t order) (Unsettled F.covered) := by
  rintro _ rfl
  unfold submit
  rw [EStateM.run_bind]
  simp only [EStateM.run_get]
  rw [EStateM.run_bind]
  cases known : t.run.listings.get? key with
  | none =>
    simp only [run_orElse_none]
    intro e settling
    cases settling
  | some listing =>
    simp only [run_orElse_some]
    cases screens : screen t.run listing order key F.now with
    | error code => exact rfl
    | ok ticket =>
      have screened := screen_ok screens
      have whole : Meets (fun u => t = u) (do
          accept order key ticket
          let remaining ← match_order order key ticket
          settle_remainder order key ticket remaining
          pure (.ok ())) (Submitted F t order) (Unsettled F.covered) :=
        (accept_meets opened inv screened known at_key).bind fun _ =>
          (match_order_meets screened.positive screened.fok).bind fun remaining =>
          (settle_remainder_meets remaining at_key).bind fun _ => pure_meets fun _ inv => inv
      exact whole t rfl

theorem Inv.emit_one (inv : Inv F t) {payload : EventPayload} (quiet : payload.Quiet) :
    Inv F { t with payloads := t.payloads ++ [payload] } :=
  Core.emit inv fun _ member => List.mem_singleton.mp member ▸ quiet

/-- The listing is touched only by an order that reaches submission. -/
theorem submit_gated_meets (opened : F.mode = .Open) (inv : Inv F t) (at_key : key.instrument_id = order.instrument_id) :
    Meets (fun u => t = u) (submit_gated order key F.now)
      (fun outcome u => ∃ changed, Submitted F { t with changed } order outcome u) (Unsettled F.covered) := by
  have stays (code : RejectCode) : Meets (fun u => t = u) (pure (.error code) : Engine (Except RejectCode Unit))
      (fun outcome u => ∃ changed, Submitted F { t with changed } order outcome u) (Unsettled F.covered) :=
    pure_meets fun u same => ⟨t.changed,same.symm⟩
  refine get_meets fun _ same => ?_
  subst same
  refine ite_meets (fun _ => stays _) fun _ => ite_meets (fun _ => stays _) fun _ => ite_meets (fun _ => stays _) fun _ => ?_
  have touches : Meets (fun u => t = u) (touch key)
      (fun _ u => { t with changed := t.changed.insert key () } = u) (Unsettled F.covered) := by
    rintro _ rfl; exact rfl
  exact touches.bind fun _ => (submit_meets opened (inv.touch _) at_key).post fun _ _ submitted => ⟨_,submitted⟩

end Flight

end Bunting
